import RepoScan.Failure
import RepoScan.Path
import RepoScan.Text.Lines

/-!
# Unified diffs

A history is read as the text of its diffs, with a line `commit <hash>` before each commit.  What
is kept of it are the added lines: a `Patch` holds those of one file in one commit, each with its
number in the new version.

The reader goes through the lines once.  Its state is the commit, the file and the number of the
next line in the new version; a header line of any sort ends what it replaces.  A file without
added lines leaves no patch.
-/

namespace RepoScan

/-- A line that a commit adds. -/
structure AddedLine where
  number : Nat
  content : Text
deriving DecidableEq

/-- The lines that a commit adds to a file. -/
structure Patch where
  path : Path
  lines : List AddedLine
  commit : Option Text
deriving DecidableEq

namespace Diff

/-- The digits at the start of a text, of any script, and the rest. -/
def takeDecimals (t : Text) : Text × Text :=
  (t.takeWhile (·.isDecimal), t.dropWhile (·.isDecimal))

/-- Digits and optionally a comma and more digits; the first digits and the rest. -/
def takeSpan? (t : Text) : Option (Text × Text) :=
  let (ds, rest) := takeDecimals t
  if ds.isEmpty then none
  else match rest with
    | c :: rest' =>
      let (es, rest'') := takeDecimals rest'
      if c = ',' && !es.isEmpty then some (ds, rest'') else some (ds, rest)
    | [] => some (ds, [])

/-- The digits of the first line's number in the new version, from the header of a hunk. -/
def hunkStart? (line : Text) : Option Text := do
  let t ← Text.after? "@@ -" line
  let (_, t) ← takeSpan? t
  let t ← Text.after? " +" t
  let (ds, t) ← takeSpan? t
  let _ ← Text.after? " @@" t
  pure ds

/-- The number that digits of any script spell. -/
def numberOf (ds : Text) : Except Failure Nat :=
  if Number.maxDigits < ds.length then .error (.tooManyDigits ds.length)
  else .ok (ds.foldl (fun n c => n * 10 + c.decimalValue?.getD 0) 0)

/-- The file that is being read: its patch, with the added lines reversed. -/
structure Section where
  path : Path
  commit : Option Text
  added : List AddedLine

namespace Section

/-- The patch of a file, unless nothing was added to it. -/
def patch? (s : Section) : Option Patch :=
  if s.added.isEmpty then none else some ⟨s.path, s.added.reverse, s.commit⟩

end Section

/-- What the reader knows between two lines. -/
structure State where
  /-- The patches that are complete, reversed. -/
  done : List Patch
  commit : Option Text
  current : Option Section
  /-- The number of the next line in the new version, inside a hunk. -/
  next : Option Nat

namespace State

/-- Before the first line. -/
def initial : State := ⟨[], none, none, none⟩

/-- The patches with that of the current file. -/
def flushed (s : State) : List Patch :=
  match s.current.bind Section.patch? with
  | some p => p :: s.done
  | none => s.done

/-- The current file's patch is put aside. -/
def close (s : State) : State := { s with done := s.flushed, current := none, next := none }

/-- The file that a header line names; the mark for the new version is taken off. -/
def targetOf (rest : Text) : Text :=
  let target := Text.strip rest
  (Text.after? "b/" target).getD target

/-- One line of the diff. -/
def step (s : State) (line : Text) : Except Failure State :=
  match Text.after? "commit " line with
  | some rest =>
    let hash := Text.strip rest
    .ok { s.close with commit := if hash.isEmpty then none else some hash }
  | none =>
  if Text.startsWith line "diff --git " then .ok s.close
  else match Text.after? "+++ " line with
  | some rest =>
    if Text.strip rest = ("/dev/null" : Text) then .ok { s with current := none }
    else .ok { s with current := some ⟨Path.ofText (targetOf rest), s.commit, []⟩, next := none }
  | none =>
  match s.current with
  | none => .ok s
  | some file =>
    if Text.startsWith line "Binary files " then .ok { s with current := none, next := none }
    else if Text.startsWith line "@@" then
      match hunkStart? line with
      | none => .ok { s with next := none }
      | some ds => do
        let n ← numberOf ds
        pure { s with next := some n }
    else match s.next with
    | none => .ok s
    | some n =>
      match line with
      | c :: content =>
        if c = '+' then
          .ok { s with
            current := some { file with added := ⟨n, content⟩ :: file.added }
            next := some (n + 1) }
        else if c = '-' then .ok s
        else .ok { s with next := some (n + 1) }
      | [] => .ok { s with next := some (n + 1) }

/-- All lines of the diff. -/
def run (s : State) : List Text → Except Failure State
  | [] => .ok s
  | line :: lines =>
    match s.step line with
    | .error e => .error e
    | .ok s => run s lines

end State

/-- The patches of a diff. -/
def read (t : Text) : Except Failure (List Patch) := do
  let s ← State.initial.run (Text.lines t)
  pure s.flushed.reverse

end Diff

end RepoScan
