import Mathlib.Data.List.DropRight
import RepoScan.Proofs.Diff.Remark

/-!
# Where the lines of a patch come from

Whatever a diff holds, an added line that is reported stands in it, and the lines before it say what
it is reported as: its path, its commit and its number.  Nothing is reported that does not stand
there, and what stands there is reported unless its file is dropped.

* `Diff.fileAt`, `numberAt` : the file and the number that lines lead to, by the last ones among
  them that tell;
* `Diff.Knows`, `knows_of_run` : the reader is in that file and at that number;
* `Diff.State.additions_of_step_ofFile`, `additions_of_step_other` : what the reader comes to know
  at a line, and what becomes of it where the file is over;
* `Diff.Tracks`, `exists_tracks` : the places of all that the reader knows;
* `Diff.read_origins` : **every added line that is reported has an origin**, each a place of its own
  and in the same order.
-/

namespace RepoScan.Diff

/-! ### The last line of a sort -/

section LastOf

variable {α : Type} {p : α → Bool} {front since : List α} {x : α}

theorem rdropWhile_append_cons (hx : p x = false) (h : ∀ y ∈ since, p y = true) :
    (front ++ x :: since).rdropWhile p = front ++ [x] := by
  induction since using List.reverseRecOn with
  | nil => exact List.rdropWhile_concat_neg p front x (by simp [hx])
  | append_singleton since y ih =>
    obtain ⟨hsince, hy⟩ := List.forall_mem_append.mp h
    rw [← List.cons_append, ← List.append_assoc,
      List.rdropWhile_concat_pos p _ y (hy y (List.mem_singleton_self y)), ih hsince]

theorem rtakeWhile_append_cons (hx : p x = false) (h : ∀ y ∈ since, p y = true) :
    (front ++ x :: since).rtakeWhile p = since := by
  have parts : (front ++ x :: since).rdropWhile p ++ (front ++ x :: since).rtakeWhile p =
      front ++ x :: since := List.rdropWhile_append_rtakeWhile
  rw [rdropWhile_append_cons hx h, List.append_assoc] at parts
  exact List.append_cancel_left (List.append_cancel_left parts)

theorem getLast?_rdropWhile_eq_some_iff {xs : List α} :
    (xs.rdropWhile p).getLast? = some x ↔
      ∃ front, xs = front ++ x :: xs.rtakeWhile p ∧ p x = false := by
  constructor
  · intro h
    obtain ⟨front, hfront⟩ := List.getLast?_eq_some_iff.mp h
    have parts : xs.rdropWhile p ++ xs.rtakeWhile p = xs := List.rdropWhile_append_rtakeWhile
    have last := List.rdropWhile_last_not p xs (by rw [hfront]; exact List.concat_ne_nil x front)
    simp only [hfront, List.getLast_concat] at last
    refine ⟨front, ?_, by simpa using last⟩
    rw [hfront, List.append_assoc] at parts
    exact parts.symm
  · rintro ⟨front, hxs, hx⟩
    have since : ∀ y ∈ xs.rtakeWhile p, p y = true := fun y hy => List.mem_rtakeWhile_imp hy
    rw [hxs, rdropWhile_append_cons hx since, List.getLast?_concat]

end LastOf

/-! ### What the lines before a line tell -/

/-- The file that lines lead to: the last line that is none of a file gives its name. -/
def fileAt (before : List Text) : Option Path :=
  (before.rdropWhile (IsOfFile ·)).getLast?.bind fun line =>
    (Text.after? "+++ " line).bind fun rest =>
      if Text.strip rest = ("/dev/null" : Text) then none
      else some (Path.ofText (State.targetOf rest))

/-- The number that the header of a hunk gives to its first line. -/
def firstNumber? (header : Text) : Option Nat :=
  (hunkStart? header).bind fun ds => (numberOf ds).toOption

/-- The number of the line that comes next: the last header of a hunk gives the first one, and the
lines of the hunk since count unless they were removed. -/
def numberAt (before : List Text) : Option Nat :=
  ((before.rdropWhile (IsRecord ·)).getLast?.bind firstNumber?).map fun n =>
    n + (before.rtakeWhile (IsRecord ·)).countP fun l => !Text.startsWith l "-"

variable {before : List Text} {line : Text} {s s' : State}

theorem fileAt_concat_of_isOfFile (h : IsOfFile line) :
    fileAt (before ++ [line]) = fileAt before := by
  rw [fileAt, fileAt, List.rdropWhile_concat_pos (IsOfFile ·) before line (decide_eq_true h)]

theorem fileAt_concat_of_not_isOfFile (h : ¬ IsOfFile line) :
    fileAt (before ++ [line]) = (Text.after? "+++ " line).bind fun rest =>
      if Text.strip rest = ("/dev/null" : Text) then none
      else some (Path.ofText (State.targetOf rest)) := by
  rw [fileAt, List.rdropWhile_concat_neg _ _ _ (by simp [h]), List.getLast?_concat,
    Option.bind_some]

theorem numberAt_concat_of_isRecord (h : IsRecord line) : numberAt (before ++ [line]) =
    (numberAt before).map fun n => if Text.startsWith line "-" then n else n + 1 := by
  rw [numberAt, numberAt, List.rdropWhile_concat_pos (IsRecord ·) before line (decide_eq_true h),
    List.rtakeWhile_concat_pos (IsRecord ·) before line (decide_eq_true h), List.countP_append,
    List.countP_singleton, Option.map_map]
  congr 1
  funext n
  cases Text.startsWith line "-" <;> simp [Nat.add_assoc]

theorem numberAt_concat_of_not_isRecord (h : ¬ IsRecord line) :
    numberAt (before ++ [line]) = firstNumber? line := by
  rw [numberAt, List.rdropWhile_concat_neg _ _ _ (by simp [h]),
    List.rtakeWhile_concat_neg _ _ _ (by simp [h]), List.getLast?_concat, Option.bind_some]
  simp

/-! ### Lines that change the file -/

theorem isHeader_commit (rest : Text) : IsHeader ("commit " ++ rest) :=
  .inl (Text.startsWith_append _ _)

theorem isHeader_file (rest : Text) : IsHeader ("diff --git " ++ rest) :=
  .inr (Text.startsWith_append _ _)

theorem not_isHeader_of_isInner (inner : IsInner line) : ¬ IsHeader line := by
  rintro (h | h)
  · obtain ⟨rest, rfl⟩ := Text.startsWith_iff.mp h
    have commit := inner.commit
    rw [Text.after?_append] at commit
    cases commit
  · have file := inner.file
    rw [h] at file
    cases file

theorem not_isOfFile_of_isHeader (h : IsHeader line) : ¬ IsOfFile line := fun of =>
  not_isHeader_of_isInner of.toIsInner h

theorem not_isOfFile_target (rest : Text) : ¬ IsOfFile ("+++ " ++ rest) := by
  intro of
  have target := of.target
  rw [Text.after?_append] at target
  cases target

theorem not_isOfFile_of_binary (h : Text.startsWith line "Binary files " = true) :
    ¬ IsOfFile line := by
  intro of
  rw [of.binary] at h
  cases h

theorem isOfFile_of_hunk (inner : IsInner line) (h : Text.startsWith line "@@" = true) :
    IsOfFile line := by
  obtain ⟨rest, rfl⟩ := Text.startsWith_iff.mp h
  exact ⟨inner, rfl⟩

theorem not_isRecord_of_hunk (h : Text.startsWith line "@@" = true) : ¬ IsRecord line := by
  intro record
  rw [record.hunk] at h
  cases h

theorem fileAt_concat_of_isHeader (h : IsHeader line) : fileAt (before ++ [line]) = none := by
  rw [fileAt_concat_of_not_isOfFile (not_isOfFile_of_isHeader h)]
  rcases h with h | h <;> obtain ⟨rest, rfl⟩ := Text.startsWith_iff.mp h <;> rfl

theorem fileAt_concat_of_binary (inner : IsInner line)
    (h : Text.startsWith line "Binary files " = true) : fileAt (before ++ [line]) = none := by
  rw [fileAt_concat_of_not_isOfFile (not_isOfFile_of_binary h), inner.target]
  rfl

theorem fileAt_concat_gone {rest : Text} (h : Text.strip rest = "/dev/null") :
    fileAt (before ++ ["+++ " ++ rest]) = none := by
  rw [fileAt_concat_of_not_isOfFile (not_isOfFile_target rest), Text.after?_append,
    Option.bind_some, if_pos h]

theorem fileAt_concat_target {rest : Text} (h : Text.strip rest ≠ "/dev/null") :
    fileAt (before ++ ["+++ " ++ rest]) = some (Path.ofText (State.targetOf rest)) := by
  rw [fileAt_concat_of_not_isOfFile (not_isOfFile_target rest), Text.after?_append,
    Option.bind_some, if_neg h]

theorem numberAt_concat_target (rest : Text) : numberAt (before ++ ["+++ " ++ rest]) = none :=
  numberAt_concat_of_not_isRecord fun record => not_isOfFile_target rest record.isOfFile

/-! ### What the reader knows -/

/-- What holds before the first line and is kept at every line holds after each run.  A line means
what those before it make of it, so the property is one of them all. -/
theorem State.run_induction {P : List Text → State → Prop} (empty : P [] initial)
    (concat : ∀ {ls : List Text} {s s' : State} {line : Text}, initial.run ls = .ok s → P ls s →
      s.step line = .ok s' → P (ls ++ [line]) s')
    {ls : List Text} (h : initial.run ls = .ok s) : P ls s := by
  induction ls using List.reverseRecOn generalizing s with
  | nil =>
    cases h
    exact empty
  | append_singleton ls line ih =>
    rw [run_append] at h
    obtain ⟨s₁, hrun, hlast⟩ := exists_of_bind_eq_ok h
    obtain ⟨s₂, hstep, hnil⟩ := exists_of_run_cons hlast
    cases hnil
    exact concat hrun (ih hrun) hstep

/-- The reader is in the file and at the number that the lines before lead to.  Outside of files its
number says nothing. -/
structure Knows (before : List Text) (s : State) : Prop where
  file : s.current.map Section.path = fileAt before
  commit : ∀ file, s.current = some file → file.commit = s.commit
  number : ∀ file, s.current = some file → s.next = numberAt before

theorem Knows.of_none (hc : s.current = none) (hf : fileAt before = none) : Knows before s :=
  ⟨by rw [hc, hf]; rfl, by simp [hc], by simp [hc]⟩

theorem Knows.file_concat (h : Knows before s) (of : IsOfFile line) :
    s.current.map Section.path = fileAt (before ++ [line]) := by
  rw [fileAt_concat_of_isOfFile of]
  exact h.file

theorem Knows.number_concat (h : Knows before s) (record : IsRecord line) {file : Section}
    (hc : s.current = some file) : numberAt (before ++ [line]) =
      s.next.map fun n => if Text.startsWith line "-" then n else n + 1 := by
  rw [numberAt_concat_of_isRecord record, h.number file hc]

/-- **One line keeps what the reader knows right.** -/
theorem Knows.step (h : Knows before s) (hs : s.step line = .ok s') :
    Knows (before ++ [line]) s' := by
  cases move_of_step hs with
  | commit rest hl =>
    subst hl
    exact .of_none rfl (fileAt_concat_of_isHeader (isHeader_commit rest))
  | file rest hl =>
    subst hl
    exact .of_none rfl (fileAt_concat_of_isHeader (isHeader_file rest))
  | gone rest hl gone =>
    subst hl
    exact .of_none rfl (fileAt_concat_gone gone)
  | target rest hl there =>
    subst hl
    refine ⟨(fileAt_concat_target there).symm, ?_, fun _ _ => (numberAt_concat_target rest).symm⟩
    intro file hfile
    cases hfile
    rfl
  | outside inner hc =>
    refine .of_none hc ?_
    cases hbinary : Text.startsWith line "Binary files " with
    | true => exact fileAt_concat_of_binary inner hbinary
    | false =>
      rw [← h.file_concat ⟨inner, hbinary⟩, hc]
      rfl
  | binary file inner hc hbinary => exact .of_none rfl (fileAt_concat_of_binary inner hbinary)
  | unread file inner hc hunk hstart =>
    refine ⟨h.file_concat (isOfFile_of_hunk inner hunk), h.commit, fun _ _ => ?_⟩
    rw [numberAt_concat_of_not_isRecord (not_isRecord_of_hunk hunk), firstNumber?, hstart]
    rfl
  | hunk file ds n inner hc hunk hstart hnumber =>
    refine ⟨h.file_concat (isOfFile_of_hunk inner hunk), h.commit, fun _ _ => ?_⟩
    rw [numberAt_concat_of_not_isRecord (not_isRecord_of_hunk hunk), firstNumber?, hstart,
      Option.bind_some, hnumber]
    rfl
  | unnumbered file record hc hn =>
    refine ⟨h.file_concat record.isOfFile, h.commit, fun f hf => ?_⟩
    rw [h.number_concat record hf, hn]
    rfl
  | added file n content record hc hn hl =>
    refine ⟨?_, fun f hf => ?_, fun _ _ => ?_⟩
    · rw [← h.file_concat record.isOfFile, hc]
      rfl
    · cases hf
      exact h.commit file hc
    · rw [h.number_concat record hc, hn, hl]
      rfl
  | removed file n content record hc hn hl =>
    refine ⟨h.file_concat record.isOfFile, h.commit, fun f hf => ?_⟩
    rw [h.number_concat record hf, hn, hl]
    rfl
  | context file n record hc hn hother =>
    refine ⟨h.file_concat record.isOfFile, h.commit, fun f hf => ?_⟩
    have counted : Text.startsWith line "-" = false := by
      rw [← Bool.not_eq_true]
      intro hminus
      obtain ⟨rest, rfl⟩ := Text.startsWith_iff.mp hminus
      exact (hother '-' rfl).2 rfl
    rw [h.number_concat record hf, hn, counted]
    rfl

theorem knows_of_run {ls : List Text} (h : State.initial.run ls = .ok s) : Knows ls s :=
  State.run_induction (.of_none rfl rfl) (fun _ knows hstep => knows.step hstep) h

/-! ### What the reader comes to know -/

/-- An added line with the file and the commit that it is reported for. -/
structure Addition where
  path : Path
  commit : Option Text
  line : AddedLine

/-- What patches report. -/
def additionsOf (ps : List Patch) : List Addition :=
  ps.flatMap fun p => p.lines.map fun a => ⟨p.path, p.commit, a⟩

/-- What is reported of a line after others, if its file is. -/
def additionAt (before : List Text) (line : Text) : Option Addition :=
  if IsRecord line then
    (Text.after? "+" line).bind fun content => (fileAt before).bind fun path =>
      (numberAt before).map fun n =>
        ⟨path, (State.lastCommit? before).bind commitOf, ⟨n, content⟩⟩
  else none

namespace State

/-- What the patches before the current file report. -/
def complete (s : State) : List Addition := additionsOf s.done.reverse

/-- What the patch of the current file reports so far. -/
def pending (s : State) : List Addition :=
  match s.current with
  | some file => file.added.reverse.map fun a => ⟨file.path, file.commit, a⟩
  | none => []

theorem lines_ne_nil_of_mem_flushed (h : ∀ p ∈ s.done, p.lines ≠ []) :
    ∀ p ∈ s.flushed, p.lines ≠ [] := by
  intro p hp
  unfold flushed at hp
  cases hpatch : s.current.bind Section.patch? with
  | none =>
    rw [hpatch] at hp
    exact h p hp
  | some patch =>
    rw [hpatch] at hp
    rcases List.mem_cons.mp hp with rfl | hp
    · obtain ⟨file, -, hfile⟩ := Option.bind_eq_some_iff.mp hpatch
      unfold Section.patch? at hfile
      split at hfile
      · cases hfile
      · rename_i added
        cases hfile
        simpa [List.isEmpty_iff] using added
    · exact h p hp

theorem lines_ne_nil_of_run {ls : List Text} (h : initial.run ls = .ok s) :
    ∀ p ∈ s.done, p.lines ≠ [] := by
  refine run_induction (P := fun _ s => ∀ p ∈ s.done, p.lines ≠ []) nofun ?_ h
  intro ls s s' line _ before hstep
  cases move_of_step hstep with
  | commit | file => exact lines_ne_nil_of_mem_flushed before
  | _ => exact before

theorem additionsOf_flushed (s : State) :
    additionsOf s.flushed.reverse = s.complete ++ s.pending := by
  obtain ⟨done, commit, current, next⟩ := s
  cases current with
  | none => exact (List.append_nil _).symm
  | some file =>
    obtain ⟨path, commit, added⟩ := file
    cases added with
    | nil => exact (List.append_nil _).symm
    | cons a as => simp [additionsOf, complete, pending, flushed, Section.patch?]

theorem additionAt_outside (knows : Knows before s) (hc : s.current = none) (line : Text) :
    additionAt before line = none := by
  have nowhere : fileAt before = none := by
    rw [← knows.file, hc]
    rfl
  unfold additionAt
  split
  · cases Text.after? "+" line <;> simp [nowhere]
  · rfl

theorem additionAt_within (hrun : initial.run before = .ok s) {file : Section}
    (hc : s.current = some file) (line : Text) :
    additionAt before line = if IsRecord line then
      (Text.after? "+" line).bind fun content => s.next.map fun n =>
        ⟨file.path, file.commit, ⟨n, content⟩⟩ else none := by
  have knows := knows_of_run hrun
  have path : fileAt before = some file.path := by
    rw [← knows.file, hc]
    rfl
  have commit : (lastCommit? before).bind commitOf = file.commit := by
    rw [knows.commit file hc, commit_of_run hrun]
    cases lastCommit? before <;> rfl
  rw [additionAt, path, commit, knows.number file hc]
  rfl

/-- **What the reader comes to know at a line of a file**: the line itself, if it was added. -/
theorem additions_of_step_ofFile (hrun : initial.run before = .ok s)
    (hs : s.step line = .ok s') (of : IsOfFile line) :
    s'.complete = s.complete ∧ s'.pending = s.pending ++ (additionAt before line).toList := by
  cases move_of_step hs with
  | commit rest hl =>
    subst hl
    exact absurd of (not_isOfFile_of_isHeader (isHeader_commit rest))
  | file rest hl =>
    subst hl
    exact absurd of (not_isOfFile_of_isHeader (isHeader_file rest))
  | gone rest hl | target rest hl => exact absurd (hl ▸ of) (not_isOfFile_target rest)
  | binary file inner hc hbinary => exact absurd of (not_isOfFile_of_binary hbinary)
  | outside inner hc =>
    rw [additionAt_outside (knows_of_run hrun) hc]
    exact ⟨rfl, (List.append_nil _).symm⟩
  | unread file inner hc hunk | hunk file ds n inner hc hunk =>
    rw [additionAt_within hrun hc, if_neg (not_isRecord_of_hunk hunk)]
    exact ⟨rfl, (List.append_nil _).symm⟩
  | unnumbered file record hc hn =>
    rw [additionAt_within hrun hc, if_pos record, hn]
    refine ⟨rfl, ?_⟩
    cases Text.after? "+" line <;> exact (List.append_nil _).symm
  | added file n content record hc hn hl =>
    subst hl
    rw [additionAt_within hrun hc, if_pos record, hn]
    refine ⟨rfl, ?_⟩
    simp only [pending, hc, List.reverse_cons, List.map_append]
    rfl
  | removed file n content record hc hn hl =>
    subst hl
    rw [additionAt_within hrun hc, if_pos record]
    exact ⟨rfl, (List.append_nil _).symm⟩
  | context file n record hc hn hother =>
    have unmarked : Text.after? "+" line = none := by
      refine Option.eq_none_iff_forall_ne_some.mpr fun content hcontent => ?_
      obtain rfl := Text.after?_eq_some_iff.mp hcontent
      exact (hother '+' rfl).1 rfl
    rw [additionAt_within hrun hc, if_pos record, unmarked]
    exact ⟨rfl, (List.append_nil _).symm⟩

/-- **At any other line the file is over.**  What the reader knew of it is put aside at a header and
lost elsewhere. -/
theorem additions_of_step_other (hs : s.step line = .ok s') (other : ¬ IsOfFile line) :
    s'.pending = [] ∧ s'.complete = s.complete ++ if IsHeader line then s.pending else [] := by
  have closed : additionsOf s.flushed.reverse = s.complete ++ s.pending := additionsOf_flushed s
  cases move_of_step hs with
  | commit rest hl =>
    subst hl
    rw [if_pos (isHeader_commit rest), ← closed]
    exact ⟨rfl, rfl⟩
  | file rest hl =>
    subst hl
    rw [if_pos (isHeader_file rest), ← closed]
    exact ⟨rfl, rfl⟩
  | gone rest hl | target rest hl =>
    subst hl
    rw [if_neg (by rintro (h | h) <;> cases h)]
    exact ⟨rfl, (List.append_nil _).symm⟩
  | binary file inner hc hbinary =>
    rw [if_neg (not_isHeader_of_isInner inner)]
    exact ⟨rfl, (List.append_nil _).symm⟩
  | outside inner hc =>
    rw [if_neg (not_isHeader_of_isInner inner), pending, hc]
    exact ⟨rfl, (List.append_nil _).symm⟩
  | unread file inner hc hunk | hunk file ds n inner hc hunk =>
    exact absurd (isOfFile_of_hunk inner hunk) other
  | unnumbered file record | added file n content record | removed file n content record
  | context file n record => exact absurd record.isOfFile other

end State

/-! ### Places -/

/-- The addition is what is reported of the line at a place. -/
def IsFrom (ls : List Text) (a : Addition) (i : Nat) : Prop :=
  ∃ line, ls[i]? = some line ∧ additionAt (ls.take i) line = some a

/-- The lines go on in the file. -/
def IsOpen (after : List Text) : Prop := ∀ line ∈ after, IsOfFile line

/-- The lines come to the header that puts the file aside. -/
def IsClosed (after : List Text) : Prop :=
  ∃ line ∈ (after.dropWhile (IsOfFile ·)).head?, IsHeader line

/-- The file is not dropped in the lines: if they leave it, then at a header. -/
def IsPutAside (after : List Text) : Prop :=
  ∀ line ∈ (after.dropWhile (IsOfFile ·)).head?, IsHeader line

variable {ls after : List Text} {i : Nat} {a : Addition}

theorem IsFrom.lt_length (h : IsFrom ls a i) : i < ls.length := by
  obtain ⟨line, hline, -⟩ := h
  exact (List.getElem?_eq_some_iff.mp hline).1

theorem isFrom_concat : IsFrom (ls ++ [line]) a i ↔
    IsFrom ls a i ∨ i = ls.length ∧ additionAt ls line = some a := by
  unfold IsFrom
  rcases Nat.lt_trichotomy i ls.length with hi | rfl | hi
  · rw [List.getElem?_append_left hi, List.take_append_of_le_length hi.le]
    simp [hi.ne]
  · simp
  · rw [List.getElem?_eq_none (by simp; omega), List.getElem?_eq_none hi.le]
    simp [hi.ne']

theorem forall₂_isFrom_concat {as : List Addition} {places : List Nat}
    (h : List.Forall₂ (IsFrom ls) as places) : List.Forall₂ (IsFrom (ls ++ [line])) as places :=
  h.imp fun _ _ ha => isFrom_concat.mpr (.inl ha)

theorem isOpen_nil : IsOpen [] := nofun

theorem not_isClosed_nil : ¬ IsClosed [] := by simp [IsClosed]

theorem isOpen_concat : IsOpen (after ++ [line]) ↔ IsOpen after ∧ IsOfFile line := by
  simp [IsOpen, or_imp, forall_and]

theorem dropWhile_eq_nil_iff_isOpen : after.dropWhile (IsOfFile ·) = [] ↔ IsOpen after := by
  simp [List.dropWhile_eq_nil_iff, IsOpen]

theorem isClosed_concat : IsClosed (after ++ [line]) ↔
    IsClosed after ∨ IsOpen after ∧ IsHeader line := by
  unfold IsClosed
  rw [List.dropWhile_append]
  by_cases hopen : IsOpen after
  · have gone := dropWhile_eq_nil_iff_isOpen.mpr hopen
    by_cases of : IsOfFile line
    · simp [gone, of, hopen, not_isHeader_of_isInner of.toIsInner]
    · simp [gone, of, hopen]
  · have left : after.dropWhile (IsOfFile ·) ≠ [] :=
      fun h => hopen (dropWhile_eq_nil_iff_isOpen.mp h)
    obtain ⟨first, rest, hfirst⟩ := List.exists_cons_of_ne_nil left
    simp [hfirst, hopen]

theorem isPutAside_iff : IsPutAside after ↔ IsClosed after ∨ IsOpen after := by
  unfold IsPutAside IsClosed
  rw [← dropWhile_eq_nil_iff_isOpen]
  cases after.dropWhile (IsOfFile ·) <;> simp

/-- What stands at a place and what comes after it, with one more line. -/
theorem exists_isFrom_concat_and {P : List Text → Prop} :
    (∃ a, IsFrom (ls ++ [line]) a i) ∧ P ((ls ++ [line]).drop (i + 1)) ↔
      (∃ a, IsFrom ls a i) ∧ P (ls.drop (i + 1) ++ [line]) ∨
        i = ls.length ∧ (∃ a, additionAt ls line = some a) ∧ P [] := by
  have before (h : i < ls.length) : (ls ++ [line]).drop (i + 1) = ls.drop (i + 1) ++ [line] :=
    List.drop_append_of_le_length h
  have last : (ls ++ [line]).drop (ls.length + 1) = [] := by simp
  constructor
  · rintro ⟨⟨a, ha⟩, hP⟩
    rcases isFrom_concat.mp ha with hold | ⟨rfl, hnew⟩
    · exact .inl ⟨⟨a, hold⟩, before hold.lt_length ▸ hP⟩
    · exact .inr ⟨rfl, ⟨a, hnew⟩, last ▸ hP⟩
  · rintro (⟨⟨a, ha⟩, hP⟩ | ⟨rfl, ⟨a, ha⟩, hP⟩)
    · exact ⟨⟨a, isFrom_concat.mpr (.inl ha)⟩, (before ha.lt_length).symm ▸ hP⟩
    · exact ⟨⟨a, isFrom_concat.mpr (.inr ⟨rfl, ha⟩)⟩, last.symm ▸ hP⟩

/-- The places of what the reader knows after some lines: those of the patches that are complete,
and after them those of the current file. -/
structure Tracks (ls : List Text) (s : State) (complete pending : List Nat) : Prop where
  ordered : (complete ++ pending).Pairwise (· < ·)
  completeFrom : List.Forall₂ (IsFrom ls) s.complete complete
  pendingFrom : List.Forall₂ (IsFrom ls) s.pending pending
  mem_complete : ∀ i, i ∈ complete ↔ (∃ a, IsFrom ls a i) ∧ IsClosed (ls.drop (i + 1))
  mem_pending : ∀ i, i ∈ pending ↔ (∃ a, IsFrom ls a i) ∧ IsOpen (ls.drop (i + 1))

namespace Tracks

variable {complete pending : List Nat}

theorem lt_length (h : Tracks ls s complete pending) :
    ∀ i ∈ complete ++ pending, i < ls.length := by
  intro i hi
  rcases List.mem_append.mp hi with hi | hi
  · obtain ⟨⟨a, ha⟩, -⟩ := (h.mem_complete i).mp hi
    exact ha.lt_length
  · obtain ⟨⟨a, ha⟩, -⟩ := (h.mem_pending i).mp hi
    exact ha.lt_length

/-- A line of a file, which may be one that was added. -/
theorem step_ofFile (h : Tracks ls s complete pending) (hrun : State.initial.run ls = .ok s)
    (hs : s.step line = .ok s') (of : IsOfFile line) :
    ∃ more, Tracks (ls ++ [line]) s' complete (pending ++ more) := by
  obtain ⟨hcomplete, hpending⟩ := State.additions_of_step_ofFile hrun hs of
  have closed (i : Nat) : i ∈ complete ↔ (∃ a, IsFrom (ls ++ [line]) a i) ∧
      IsClosed ((ls ++ [line]).drop (i + 1)) := by
    rw [exists_isFrom_concat_and, isClosed_concat, h.mem_complete]
    simp [not_isHeader_of_isInner of.toIsInner, not_isClosed_nil]
  have opened (i : Nat) : i ∈ pending ∨ i = ls.length ∧ (∃ a, additionAt ls line = some a) ↔
      (∃ a, IsFrom (ls ++ [line]) a i) ∧ IsOpen ((ls ++ [line]).drop (i + 1)) := by
    rw [exists_isFrom_concat_and, isOpen_concat, h.mem_pending]
    simp [of, isOpen_nil]
  cases hadd : additionAt ls line with
  | none =>
    rw [hadd] at hpending
    refine ⟨[], ?_, ?_, ?_, closed, fun i => ?_⟩
    · simpa using h.ordered
    · rw [hcomplete]
      exact forall₂_isFrom_concat h.completeFrom
    · rw [hpending, Option.toList_none, List.append_nil, List.append_nil]
      exact forall₂_isFrom_concat h.pendingFrom
    · rw [← opened, hadd]
      simp
  | some a =>
    rw [hadd] at hpending
    refine ⟨[ls.length], ?_, ?_, ?_, closed, fun i => ?_⟩
    · rw [← List.append_assoc, List.pairwise_append]
      refine ⟨h.ordered, List.pairwise_singleton _ _, ?_⟩
      simpa using h.lt_length
    · rw [hcomplete]
      exact forall₂_isFrom_concat h.completeFrom
    · rw [hpending]
      exact List.rel_append (forall₂_isFrom_concat h.pendingFrom)
        (.cons (isFrom_concat.mpr (.inr ⟨rfl, hadd⟩)) .nil)
    · rw [← opened, hadd]
      simp

/-- A line that is none of a file: what was pending is complete after a header, and lost after any
other such line. -/
theorem step_other (h : Tracks ls s complete pending) (hs : s.step line = .ok s')
    (other : ¬ IsOfFile line) :
    Tracks (ls ++ [line]) s' (complete ++ if IsHeader line then pending else []) [] := by
  obtain ⟨hpending, hcomplete⟩ := State.additions_of_step_other hs other
  have nothing : additionAt ls line = none := if_neg fun record => other record.isOfFile
  refine ⟨?_, ?_, ?_, fun i => ?_, fun i => ?_⟩
  · split
    · simpa using h.ordered
    · simpa using (List.pairwise_append.mp h.ordered).1
  · rw [hcomplete]
    split
    · exact List.rel_append (forall₂_isFrom_concat h.completeFrom)
        (forall₂_isFrom_concat h.pendingFrom)
    · simpa using forall₂_isFrom_concat h.completeFrom
  · rw [hpending]
    exact .nil
  · rw [exists_isFrom_concat_and, isClosed_concat, and_or_left, ← h.mem_complete, ← and_assoc,
      ← h.mem_pending, nothing]
    split <;> simp [*]
  · rw [exists_isFrom_concat_and, isOpen_concat, nothing]
    simp [other]

end Tracks

/-- **All that the reader knows has a place**, and what it lost has none. -/
theorem exists_tracks (h : State.initial.run ls = .ok s) :
    ∃ complete pending, Tracks ls s complete pending := by
  refine State.run_induction (P := fun ls s => ∃ complete pending, Tracks ls s complete pending)
    ?_ ?_ h
  · have none (a : Addition) (i : Nat) : ¬ IsFrom [] a i := fun h => Nat.not_lt_zero i h.lt_length
    exact ⟨[], [], .nil, .nil, .nil, by simp [none], by simp [none]⟩
  · rintro ls s s' line hrun ⟨complete, pending, tracks⟩ hstep
    by_cases of : IsOfFile line
    · obtain ⟨more, tracks⟩ := tracks.step_ofFile hrun hstep of
      exact ⟨_, _, tracks⟩
    · exact ⟨_, _, tracks.step_other hstep of⟩

/-! ### Origins -/

/-- The path is that in the last line that names a file.  Since then neither a commit nor another
file began, and the file was not told to be no text. -/
def LeadsTo (before : List Text) (path : Path) : Prop :=
  ∃ (front : List Text) (rest : Text) (since : List Text),
    before = front ++ ("+++ " ++ rest) :: since ∧ (∀ l ∈ since, IsOfFile l) ∧
      Text.strip rest ≠ "/dev/null" ∧ path = Path.ofText (State.targetOf rest)

/-- The number is that in the last header of a hunk, and one more for every line since that was not
removed.  All of these are lines of the hunk. -/
def CountsTo (before : List Text) (number : Nat) : Prop :=
  ∃ (front : List Text) (header : Text) (since : List Text) (n : Nat),
    before = front ++ header :: since ∧ (∀ l ∈ since, IsRecord l) ∧ firstNumber? header = some n ∧
      number = n + since.countP fun l => !Text.startsWith l "-"

/-- The addition is told by the line at a place and the lines before it. -/
structure Origin (ls : List Text) (a : Addition) (i : Nat) : Prop where
  line : ls[i]? = some (addedLine a.line.content)
  /-- With its mark the line is no header. -/
  record : IsRecord (addedLine a.line.content)
  path : LeadsTo (ls.take i) a.path
  /-- The commit is that in the last header of one. -/
  commit : a.commit = (State.lastCommit? (ls.take i)).bind commitOf
  number : CountsTo (ls.take i) a.line.number

theorem leadsTo_iff {path : Path} : LeadsTo before path ↔ fileAt before = some path := by
  constructor
  · rintro ⟨front, rest, since, rfl, hsince, there, rfl⟩
    have target := not_isOfFile_target rest
    rw [fileAt, rdropWhile_append_cons (by simpa using target) (by simpa using hsince),
      List.getLast?_concat, Option.bind_some, Text.after?_append, Option.bind_some, if_neg there]
  · intro h
    obtain ⟨line, hline, hname⟩ := Option.bind_eq_some_iff.mp h
    obtain ⟨rest, hrest, hpath⟩ := Option.bind_eq_some_iff.mp hname
    obtain ⟨front, hbefore, -⟩ := getLast?_rdropWhile_eq_some_iff.mp hline
    rw [Text.after?_eq_some_iff.mp hrest] at hbefore
    split at hpath
    · cases hpath
    · rename_i there
      refine ⟨front, rest, _, hbefore, fun l hl => ?_, there, (Option.some.inj hpath).symm⟩
      have first := List.mem_rtakeWhile_imp hl
      exact of_decide_eq_true first

theorem not_isRecord_of_firstNumber? {n : Nat} (h : firstNumber? line = some n) :
    ¬ IsRecord line := by
  obtain ⟨ds, hds, -⟩ := Option.bind_eq_some_iff.mp h
  obtain ⟨rest, hrest, -⟩ := Option.bind_eq_some_iff.mp hds
  obtain rfl := Text.after?_eq_some_iff.mp hrest
  exact not_isRecord_of_hunk rfl

theorem countsTo_iff {number : Nat} :
    CountsTo before number ↔ numberAt before = some number := by
  constructor
  · rintro ⟨front, header, since, n, rfl, hsince, hn, rfl⟩
    have hheader := not_isRecord_of_firstNumber? hn
    rw [numberAt, rdropWhile_append_cons (by simpa using hheader) (by simpa using hsince),
      rtakeWhile_append_cons (by simpa using hheader) (by simpa using hsince),
      List.getLast?_concat, Option.bind_some, hn]
    rfl
  · intro h
    obtain ⟨n, hn, rfl⟩ := Option.map_eq_some_iff.mp h
    obtain ⟨header, hheader, hn⟩ := Option.bind_eq_some_iff.mp hn
    obtain ⟨front, hbefore, -⟩ := getLast?_rdropWhile_eq_some_iff.mp hheader
    refine ⟨front, header, _, n, hbefore, fun l hl => ?_, hn, rfl⟩
    have first := List.mem_rtakeWhile_imp hl
    exact of_decide_eq_true first

theorem isFrom_iff_origin : IsFrom ls a i ↔ Origin ls a i := by
  constructor
  · rintro ⟨line, hline, h⟩
    unfold additionAt at h
    split at h
    · rename_i record
      obtain ⟨content, hcontent, h⟩ := Option.bind_eq_some_iff.mp h
      obtain ⟨path, hpath, h⟩ := Option.bind_eq_some_iff.mp h
      obtain ⟨n, hn, rfl⟩ := Option.map_eq_some_iff.mp h
      obtain rfl := Text.after?_eq_some_iff.mp hcontent
      exact ⟨hline, record, leadsTo_iff.mpr hpath, rfl, countsTo_iff.mpr hn⟩
    · cases h
  · rintro ⟨line, record, path, commit, number⟩
    obtain ⟨apath, acommit, n, content⟩ := a
    obtain rfl : acommit = _ := commit
    refine ⟨addedLine content, line, ?_⟩
    have content : Text.after? "+" (addedLine content) = some content :=
      Text.after?_append "+" content
    rw [additionAt, if_pos record, content, leadsTo_iff.mp path, countsTo_iff.mp number]
    rfl

/-- **Every added line that is reported has an origin.**  Whatever text is read, no patch is without
lines, and the lines of all patches stand at places of their own in the text, in the same order.
These are all places where a line stands that was added to a file, unless the file is dropped. -/
theorem read_origins {t : Text} {ps : List Patch} (h : read t = .ok ps) :
    (∀ p ∈ ps, p.lines ≠ []) ∧
      ∃ places : List Nat, places.Pairwise (· < ·) ∧
        List.Forall₂ (Origin (Text.lines t)) (additionsOf ps) places ∧
        ∀ i, i ∈ places ↔ (∃ a, Origin (Text.lines t) a i) ∧
          IsPutAside ((Text.lines t).drop (i + 1)) := by
  rw [read_eq] at h
  obtain ⟨s, hrun, rfl⟩ := exists_of_map_eq_ok h
  refine ⟨fun p hp => ?_, ?_⟩
  · exact State.lines_ne_nil_of_mem_flushed (State.lines_ne_nil_of_run hrun) p
      (List.mem_reverse.mp hp)
  · obtain ⟨complete, pending, tracks⟩ := exists_tracks hrun
    refine ⟨complete ++ pending, tracks.ordered, ?_, fun i => ?_⟩
    · rw [State.additionsOf_flushed]
      exact (List.rel_append tracks.completeFrom tracks.pendingFrom).imp
        fun a i => isFrom_iff_origin.mp
    · simp only [← isFrom_iff_origin, isPutAside_iff, List.mem_append, tracks.mem_complete,
        tracks.mem_pending, and_or_left]

/-- Of two files lines are reported.  Lost are a line below a header that cannot be read, the line
of a file that is gone, and that of a file which the next name replaces. -/
theorem read_origins_sample :
    let ls : List Text := ["commit 1f0c", "+++ b/keys.py", "@@ -0,0 +1,2 @@", "+key", "-+++ x",
      "context", "+token", "@@ garbage", "+lost", "diff --git ", "+++ /dev/null", "@@ -1 +1 @@",
      "+gone", "+++ b/app.py", "@@ -9 +10 @@", "+dropped", "+++ b/main.py", "@@ -1 +5 @@", "+kept"]
    let ps : List Patch := [⟨⟨[], ["keys.py"]⟩, [⟨1, "key"⟩, ⟨3, "token"⟩], some "1f0c"⟩,
      ⟨⟨[], ["main.py"]⟩, [⟨5, "kept"⟩], some "1f0c"⟩]
    read (Text.ended ls) = .ok ps ∧
      ∃ places : List Nat, places.Pairwise (· < ·) ∧
        List.Forall₂ (Origin (Text.lines (Text.ended ls))) (additionsOf ps) places := by
  intro ls ps
  have hread : read (Text.ended ls) = .ok ps := by decide +kernel
  obtain ⟨-, places, ordered, origins, -⟩ := read_origins hread
  exact ⟨hread, places, ordered, origins⟩

end RepoScan.Diff
