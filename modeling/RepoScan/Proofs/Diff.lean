import RepoScan.Proofs.Result
import RepoScan.Proofs.Text.Basic
import RepoScan.Proofs.Text.Digits
import RepoScan.Proofs.Text.Lines

/-!
# Reading diffs line by line

What the reader of diffs does at each sort of line, and over lines in a row.

* `Diff.State.step_commit`, `step_file`, `step_target`, `step_hunk` : lines of headers;
* `Diff.State.step_added`, `step_context`, `step_removed` : lines of a hunk;
* `Diff.State.run_append`, `run_of_forall` : lines in a row;
* `Diff.hunkStart?_hunkHeader` : the number in the header of a hunk is found.
-/

namespace RepoScan.Diff

/-! ### Headers of hunks -/

/-- Lines in a row, as the header of a hunk gives them: the number of the first one, and how many
there are unless that is left out. -/
structure Span where
  start : Nat
  count : Option Nat

namespace Span

/-- The span in the header. -/
def toText (s : Span) : Text :=
  match s.count with
  | none => Text.ofNat s.start
  | some n => Text.ofNat s.start ++ (',' : CodePoint) :: Text.ofNat n

end Span

/-- The header of a hunk. -/
def hunkHeader (old new : Span) : Text := "@@ -" ++ (old.toText ++ " +" ++ (new.toText ++ " @@"))

theorem takeDecimals_ofNat (n : Nat) {c : CodePoint} (hc : c.isDecimal = false) (t : Text) :
    takeDecimals (Text.ofNat n ++ c :: t) = (Text.ofNat n, c :: t) := by
  have digits : ∀ d ∈ Text.ofNat n, d.isDecimal = true := fun _ => Text.isDecimal_of_mem_ofNat
  rw [takeDecimals, List.takeWhile_append_of_pos digits, List.dropWhile_append_of_pos digits,
    List.takeWhile_cons_of_neg (Bool.eq_false_iff.mp hc),
    List.dropWhile_cons_of_neg (Bool.eq_false_iff.mp hc), List.append_nil]

theorem takeSpan?_toText (s : Span) (t : Text) :
    takeSpan? (s.toText ++ (' ' : CodePoint) :: t) =
      some (Text.ofNat s.start, (' ' : CodePoint) :: t) := by
  have digits (n : Nat) : (Text.ofNat n).isEmpty = false :=
    List.isEmpty_eq_false_iff.mpr (Text.ofNat_ne_nil n)
  rcases s with ⟨start, _ | n⟩
  · have first := takeDecimals_ofNat start (c := ' ') (by decide) t
    simp only [Span.toText, takeSpan?, first, digits]
    rfl
  · have first := takeDecimals_ofNat start (c := ',') (by decide)
      (Text.ofNat n ++ (' ' : CodePoint) :: t)
    have second := takeDecimals_ofNat n (c := ' ') (by decide) t
    simp only [Span.toText, List.append_assoc, List.cons_append, takeSpan?, first, second, digits]
    rfl

/-- What follows the header on its line does not count. -/
theorem hunkStart?_hunkHeader (old new : Span) (heading : Text) :
    hunkStart? (hunkHeader old new ++ heading) = some (Text.ofNat new.start) := by
  have parts : hunkHeader old new ++ heading =
      "@@ -" ++ (old.toText ++ (" +" ++ (new.toText ++ (" @@" ++ heading)))) := by
    simp only [hunkHeader, List.append_assoc]
  have front : takeSpan? (old.toText ++ (" +" ++ (new.toText ++ (" @@" ++ heading)))) =
      some (Text.ofNat old.start, " +" ++ (new.toText ++ (" @@" ++ heading))) :=
    takeSpan?_toText old _
  have back : takeSpan? (new.toText ++ (" @@" ++ heading)) =
      some (Text.ofNat new.start, " @@" ++ heading) := takeSpan?_toText new _
  unfold hunkStart?
  rw [parts, Text.after?_append]
  simp only [Option.bind_eq_bind, Option.bind_some, front, Text.after?_append, back]
  rfl

theorem isUnbroken_toText (s : Span) : Text.IsUnbroken s.toText := by
  rcases s with ⟨start, _ | n⟩
  · exact Text.isUnbroken_ofNat start
  · exact (Text.isUnbroken_ofNat start).append (List.forall_mem_cons.mpr
      ⟨by decide, Text.isUnbroken_ofNat n⟩)

theorem isUnbroken_hunkHeader (old new : Span) : Text.IsUnbroken (hunkHeader old new) := by
  have mark (s : String) (h : Text.IsUnbroken s) {t : Text} (ht : Text.IsUnbroken t) :
      Text.IsUnbroken (s ++ t) := h.append ht
  refine mark "@@ -" (by decide) (((isUnbroken_toText old).append ?_).append ?_)
  · exact (by decide : Text.IsUnbroken " +")
  · exact (isUnbroken_toText new).append (by decide : Text.IsUnbroken " @@")

/-! ### One line -/

/-- The line is no header of a commit or file. -/
structure IsInner (line : Text) : Prop where
  commit : Text.after? "commit " line = none
  file : Text.startsWith line "diff --git " = false
  target : Text.after? "+++ " line = none

instance (line : Text) : Decidable (IsInner line) :=
  decidable_of_iff (Text.after? "commit " line = none ∧ Text.startsWith line "diff --git " = false ∧
      Text.after? "+++ " line = none)
    ⟨fun ⟨commit, file, target⟩ => ⟨commit, file, target⟩,
      fun ⟨commit, file, target⟩ => ⟨commit, file, target⟩⟩

theorem isInner_nil : IsInner [] := ⟨rfl, rfl, rfl⟩

theorem isInner_cons {c : CodePoint} (h : c ≠ 'c' ∧ c ≠ 'd' ∧ c ≠ '+') (t : Text) :
    IsInner (c :: t) :=
  ⟨Text.after?_of_ne h.1.symm _ _, Text.startsWith_of_ne h.2.1.symm _ _,
    Text.after?_of_ne h.2.2.symm _ _⟩

theorem isInner_hunkHeader (old new : Span) (heading : Text) :
    IsInner (hunkHeader old new ++ heading) := isInner_cons (by decide) _

/-- A line of a file, marked as added. -/
def addedLine (l : Text) : Text := ('+' : CodePoint) :: l

/-- An added line is taken for the name of a file if it begins so with its mark. -/
theorem isInner_addedLine_iff {l : Text} :
    IsInner (addedLine l) ↔ Text.startsWith l "++ " = false := by
  constructor
  · intro h
    refine Bool.eq_false_iff.mpr fun hs => ?_
    obtain ⟨rest, rfl⟩ := Text.startsWith_iff.mp hs
    have target : Text.after? "+++ " ("+++ " ++ rest) = none := h.target
    rw [Text.after?_append] at target
    cases target
  · intro h
    refine ⟨rfl, rfl, ?_⟩
    show Text.after? "++ " l = none
    cases ha : Text.after? "++ " l with
    | none => rfl
    | some rest =>
      rw [Text.after?_eq_some_iff.mp ha, Text.startsWith_append] at h
      cases h

/-- The name of a commit in its header. -/
def commitOf (rest : Text) : Option Text :=
  if (Text.strip rest).isEmpty then none else some (Text.strip rest)

namespace State

variable (s : State)

theorem step_commit (rest : Text) :
    s.step ("commit " ++ rest) = .ok { s.close with commit := commitOf rest } := by
  unfold step
  rw [Text.after?_append]
  rfl

theorem step_file (rest : Text) : s.step ("diff --git " ++ rest) = .ok s.close := by
  have commit : Text.after? "commit " ("diff --git " ++ rest) = none := rfl
  unfold step
  rw [commit, Text.startsWith_append]
  rfl

theorem step_target {rest : Text} (h : Text.strip rest ≠ "/dev/null") :
    s.step ("+++ " ++ rest) =
      .ok { s with current := some ⟨Path.ofText (targetOf rest), s.commit, []⟩, next := none } := by
  have commit : Text.after? "commit " ("+++ " ++ rest) = none := rfl
  have file : Text.startsWith ("+++ " ++ rest) "diff --git " = false := rfl
  unfold step
  rw [commit, file, Text.after?_append]
  exact if_neg h

theorem step_deleted : s.step "+++ /dev/null" = .ok { s with current := none } := rfl

variable {s} {line : Text} {file : Section}

theorem step_outside (h : IsInner line) (hc : s.current = none) : s.step line = .ok s := by
  unfold step
  rw [h.commit, h.file, h.target, hc]
  rfl

theorem step_hunk_append {old new : Span} (heading : Text) (hc : s.current = some file)
    (hn : new.start < Nat.pow 10 Number.maxDigits) :
    s.step (hunkHeader old new ++ heading) = .ok { s with next := some new.start } := by
  have inner : IsInner (hunkHeader old new ++ heading) := isInner_hunkHeader old new heading
  have binary : Text.startsWith (hunkHeader old new ++ heading) "Binary files " = false := rfl
  have hunk : Text.startsWith (hunkHeader old new ++ heading) "@@" = true := rfl
  unfold step
  rw [inner.commit, inner.file, inner.target, hc]
  simp only [Bool.false_eq_true, if_false, binary, hunk, if_true]
  rw [hunkStart?_hunkHeader]
  simp only [numberOf_ofNat hn]
  rfl

theorem step_hunk {old new : Span} (hc : s.current = some file)
    (hn : new.start < Nat.pow 10 Number.maxDigits) :
    s.step (hunkHeader old new) = .ok { s with next := some new.start } := by
  have bare := @step_hunk_append s file old new [] hc hn
  rwa [List.append_nil] at bare

/-- An added line is kept with its number. -/
theorem step_added {l : Text} {n : Nat} (h : Text.startsWith l "++ " = false)
    (hc : s.current = some file) (hn : s.next = some n) :
    s.step (addedLine l) = .ok { s with
      current := some { file with added := ⟨n, l⟩ :: file.added }
      next := some (n + 1) } := by
  have inner := isInner_addedLine_iff.mpr h
  have binary : Text.startsWith (addedLine l) "Binary files " = false := rfl
  have hunk : Text.startsWith (addedLine l) "@@" = false := rfl
  unfold step
  rw [inner.commit, inner.file, inner.target, hc]
  simp only [Bool.false_eq_true, if_false, binary, hunk, hn]
  rfl

/-- A line without any mark is one that was there before. -/
theorem step_context {c : CodePoint} {t : Text} {n : Nat}
    (h : c ≠ 'c' ∧ c ≠ 'd' ∧ c ≠ '+' ∧ c ≠ '-' ∧ c ≠ 'B' ∧ c ≠ '@') (hc : s.current = some file)
    (hn : s.next = some n) : s.step (c :: t) = .ok { s with next := some (n + 1) } := by
  obtain ⟨h₁, h₂, h₃, h₄, h₅, h₆⟩ := h
  have inner : IsInner (c :: t) := isInner_cons ⟨h₁, h₂, h₃⟩ t
  have binary : Text.startsWith (c :: t) "Binary files " = false :=
    Text.startsWith_of_ne h₅.symm _ _
  have hunk : Text.startsWith (c :: t) "@@" = false := Text.startsWith_of_ne h₆.symm _ _
  unfold step
  rw [inner.commit, inner.file, inner.target, hc]
  simp only [Bool.false_eq_true, if_false, binary, hunk, hn, h₃, h₄]

/-- A removed line has no number in the new version. -/
theorem step_removed (t : Text) {n : Nat} (hc : s.current = some file) (hn : s.next = some n) :
    s.step (('-' : CodePoint) :: t) = .ok s := by
  have inner : IsInner (('-' : CodePoint) :: t) := isInner_cons (by decide) t
  have binary : Text.startsWith (('-' : CodePoint) :: t) "Binary files " = false := rfl
  have hunk : Text.startsWith (('-' : CodePoint) :: t) "@@" = false := rfl
  have added : ('-' : CodePoint) ≠ '+' := by decide
  unfold step
  rw [inner.commit, inner.file, inner.target, hc]
  simp only [Bool.false_eq_true, if_false, binary, hunk, hn, added, if_true]

/-! ### Lines in a row -/

theorem run_cons (s : State) (l : Text) (ls : List Text) :
    s.run (l :: ls) = (s.step l).bind fun s' => s'.run ls := by
  rw [run]
  cases s.step l <;> rfl

theorem run_append (s : State) (ls ls' : List Text) :
    s.run (ls ++ ls') = (s.run ls).bind fun s' => s'.run ls' := by
  induction ls generalizing s with
  | nil => rfl
  | cons l ls ih =>
    rw [List.cons_append, run_cons, run_cons]
    cases s.step l with
    | error e => rfl
    | ok s₁ => exact ih s₁

theorem run_cons_of_ok {s s' : State} {l : Text} (h : s.step l = .ok s') (ls : List Text) :
    s.run (l :: ls) = s'.run ls := by
  rw [run_cons, h]
  rfl

theorem run_append_of_ok {s s' : State} {ls : List Text} (h : s.run ls = .ok s')
    (ls' : List Text) : s.run (ls ++ ls') = s'.run ls' := by
  rw [run_append, h]
  rfl

theorem exists_of_run_cons {s s' : State} {l : Text} {ls : List Text}
    (h : s.run (l :: ls) = .ok s') : ∃ s₁, s.step l = .ok s₁ ∧ s₁.run ls = .ok s' := by
  rw [run_cons] at h
  exact exists_of_bind_eq_ok h

/-- Lines that each leave the reader where it is. -/
theorem run_of_forall {s : State} {ls : List Text} (h : ∀ l ∈ ls, s.step l = .ok s) :
    s.run ls = .ok s := by
  induction ls with
  | nil => rfl
  | cons l ls ih =>
    obtain ⟨hl, hls⟩ := List.forall_mem_cons.mp h
    rw [run_cons_of_ok hl, ih hls]

end State

theorem read_eq (t : Text) :
    read t = (State.initial.run (Text.lines t)).map fun s => s.flushed.reverse := by
  rw [read]
  cases State.initial.run (Text.lines t) <;> rfl

/-! ### Added lines in a row -/

/-- Lines with their numbers, from `n` on. -/
def numbered (n : Nat) (ls : List Text) : List AddedLine :=
  (ls.zipIdx n).map fun p => ⟨p.2, p.1⟩

theorem numbered_cons (n : Nat) (l : Text) (ls : List Text) :
    numbered n (l :: ls) = ⟨n, l⟩ :: numbered (n + 1) ls := rfl

/-- **Added lines are kept with their numbers.** -/
theorem State.run_added {s : State} {file : Section} {n : Nat} {ls : List Text}
    (h : ∀ l ∈ ls, Text.startsWith l "++ " = false) (hc : s.current = some file)
    (hn : s.next = some n) :
    s.run (ls.map addedLine) = .ok { s with
      current := some { file with added := (numbered n ls).reverse ++ file.added }
      next := some (n + ls.length) } := by
  induction ls generalizing s file n with
  | nil =>
    obtain ⟨done, commit, current, next⟩ := s
    obtain rfl : current = some file := hc
    obtain rfl : next = some n := hn
    rfl
  | cons l ls ih =>
    obtain ⟨hl, hls⟩ := List.forall_mem_cons.mp h
    -- the reader after the first line is in such a state again
    rw [List.map_cons, run_cons_of_ok (step_added hl hc hn), ih hls rfl rfl, numbered_cons,
      List.reverse_cons, List.append_assoc, List.length_cons, Nat.add_assoc, Nat.add_comm 1]
    rfl

end RepoScan.Diff
