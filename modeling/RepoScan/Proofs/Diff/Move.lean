import RepoScan.Proofs.Diff

/-!
# What a line does to the reader

The reader of diffs has a move for each sort of line.  What holds of a diff whatever its text is
comes from the moves one by one.

* `Diff.Move`, `Diff.move_of_step` : the moves of the reader, and it makes no other;
* `Diff.State.commit_of_run` : the commit is that of the last header of one;
* `Diff.read_reports` : **what is reported stands in the diff**, on a line that is marked as added
  and is no header.
-/

namespace RepoScan.Diff

/-- The line is no header. -/
structure IsRecord (line : Text) : Prop extends IsInner line where
  binary : Text.startsWith line "Binary files " = false
  hunk : Text.startsWith line "@@" = false

instance (line : Text) : Decidable (IsRecord line) :=
  decidable_of_iff (IsInner line ∧ Text.startsWith line "Binary files " = false ∧
      Text.startsWith line "@@" = false)
    ⟨fun ⟨inner, binary, hunk⟩ => ⟨inner, binary, hunk⟩, fun h => ⟨h.toIsInner, h.binary, h.hunk⟩⟩

theorem State.step_unnumbered {s : State} {line : Text} {file : Section} (record : IsRecord line)
    (hc : s.current = some file) (hn : s.next = none) : s.step line = .ok s := by
  simp only [step, record.commit, record.file, record.target, record.binary, record.hunk, hc, hn,
    Bool.false_eq_true, if_false]

/-- What the reader is after a line. -/
inductive Move (s : State) (line : Text) : State → Prop
  /-- A commit begins. -/
  | commit (rest : Text) : line = "commit " ++ rest →
      Move s line { s.close with commit := commitOf rest }
  /-- A file begins. -/
  | file (rest : Text) : line = "diff --git " ++ rest → Move s line s.close
  /-- The file is gone in the new version. -/
  | gone (rest : Text) : line = "+++ " ++ rest → Text.strip rest = "/dev/null" →
      Move s line { s with current := none }
  /-- The name of the file in the new version. -/
  | target (rest : Text) : line = "+++ " ++ rest → Text.strip rest ≠ "/dev/null" →
      Move s line { s with
        current := some ⟨Path.ofText (State.targetOf rest), s.commit, []⟩, next := none }
  /-- There is no file yet. -/
  | outside : IsInner line → s.current = none → Move s line s
  /-- The file is no text. -/
  | binary (file : Section) : IsInner line → s.current = some file →
      Text.startsWith line "Binary files " = true →
      Move s line { s with current := none, next := none }
  /-- The header of a hunk that cannot be read. -/
  | unread (file : Section) : IsInner line → s.current = some file →
      Text.startsWith line "@@" = true → hunkStart? line = none →
      Move s line { s with next := none }
  /-- The header of a hunk. -/
  | hunk (file : Section) (ds : Text) (n : Nat) : IsInner line → s.current = some file →
      Text.startsWith line "@@" = true → hunkStart? line = some ds → numberOf ds = .ok n →
      Move s line { s with next := some n }
  /-- There is no hunk yet. -/
  | unnumbered (file : Section) : IsRecord line → s.current = some file → s.next = none →
      Move s line s
  /-- A line that was added. -/
  | added (file : Section) (n : Nat) (content : Text) : IsRecord line →
      s.current = some file → s.next = some n → line = addedLine content →
      Move s line { s with
        current := some { file with added := ⟨n, content⟩ :: file.added }, next := some (n + 1) }
  /-- A line that was removed. -/
  | removed (file : Section) (n : Nat) (content : Text) : IsRecord line →
      s.current = some file → s.next = some n → line = ('-' : CodePoint) :: content →
      Move s line s
  /-- Any other line is one that was there before. -/
  | context (file : Section) (n : Nat) : IsRecord line → s.current = some file →
      s.next = some n → (∀ c ∈ line.head?, c ≠ '+' ∧ c ≠ '-') →
      Move s line { s with next := some (n + 1) }

theorem move_of_step_record {s s' : State} {line : Text} {file : Section} {n : Nat}
    (h : s.step line = .ok s') (record : IsRecord line) (hc : s.current = some file)
    (hn : s.next = some n) : Move s line s' := by
  obtain ⟨done, commit, current, next⟩ := s
  obtain rfl : current = some file := hc
  obtain rfl : next = some n := hn
  simp only [State.step, record.commit, record.file, record.target, record.binary, record.hunk,
    Bool.false_eq_true, if_false] at h
  cases line with
  | nil =>
    cases h
    exact .context file n record rfl rfl nofun
  | cons c content =>
    by_cases hadded : c = '+'
    · subst hadded
      cases h
      exact .added file n content record rfl rfl rfl
    · by_cases hremoved : c = '-'
      · subst hremoved
        cases h
        exact .removed file n content record rfl rfl rfl
      · simp only [hadded, hremoved, if_false] at h
        cases h
        refine .context file n record rfl rfl fun d hd => ?_
        cases hd
        exact ⟨hadded, hremoved⟩

theorem move_of_step_inner {s s' : State} {line : Text} {file : Section}
    (h : s.step line = .ok s') (inner : IsInner line) (hc : s.current = some file) :
    Move s line s' := by
  have stepped := h
  obtain ⟨done, commit, current, next⟩ := s
  obtain rfl : current = some file := hc
  simp only [State.step, inner.commit, inner.file, inner.target, Bool.false_eq_true, if_false] at h
  cases hbinary : Text.startsWith line "Binary files " with
  | true =>
    simp only [hbinary, if_true] at h
    cases h
    exact .binary file inner rfl hbinary
  | false =>
    cases hhunk : Text.startsWith line "@@" with
    | true =>
      simp only [hbinary, hhunk, Bool.false_eq_true, if_false, if_true] at h
      cases hstart : hunkStart? line with
      | none =>
        simp only [hstart] at h
        cases h
        exact .unread file inner rfl hhunk hstart
      | some ds =>
        cases hnumber : numberOf ds with
        | error e =>
          simp only [hstart, hnumber] at h
          cases h
        | ok n =>
          simp only [hstart, hnumber] at h
          cases h
          exact .hunk file ds n inner rfl hhunk hstart hnumber
    | false =>
      have record : IsRecord line := ⟨inner, hbinary, hhunk⟩
      cases next with
      | none =>
        simp only [hbinary, hhunk, Bool.false_eq_true, if_false] at h
        cases h
        exact .unnumbered file record rfl rfl
      | some n => exact move_of_step_record stepped record rfl rfl

/-- **The reader makes no other moves.** -/
theorem move_of_step {s s' : State} {line : Text} (h : s.step line = .ok s') : Move s line s' := by
  have stepped := h
  unfold State.step at h
  cases hcommit : Text.after? "commit " line with
  | some rest =>
    simp only [hcommit] at h
    cases h
    exact .commit rest (Text.after?_eq_some_iff.mp hcommit)
  | none =>
    cases hfile : Text.startsWith line "diff --git " with
    | true =>
      simp only [hcommit, hfile, if_true] at h
      cases h
      obtain ⟨rest, hrest⟩ := Text.startsWith_iff.mp hfile
      exact .file rest hrest
    | false =>
      cases htarget : Text.after? "+++ " line with
      | some rest =>
        have hline := Text.after?_eq_some_iff.mp htarget
        simp only [hcommit, hfile, htarget, Bool.false_eq_true, if_false] at h
        split at h
        · rename_i gone
          cases h
          exact .gone rest hline gone
        · rename_i there
          cases h
          exact .target rest hline there
      | none =>
        have inner : IsInner line := ⟨hcommit, hfile, htarget⟩
        cases hcurrent : s.current with
        | none =>
          cases (State.step_outside inner hcurrent).symm.trans stepped
          exact .outside inner hcurrent
        | some file => exact move_of_step_inner stepped inner hcurrent

/-! ### The commit -/

namespace State

/-- Only the header of a commit changes it. -/
theorem commit_of_step {s s' : State} {line : Text} (h : s.step line = .ok s') :
    s'.commit = (Text.after? "commit " line).elim s.commit commitOf := by
  cases move_of_step h with
  | commit rest hl => rw [hl, Text.after?_append]; rfl
  | file rest hl | gone rest hl | target rest hl => rw [hl]; rfl
  | outside inner | binary _ inner | unread _ inner | hunk _ _ _ inner => rw [inner.commit]; rfl
  | unnumbered _ record | added _ _ _ record | removed _ _ _ record | context _ _ record =>
    rw [record.commit]
    rfl

/-- What follows the mark in the last header of a commit. -/
def lastCommit? (ls : List Text) : Option Text := (ls.filterMap (Text.after? "commit ")).getLast?

theorem lastCommit?_cons (l : Text) (ls : List Text) :
    lastCommit? (l :: ls) = (lastCommit? ls).or (Text.after? "commit " l) := by
  rw [lastCommit?, lastCommit?, List.filterMap_cons]
  cases Text.after? "commit " l with
  | none => rw [Option.or_none]
  | some rest =>
    rw [List.getLast?_cons]
    cases (ls.filterMap (Text.after? "commit ")).getLast? <;> rfl

/-- **The commit is that of the last header of one.** -/
theorem commit_of_run {s s' : State} {ls : List Text} (h : s.run ls = .ok s') :
    s'.commit = (lastCommit? ls).elim s.commit commitOf := by
  induction ls generalizing s with
  | nil =>
    cases h
    rfl
  | cons l ls ih =>
    obtain ⟨s₁, hstep, hrun⟩ := exists_of_run_cons h
    rw [ih hrun, commit_of_step hstep, lastCommit?_cons]
    cases lastCommit? ls <;> rfl

end State

/-! ### What is reported -/

/-- The added lines in some patches. -/
def reported (ps : List Patch) : List AddedLine := ps.flatMap Patch.lines

namespace State

/-- The reader knows the lines of the file that it reads and those of the patches before. -/
theorem mem_reported_flushed {s : State} {a : AddedLine} :
    a ∈ reported s.flushed ↔
      (∃ file, s.current = some file ∧ a ∈ file.added) ∨ a ∈ reported s.done := by
  obtain ⟨done, commit, current, next⟩ := s
  cases current with
  | none => exact ⟨.inr, fun h => h.elim nofun id⟩
  | some file =>
    have current : (∃ f, some file = some f ∧ a ∈ f.added) ↔ a ∈ file.added :=
      ⟨fun ⟨_, hf, ha⟩ => Option.some.inj hf ▸ ha, fun ha => ⟨file, rfl, ha⟩⟩
    rw [current, flushed, Option.bind_some, Section.patch?]
    cases hadded : file.added with
    | nil => exact ⟨.inr, fun h => h.elim nofun id⟩
    | cons b bs =>
      show a ∈ (b :: bs).reverse ++ reported done ↔ _
      rw [List.mem_append, List.mem_reverse]

/-- At a line the reader comes to know at most that line. -/
theorem reported_of_step {s s' : State} {line : Text} (h : s.step line = .ok s') {a : AddedLine}
    (ha : a ∈ reported s'.flushed) :
    a ∈ reported s.flushed ∨ IsRecord line ∧ line = addedLine a.content := by
  have before (hd : a ∈ reported s.done) : a ∈ reported s.flushed :=
    mem_reported_flushed.mpr (.inr hd)
  cases move_of_step h with
  | commit | file | outside | unnumbered | removed => exact .inl ha
  | gone | binary => exact .inl (before ha)
  | target =>
    rcases mem_reported_flushed.mp ha with ⟨_, hf, ha⟩ | ha
    · cases hf
      cases ha
    · exact .inl (before ha)
  | unread | hunk | context => exact .inl (mem_reported_flushed.mpr (mem_reported_flushed.mp ha))
  | added file n content record hc hn hl =>
    rcases mem_reported_flushed.mp ha with ⟨_, hf, ha⟩ | ha
    · cases hf
      rcases List.mem_cons.mp ha with rfl | ha
      · exact .inr ⟨record, hl⟩
      · exact .inl (mem_reported_flushed.mpr (.inl ⟨file, hc, ha⟩))
    · exact .inl (before ha)

theorem reported_of_run {s s' : State} {ls : List Text} (h : s.run ls = .ok s') {a : AddedLine}
    (ha : a ∈ reported s'.flushed) :
    a ∈ reported s.flushed ∨ addedLine a.content ∈ ls ∧ IsRecord (addedLine a.content) := by
  induction ls generalizing s with
  | nil =>
    cases h
    exact .inl ha
  | cons l ls ih =>
    obtain ⟨s₁, hstep, hrun⟩ := exists_of_run_cons h
    rcases ih hrun with ha | ⟨hmem, record⟩
    · rcases reported_of_step hstep ha with ha | ⟨record, rfl⟩
      · exact .inl ha
      · exact .inr ⟨List.mem_cons_self, record⟩
    · exact .inr ⟨List.mem_cons_of_mem l hmem, record⟩

end State

/-- **What is reported stands in the diff**, on a line that is marked as added and no header. -/
theorem read_reports {t : Text} {ps : List Patch} (h : read t = .ok ps) {a : AddedLine}
    (ha : a ∈ reported ps) :
    addedLine a.content ∈ Text.lines t ∧ IsRecord (addedLine a.content) := by
  rw [read_eq] at h
  obtain ⟨s, hrun, rfl⟩ := exists_of_map_eq_ok h
  have flushed : a ∈ reported s.flushed := by
    obtain ⟨p, hp, ha⟩ := List.mem_flatMap.mp ha
    exact List.mem_flatMap.mpr ⟨p, List.mem_reverse.mp hp, ha⟩
  exact (State.reported_of_run hrun flushed).elim nofun id

end RepoScan.Diff
