import RepoScan.Proofs.Diff.Insertion

/-!
# Plain diffs

A plain diff shows files without the header lines of a log: the two names of each file, and its
hunks.  That a file is over shows only in the names of the next one.  But the reader puts a file
aside at the header of a commit or of a file alone.  At a new name it goes on with that, and forgets
what was added before.

* `Diff.PlainFile`, `Diff.plainText` : the files of a plain diff, and its text;
* `Diff.State.run_plainFiles` : after some files the reader knows the last one and none before it;
* `Diff.read_plainText` : **what is read of a plain diff is its last file**;
* `Diff.keepsFiles_iff` : so all files are kept exactly where there are not two of them.
-/

namespace RepoScan.Diff

/-! ### Files -/

/-- A file in a plain diff. -/
structure PlainFile where
  path : Path
  hunks : List Hunk

namespace PlainFile

variable (f : PlainFile)

/-- The two names of the file and its hunks. -/
def toLines : List Text :=
  ("--- a/" ++ f.path.toText) :: ("+++ b/" ++ f.path.toText) :: f.hunks.flatMap Hunk.toLines

/-- What is added to the file. -/
def contents : List Text := f.hunks.flatMap Hunk.contents

/-- The lines of the file can be told from others, and something is added to it. -/
structure IsPlain : Prop where
  path : IsPlainPath f.path
  hunks : ∀ h ∈ f.hunks, h.IsPlain
  added : f.contents ≠ []

instance : Decidable f.IsPlain :=
  decidable_of_iff (IsPlainPath f.path ∧ (∀ h ∈ f.hunks, h.IsPlain) ∧ f.contents ≠ [])
    ⟨fun ⟨path, hunks, added⟩ => ⟨path, hunks, added⟩,
      fun ⟨path, hunks, added⟩ => ⟨path, hunks, added⟩⟩

/-- The added lines of the file, numbered as the reader counts. -/
def added : List AddedLine := f.hunks.flatMap (Hunk.addedBy HunkLine.isCounted)

/-- The patch of the file. -/
def patch : Patch := ⟨f.path, f.added, none⟩

/-- The patch is one of the file, with all that is added to it. -/
def IsKeptAs (p : Patch) : Prop := p.path = f.path ∧ p.lines.map AddedLine.content = f.contents

theorem content_added : f.added.map AddedLine.content = f.contents :=
  content_flatMap_addedBy HunkLine.isCounted f.hunks

theorem isKeptAs_patch : f.IsKeptAs f.patch := ⟨rfl, f.content_added⟩

variable {f}

theorem IsPlain.isUnbroken (hf : f.IsPlain) : ∀ l ∈ f.toLines, Text.IsUnbroken l := by
  have name {mark : String} (hm : Text.IsUnbroken mark) : Text.IsUnbroken (mark ++ f.path.toText) :=
    isUnbroken_literal_append hm hf.path.unbroken
  exact List.forall_mem_cons.mpr ⟨name (by decide),
    List.forall_mem_cons.mpr ⟨name (by decide), isUnbroken_of_mem_hunks hf.hunks⟩⟩

end PlainFile

/-- The text of a plain diff. -/
def plainText (fs : List PlainFile) : Text := Text.ended (fs.flatMap PlainFile.toLines)

/-! ### Reading -/

namespace State

variable {s : State} {f : PlainFile}

theorem step_minus (s : State) (t : Text) : s.step (('-' : CodePoint) :: t) = .ok s := by
  cases hc : s.current with
  | none => exact step_outside (isInner_cons (by decide) t) hc
  | some file =>
    cases hn : s.next with
    | none =>
      have record : IsRecord (('-' : CodePoint) :: t) := ⟨isInner_cons (by decide) t, rfl, rfl⟩
      exact step_unnumbered record hc hn
    | some n => exact step_removed t hc hn

/-- **The reader at a file** of a plain diff goes on with that.  It forgets the file before it. -/
theorem run_plainFile (hf : f.IsPlain) : ∃ next,
    s.run f.toLines = .ok (reading s.done s.commit f.path f.added next) := by
  have old : s.step ("--- a/" ++ f.path.toText) = .ok s := step_minus s _
  have name : Text.strip (("b/" : Text) ++ f.path.toText) = ("b/" : Text) ++ f.path.toText := by
    have bare := Text.strip_append_spaces (fun c hc => by cases hc; decide) (last_keptName hf.path)
      (List.forall_mem_nil _)
    rwa [List.append_nil] at bare
  have new : s.step ("+++ b/" ++ f.path.toText) = .ok (reading s.done s.commit f.path [] none) :=
    step_name hf.path.relative name
  obtain ⟨next, hunks⟩ := run_hunks hf.hunks none
  refine ⟨next, ?_⟩
  rw [PlainFile.toLines, run_cons_of_ok old, run_cons_of_ok new, hunks]
  rfl

/-- **After some files** the reader knows the last one.  What was complete before them is all else
that it knows. -/
theorem run_plainFiles {fs : List PlainFile} (h : ∀ g ∈ fs ++ [f], g.IsPlain) : ∃ next,
    s.run ((fs ++ [f]).flatMap PlainFile.toLines) =
      .ok (reading s.done s.commit f.path f.added next) := by
  induction fs generalizing s with
  | nil =>
    rw [List.nil_append, List.flatMap_singleton]
    exact run_plainFile (h f (List.mem_singleton_self f))
  | cons g fs ih =>
    obtain ⟨hg, hrest⟩ := List.forall_mem_cons.mp h
    obtain ⟨next, first⟩ := run_plainFile (s := s) hg
    rw [List.cons_append, List.flatMap_cons, run_append_of_ok first]
    exact ih hrest

end State

/-! ### Plain diffs -/

/-- **What is read of a plain diff** is its last file. -/
theorem read_plainText {fs : List PlainFile} (h : ∀ f ∈ fs, f.IsPlain) :
    read (plainText fs) = .ok (fs.getLast?.map PlainFile.patch).toList := by
  have unbroken : ∀ l ∈ fs.flatMap PlainFile.toLines, Text.IsUnbroken l := by
    intro l hl
    obtain ⟨f, hf, hl⟩ := List.mem_flatMap.mp hl
    exact (h f hf).isUnbroken l hl
  rcases List.eq_nil_or_concat' fs with rfl | ⟨front, f, rfl⟩
  · exact read_ended unbroken (s := State.initial) rfl
  · obtain ⟨next, hrun⟩ := State.run_plainFiles (s := State.initial) h
    have added : f.added ≠ [] := by
      intro none
      apply (h f (List.mem_append_right _ (List.mem_singleton_self f))).added
      rw [← f.content_added, none, List.map_nil]
    rw [plainText, read_ended unbroken hrun, flushed_reading, List.isEmpty_eq_false_iff.mpr added,
      List.getLast?_concat]
    rfl

/-- The diff is read, with a patch for each of its files. -/
def KeepsFiles (fs : List PlainFile) : Prop :=
  ∃ ps, read (plainText fs) = .ok ps ∧ List.Forall₂ PlainFile.IsKeptAs fs ps

/-- **All files of a plain diff are kept exactly where there are not two of them.** -/
theorem keepsFiles_iff {fs : List PlainFile} (h : ∀ f ∈ fs, f.IsPlain) :
    KeepsFiles fs ↔ fs.length ≤ 1 := by
  have last := read_plainText h
  constructor
  · rintro ⟨ps, hread, kept⟩
    cases last.symm.trans hread
    rw [kept.length_eq]
    exact Option.length_toList_le
  · intro few
    refine ⟨_, last, ?_⟩
    match fs, few with
    | [], _ => exact .nil
    | [f], _ => exact .cons f.isKeptAs_patch .nil

/-- A file with two hunks, and a line with the mark of a removed one in each. -/
def plainKeys : PlainFile where
  path := ⟨[], ["my keys.py"]⟩
  hunks := [⟨⟨1, none⟩, ⟨1, none⟩, [], [.removed "-- old", .added "key"]⟩,
    ⟨⟨7, some 2⟩, ⟨7, some 3⟩, " main", [.context "", .added "++token", .context "x"]⟩]

/-- A file that is shown alone is kept. -/
theorem keepsFiles_plainKeys :
    plainText [plainKeys] = Text.ended ["--- a/my keys.py", "+++ b/my keys.py", "@@ -1 +1 @@",
      "--- old", "+key", "@@ -7,2 +7,3 @@ main", " ", "+++token", " x"] ∧
    (∀ f ∈ [plainKeys], f.IsPlain) ∧ KeepsFiles [plainKeys] := by
  have plain : ∀ f ∈ [plainKeys], f.IsPlain := by decide +kernel
  exact ⟨by decide +kernel, plain, (keepsFiles_iff plain).mpr Nat.le.refl⟩

/-- Of two files the first one is lost. -/
theorem not_keepsFiles_twoFiles :
    let keys : PlainFile := ⟨⟨[], ["keys.py"]⟩, [⟨⟨0, some 0⟩, ⟨1, none⟩, [], [.added "key"]⟩]⟩
    let app : PlainFile := ⟨⟨[], ["app.py"]⟩, [⟨⟨0, some 0⟩, ⟨1, none⟩, [], [.added "token"]⟩]⟩
    plainText [keys, app] = Text.ended ["--- a/keys.py", "+++ b/keys.py", "@@ -0,0 +1 @@", "+key",
      "--- a/app.py", "+++ b/app.py", "@@ -0,0 +1 @@", "+token"] ∧
    (∀ f ∈ [keys, app], f.IsPlain) ∧
      read (plainText [keys, app]) = .ok [⟨⟨[], ["app.py"]⟩, [⟨1, "token"⟩], none⟩] ∧
      ¬ KeepsFiles [keys, app] := by
  intro keys app
  have lost : read (plainText [keys, app]) = .ok [⟨⟨[], ["app.py"]⟩, [⟨1, "token"⟩], none⟩] := by
    decide +kernel
  refine ⟨by decide +kernel, by decide +kernel, lost, ?_⟩
  rintro ⟨ps, hread, kept⟩
  cases lost.symm.trans hread
  cases kept.length_eq

end RepoScan.Diff
