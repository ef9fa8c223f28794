import Mathlib.Data.List.Perm.Subperm
import RepoScan.Proofs.Diff.Boundary
import RepoScan.Proofs.Diff.Move
import RepoScan.Proofs.Diff.RoundTrip

/-!
# One more added line

A line that is put into a hunk of a log as an added one should be reported, and all that was
reported of its file before should still be.  That is so unless the line begins with `++ `: with its
mark such a line is taken for the name of a file, and the reader goes on to that file.

* `Diff.Place`, `Place.text` : a place within a hunk, and the log with lines put there;
* `Diff.Place.read_text` : what is read of the log;
* `Diff.contentsOf` : the contents that are reported of a file in a commit;
* `Diff.Place.keeps_iff` : **no line hides another one**, nor is it hidden itself, exactly where it
  does not begin with `++ `.
-/

namespace RepoScan.Diff

/-! ### Places -/

/-- A place within a hunk of a log. -/
structure Place where
  /-- The log up to the file. -/
  before : Text
  names : Text
  attributes : List Attribute
  old : Text
  path : Path
  /-- The hunks before that of the place. -/
  front : List Hunk
  /-- The hunk of the place, with its lines up to there. -/
  hunk : Hunk
  /-- The lines of the hunk from the place on. -/
  below : List HunkLine
  /-- The hunks after that of the place. -/
  back : List Hunk
  /-- The log after the file. -/
  after : Text

namespace Place

variable (pl : Place)

/-- The hunks of the file with more lines in the place. -/
def hunks (more : List HunkLine) : List Hunk :=
  pl.front ++ { pl.hunk with lines := pl.hunk.lines ++ (more ++ pl.below) } :: pl.back

/-- The file with more lines in the place. -/
def file (more : List HunkLine) : FileDiff :=
  ⟨pl.names, pl.attributes, .kept pl.old pl.path (pl.hunks more)⟩

/-- The log with more lines in the place. -/
def text (more : List HunkLine) : Text :=
  pl.before ++ Text.ended (pl.file more).toLines ++ pl.after

/-- The commit that the file belongs to. -/
def commit : Option Text := (State.lastCommit? (Text.lines pl.before)).bind commitOf

/-- The parts of the log around the file are whole, and the lines of the file can be told from
others. -/
structure IsPlain : Prop where
  before : Text.IsEnded pl.before
  file : (pl.file []).IsPlain
  after : IsHeaded pl.after

instance : Decidable pl.IsPlain :=
  decidable_of_iff (Text.IsEnded pl.before ∧ (pl.file []).IsPlain ∧ IsHeaded pl.after)
    ⟨fun ⟨before, file, after⟩ => ⟨before, file, after⟩,
      fun ⟨before, file, after⟩ => ⟨before, file, after⟩⟩

variable {pl}

theorem IsPlain.file_more (hp : pl.IsPlain) {more : List HunkLine} (hm : ∀ l ∈ more, l.IsPlain) :
    (pl.file more).IsPlain := by
  obtain ⟨names, attributes, old, path, hunks⟩ := hp.file
  obtain ⟨front, rest⟩ := List.forall_mem_append.mp hunks
  obtain ⟨⟨start, heading, lines⟩, back⟩ := List.forall_mem_cons.mp rest
  obtain ⟨above, below⟩ := List.forall_mem_append.mp lines
  have lines' := List.forall_mem_append.mpr ⟨above, List.forall_mem_append.mpr ⟨hm, below⟩⟩
  exact ⟨names, attributes, old, path, List.forall_mem_append.mpr
    ⟨front, List.forall_mem_cons.mpr ⟨⟨start, heading, lines'⟩, back⟩⟩⟩

/-- What is read of the log: the patches before the file, that of the file, and those after it. -/
theorem read_text (hp : pl.IsPlain) {more : List HunkLine} (hm : ∀ l ∈ more, l.IsPlain) {s : State}
    (before : State.initial.run (Text.lines pl.before) = .ok s) :
    read (pl.text more) = ((State.fresh s.commit).run (Text.lines pl.after)).map fun s' =>
      s.flushed.reverse ++ (((pl.file more).change.patch? s.commit
        (Hunk.addedBy HunkLine.isCounted)).toList ++ s'.flushed.reverse) := by
  have plain := hp.file_more hm
  obtain ⟨s₁, hrun, gains⟩ := State.run_fileDiff (s := s) plain
  have upto : State.initial.run (Text.lines (pl.before ++ Text.ended (pl.file more).toLines)) =
      .ok s₁ := by
    rw [Text.lines_append hp.before, Text.lines_ended plain.isUnbroken,
      State.run_append_of_ok before, hrun]
  rw [text, read_append (hp.before.append (Text.isEnded_ended _)) hp.after, upto]
  show ((State.fresh s₁.commit).run (Text.lines pl.after)).map _ = _
  rw [gains.commit, gains.flushed, List.reverse_append, List.reverse_reverse]
  simp only [List.append_assoc]

end Place

/-! ### Contents -/

/-- What is reported of a file in a commit. -/
def contentsOf (path : Path) (commit : Option Text) (ps : List Patch) : List Text :=
  (ps.filter fun p => p.path = path ∧ p.commit = commit).flatMap fun p =>
    p.lines.map AddedLine.content

theorem contentsOf_append (path : Path) (commit : Option Text) (ps ps' : List Patch) :
    contentsOf path commit (ps ++ ps') =
      contentsOf path commit ps ++ contentsOf path commit ps' := by
  rw [contentsOf, List.filter_append, List.flatMap_append]
  rfl

theorem exists_of_mem_contentsOf {path : Path} {commit : Option Text} {ps : List Patch} {t : Text}
    (h : t ∈ contentsOf path commit ps) : ∃ a ∈ reported ps, a.content = t := by
  obtain ⟨p, hp, h⟩ := List.mem_flatMap.mp h
  obtain ⟨a, ha, rfl⟩ := List.mem_map.mp h
  exact ⟨a, List.mem_flatMap.mpr ⟨p, List.mem_of_mem_filter hp, ha⟩, rfl⟩

/-- The contents of the added lines of a hunk. -/
def Hunk.contents (h : Hunk) : List Text := h.lines.filterMap HunkLine.added?

theorem Hunk.content_addedBy (counts : HunkLine → Bool) (h : Hunk) :
    (h.addedBy counts).map AddedLine.content = h.contents := by
  have places : h.lines.filterMap HunkLine.added? =
      h.lines.zipIdx.filterMap fun p => p.1.added? := by
    conv_lhs => rw [← List.zipIdx_map_fst 0 h.lines, List.filterMap_map]
    rfl
  rw [addedBy, addedFrom, contents, List.map_filterMap, places]
  refine List.filterMap_congr fun p _ => ?_
  cases p.1.added? <;> rfl

theorem content_flatMap_addedBy (counts : HunkLine → Bool) (hs : List Hunk) :
    (hs.flatMap (Hunk.addedBy counts)).map AddedLine.content = hs.flatMap Hunk.contents := by
  rw [List.map_flatMap]
  exact List.flatMap_congr fun h _ => h.content_addedBy counts

theorem contentsOf_patch (counts : HunkLine → Bool) (commit : Option Text) (old : Text)
    (path : Path) (hs : List Hunk) :
    contentsOf path commit
      ((Change.kept old path hs).patch? commit (Hunk.addedBy counts)).toList =
        hs.flatMap Hunk.contents := by
  rw [← content_flatMap_addedBy counts, Change.patch?]
  cases hs.flatMap (Hunk.addedBy counts) with
  | nil => rfl
  | cons a as =>
    show contentsOf path commit [⟨path, a :: as, commit⟩] = _
    simp only [contentsOf, List.filter_singleton, and_self, decide_true, cond_true,
      List.flatMap_singleton]

namespace Place

/-- Whenever the log is read, it is read with the further added line as well; and then all that was
reported of the file is reported still, and the further line. -/
def Keeps (pl : Place) (t : Text) : Prop := ∀ ps, read (pl.text []) = .ok ps →
  ∃ ps', read (pl.text [.added t]) = .ok ps' ∧
    (t :: contentsOf pl.path pl.commit ps).Subperm (contentsOf pl.path pl.commit ps')

theorem perm_contents (pl : Place) (t : Text) :
    ((pl.hunks [.added t]).flatMap Hunk.contents).Perm
      (t :: (pl.hunks []).flatMap Hunk.contents) := by
  have added : HunkLine.added? (.added t) = some t := rfl
  simp only [hunks, List.flatMap_append, List.flatMap_cons, Hunk.contents, List.filterMap_append,
    List.filterMap_cons, added, List.append_assoc, List.nil_append,
    List.cons_append]
  rw [← List.append_assoc, ← List.append_assoc]
  exact List.perm_middle

variable {pl : Place}

theorem commit_eq {s : State} (before : State.initial.run (Text.lines pl.before) = .ok s) :
    s.commit = pl.commit := by
  rw [State.commit_of_run before, commit]
  cases State.lastCommit? (Text.lines pl.before) <;> rfl

/-- A line that is not taken for the name of a file hides no other one. -/
theorem keeps_of_not_startsWith (hp : pl.IsPlain) {t : Text} (ht : Text.IsUnbroken t)
    (h : Text.startsWith t "++ " = false) : pl.Keeps t := by
  intro ps hps
  have line : ∀ l ∈ [HunkLine.added t], l.IsPlain := List.forall_mem_singleton.mpr ⟨ht, h⟩
  have parts := hps
  rw [text, read_eq, List.append_assoc, Text.lines_append hp.before, State.run_append] at parts
  obtain ⟨s', hrun, -⟩ := exists_of_map_eq_ok parts
  obtain ⟨s, before, -⟩ := exists_of_bind_eq_ok hrun
  rw [read_text hp (List.forall_mem_nil _) before] at hps
  obtain ⟨s'', after, rfl⟩ := exists_of_map_eq_ok hps
  refine ⟨_, (read_text hp line before).trans (congrArg (Except.map _) after), ?_⟩
  -- only the patch of the file differs
  rw [commit_eq before]
  simp only [contentsOf_append, file, contentsOf_patch]
  exact (List.perm_middle.symm.trans
    (((perm_contents pl t).symm.append_right _).append_left _)).subperm

/-- **No line hides another one, exactly where it does not look like the name of a file.**  The
content of a line that begins with `++ ` is never reported. -/
theorem keeps_iff (hp : pl.IsPlain) {t : Text} (ht : Text.IsUnbroken t) {ps : List Patch}
    (hps : read (pl.text []) = .ok ps) : pl.Keeps t ↔ Text.startsWith t "++ " = false := by
  refine ⟨fun keeps => ?_, keeps_of_not_startsWith hp ht⟩
  obtain ⟨ps', hread, hsub⟩ := keeps ps hps
  obtain ⟨a, ha, rfl⟩ := exists_of_mem_contentsOf (hsub.subset List.mem_cons_self)
  exact isInner_addedLine_iff.mp (read_reports hread ha).2.toIsInner

/-- The place between the two lines of a file that a commit adds. -/
def amongKeys : Place where
  before := "commit 1f0c\n\n"
  names := "a/keys.py b/keys.py"
  attributes := [⟨.newFileMode, "100644"⟩, ⟨.index, "0000000..9a2b"⟩]
  old := "/dev/null"
  path := ⟨[], ["keys.py"]⟩
  front := []
  hunk := ⟨⟨0, some 0⟩, ⟨1, some 3⟩, [], [.added "key"]⟩
  below := [.added "token"]
  back := []
  after := []

/-- Without a blank behind the plus signs the line does no harm. -/
theorem keeps_plusSigns : amongKeys.IsPlain ∧ Text.IsUnbroken "++x" ∧
    read (amongKeys.text []) =
      .ok [⟨⟨[], ["keys.py"]⟩, [⟨1, "key"⟩, ⟨2, "token"⟩], some "1f0c"⟩] ∧
    amongKeys.Keeps "++x" := by
  have plain : amongKeys.IsPlain := by decide +kernel
  have unbroken : Text.IsUnbroken "++x" := by decide
  have before : read (amongKeys.text []) =
      .ok [⟨⟨[], ["keys.py"]⟩, [⟨1, "key"⟩, ⟨2, "token"⟩], some "1f0c"⟩] := by decide +kernel
  exact ⟨plain, unbroken, before, (keeps_iff plain unbroken before).mpr rfl⟩

/-- With a blank behind them both lines of the file are lost. -/
theorem not_keeps_plusSigns_blank : amongKeys.IsPlain ∧ Text.IsUnbroken "++ x" ∧
    read (amongKeys.text []) =
      .ok [⟨⟨[], ["keys.py"]⟩, [⟨1, "key"⟩, ⟨2, "token"⟩], some "1f0c"⟩] ∧
    read (amongKeys.text [.added "++ x"]) = .ok [] ∧ ¬ amongKeys.Keeps "++ x" := by
  have before : read (amongKeys.text []) =
      .ok [⟨⟨[], ["keys.py"]⟩, [⟨1, "key"⟩, ⟨2, "token"⟩], some "1f0c"⟩] := by decide +kernel
  have lost : read (amongKeys.text [.added "++ x"]) = .ok [] := by decide +kernel
  refine ⟨by decide +kernel, by decide, before, lost, fun keeps => ?_⟩
  obtain ⟨ps', hread, hsub⟩ := keeps _ before
  cases lost.symm.trans hread
  exact List.cons_ne_nil _ _ (List.subperm_nil.mp hsub)

end Place

end RepoScan.Diff
