import Mathlib.Data.List.Basic
import Mathlib.Data.List.Induction
import RepoScan.Proofs.Diff.Log

/-!
# Reading logs

The reader of diffs goes through a log part by part, and of each part it gains the lines that are
added there.

* `Diff.run_hunkLines`, `run_hunks` : the lines of a hunk, hunks in a row;
* `Diff.State.run_fileDiff`, `run_commit` : files and commits;
* `Diff.read_logText` : **the patches of a log are the lines that it adds**, each with the number
  that its place in the hunk gives it.

The remark that the last line of a file is not ended stands among the lines of a hunk.  The reader
counts it as a line, so the numbers are right only where there is none.
-/

namespace RepoScan.Diff

/-! ### Hunks -/

theorem addedFrom_concat (counts : HunkLine → Bool) (n : Nat) (ls : List HunkLine)
    (l : HunkLine) : addedFrom counts n (ls ++ [l]) =
      addedFrom counts n ls ++
        (l.added?.map fun t => ⟨n + ls.countP counts, t⟩ : Option AddedLine).toList := by
  -- the places of the lines before the last one are the same
  have front : (ls.zipIdx).filterMap (fun p =>
      p.1.added?.map fun t => (⟨n + ((ls ++ [l]).take p.2).countP counts, t⟩ : AddedLine)) =
      addedFrom counts n ls := by
    refine List.filterMap_congr fun p hp => ?_
    have place : p.2 ≤ ls.length := by
      have := List.snd_lt_of_mem_zipIdx hp
      omega
    rw [List.take_append_of_le_length place]
  rw [addedFrom, List.zipIdx_append, List.filterMap_append, front, List.zipIdx_singleton,
    List.filterMap_cons, List.filterMap_nil, Nat.zero_add, List.take_left]
  cases l.added? <;> rfl

theorem addedFrom_congr {counts counts' : HunkLine → Bool} {ls : List HunkLine}
    (h : ∀ l ∈ ls, counts l = counts' l) (n : Nat) :
    addedFrom counts n ls = addedFrom counts' n ls := by
  refine List.filterMap_congr fun p hp => ?_
  have same : (ls.take p.2).countP counts = (ls.take p.2).countP counts' :=
    List.countP_congr fun l hl => by rw [h l (List.mem_of_mem_take hl)]
  rw [same]

/-- The reader numbers the lines of a hunk rightly unless there is a remark among them. -/
theorem Hunk.IsUnremarked.addedBy_eq {h : Hunk} (hr : h.IsUnremarked) :
    h.addedBy HunkLine.isCounted = h.added := by
  refine addedFrom_congr (fun l hl => ?_) _
  cases l with
  | removed t => rfl
  | added t => rfl
  | context t => rfl
  | unended => exact absurd hl hr

theorem isInner_hunkLine {l : HunkLine} (h : l.IsPlain) : IsInner l.toText := by
  cases l with
  | removed t => exact isInner_cons (by decide) t
  | added t => exact isInner_addedLine_iff.mpr h.2
  | context t => exact isInner_cons (by decide) t
  | unended => exact ⟨rfl, rfl, rfl⟩

/-- The reader in a file: the patches that are complete, reversed, the commit, the file, the lines
that were added to it so far, and the number of the next line inside a hunk. -/
def reading (done : List Patch) (commit : Option Text) (path : Path) (added : List AddedLine)
    (next : Option Nat) : State := ⟨done, commit, some ⟨path, commit, added.reverse⟩, next⟩

section Reading

variable {done : List Patch} {commit : Option Text} {path : Path} {added : List AddedLine}

theorem step_hunkLine {l : HunkLine} (h : l.IsPlain) (n : Nat) :
    (reading done commit path added (some n)).step l.toText =
      .ok (reading done commit path (added ++ (l.added?.map (AddedLine.mk n)).toList)
        (some (n + if l.isCounted then 1 else 0))) := by
  have same (next : Option Nat) : reading done commit path (added ++ []) next =
      reading done commit path added next := by rw [List.append_nil]
  cases l with
  | removed t => exact (State.step_removed t rfl rfl).trans (congrArg Except.ok (same _).symm)
  | added t =>
    have kept : (added ++ [(⟨n, t⟩ : AddedLine)]).reverse = ⟨n, t⟩ :: added.reverse :=
      List.reverse_append
    show _ = Except.ok (reading done commit path (added ++ [⟨n, t⟩]) (some (n + 1)))
    rw [reading, reading, kept]
    exact State.step_added h.2 (s := reading done commit path added (some n)) rfl rfl
  | context t =>
    exact (State.step_context (by decide) rfl rfl).trans (congrArg Except.ok (same _).symm)
  | unended =>
    exact (State.step_context (by decide) rfl rfl).trans (congrArg Except.ok (same _).symm)

/-- The lines of a hunk: the added ones are kept, the numbers go on at each that is counted. -/
theorem run_hunkLines {ls : List HunkLine} (h : ∀ l ∈ ls, l.IsPlain) (n : Nat) :
    (reading done commit path added (some n)).run (ls.map HunkLine.toText) =
      .ok (reading done commit path (added ++ addedFrom HunkLine.isCounted n ls)
        (some (n + ls.countP HunkLine.isCounted))) := by
  -- induction from the last line on, since the numbers count the lines before
  induction ls using List.reverseRecOn with
  | nil =>
    rw [addedFrom, List.zipIdx_nil, List.filterMap_nil, List.append_nil]
    rfl
  | append_singleton ls l ih =>
    obtain ⟨hls, hl⟩ := List.forall_mem_append.mp h
    rw [List.map_append, State.run_append_of_ok (ih hls), List.map_singleton,
      State.run_cons_of_ok (step_hunkLine (hl l (List.mem_singleton_self l)) _), addedFrom_concat,
      List.append_assoc, List.countP_append, List.countP_singleton, Nat.add_assoc]
    rfl

/-- A hunk adds its lines to what is read of the file. -/
theorem run_hunk {h : Hunk} (hh : h.IsPlain) (next : Option Nat) :
    (reading done commit path added next).run h.toLines =
      .ok (reading done commit path (added ++ h.addedBy HunkLine.isCounted)
        (some (h.new.start + h.lines.countP HunkLine.isCounted))) := by
  have header : (reading done commit path added next).step (hunkHeader h.old h.new ++ h.heading) =
      .ok (reading done commit path added (some h.new.start)) :=
    State.step_hunk_append h.heading rfl hh.start
  rw [Hunk.toLines, State.run_cons_of_ok header, run_hunkLines hh.lines]
  rfl

/-- **Hunks in a row** add their lines one after the other. -/
theorem run_hunks {hs : List Hunk} (hh : ∀ h ∈ hs, h.IsPlain) (next : Option Nat) :
    ∃ next', (reading done commit path added next).run (hs.flatMap Hunk.toLines) =
      .ok (reading done commit path
        (added ++ hs.flatMap (Hunk.addedBy HunkLine.isCounted)) next') := by
  induction hs generalizing added next with
  | nil =>
    refine ⟨next, ?_⟩
    rw [List.flatMap_nil, List.flatMap_nil, List.append_nil]
    rfl
  | cons h hs ih =>
    obtain ⟨hfirst, hrest⟩ := List.forall_mem_cons.mp hh
    obtain ⟨next', hrun⟩ := ih hrest _
    refine ⟨next', ?_⟩
    rw [List.flatMap_cons, State.run_append_of_ok (run_hunk hfirst next), hrun, List.flatMap_cons,
      List.append_assoc]

theorem flushed_reading (next : Option Nat) :
    (reading done commit path added next).flushed =
      (if added.isEmpty then none else some ⟨path, added, commit⟩ : Option Patch).toList ++
        done := by
  rw [reading, State.flushed, Option.bind_some, Section.patch?, List.isEmpty_reverse,
    List.reverse_reverse]
  cases added <;> rfl

end Reading

theorem isInner_of_mem_hunks {hs : List Hunk} (hh : ∀ h ∈ hs, h.IsPlain) :
    ∀ l ∈ hs.flatMap Hunk.toLines, IsInner l := by
  intro line hline
  obtain ⟨h, hmem, hline⟩ := List.mem_flatMap.mp hline
  rcases List.mem_cons.mp hline with rfl | hline
  · exact isInner_hunkHeader h.old h.new h.heading
  · obtain ⟨l, hl, rfl⟩ := List.mem_map.mp hline
    exact isInner_hunkLine ((hh h hmem).lines l hl)

/-! ### Files -/

theorem isInner_attribute (a : Attribute) : IsInner a.toText := by
  obtain ⟨keyword, value⟩ := a
  cases keyword <;> exact ⟨rfl, rfl, rfl⟩

theorem strip_label {name : Text} (first : ∀ c ∈ name.head?, c.isSpace = false)
    (last : ∀ c ∈ name.getLast?, c.isSpace = false) : Text.strip (label name) = name := by
  unfold label
  split
  · exact Text.strip_append_spaces first last (by decide)
  · have bare : Text.strip (name ++ []) = name := Text.strip_append_spaces first last nofun
    rwa [List.append_nil] at bare

theorem last_keptName {p : Path} (hp : IsPlainPath p) :
    ∀ c ∈ (("b/" : Text) ++ p.toText).getLast?, c.isSpace = false := by
  obtain ⟨d, t, hd, -⟩ := hp.relative.head_toText
  intro c hc
  have tight := Text.last_of_strip_eq hp.tight
  rw [hd, List.getLast?_append_cons, ← hd] at hc
  exact tight c hc

namespace State

variable {s : State}

/-- The name of a file that is there, with white space around it perhaps: the mark of the new version
is taken off. -/
theorem step_name {p : Path} (hp : p.IsRelative) {rest : Text}
    (h : Text.strip rest = "b/" ++ p.toText) :
    s.step ("+++ " ++ rest) = .ok (reading s.done s.commit p [] none) := by
  have target : targetOf rest = p.toText := by
    rw [targetOf, h, Text.after?_append]
    rfl
  have there : Text.strip rest ≠ "/dev/null" := by
    rw [h]
    intro h
    cases h
  rw [step_target s there, target, Path.ofText_toText hp]
  rfl

theorem step_keptName {p : Path} (hp : IsPlainPath p) :
    s.step ("+++ " ++ label ("b/" ++ p.toText)) =
      .ok (reading s.done s.commit p [] none) :=
  step_name hp.relative (strip_label (fun c hc => by cases hc; decide) (last_keptName hp))

theorem run_outside (hc : s.current = none) {ls : List Text} (h : ∀ l ∈ ls, IsInner l) :
    s.run ls = .ok s := run_of_forall fun l hl => step_outside (h l hl) hc

theorem run_fileHeader (names : Text) (as : List Attribute) (ls : List Text) :
    s.run (("diff --git " ++ names) :: (as.map Attribute.toText ++ ls)) = s.close.run ls := by
  have inner : ∀ l ∈ as.map Attribute.toText, IsInner l := by
    intro l hl
    obtain ⟨a, -, rfl⟩ := List.mem_map.mp hl
    exact isInner_attribute a
  rw [run_cons_of_ok (step_file s names), run_append_of_ok (run_outside rfl inner)]

theorem run_oldName (hc : s.current = none) (old : Text) (ls : List Text) :
    s.run (("--- " ++ label old) :: ls) = s.run ls :=
  run_cons_of_ok (step_outside (isInner_cons (by decide) _) hc) ls

/-- What the reader gains in a part of a log: the patches of the part in front of those before. -/
structure Gains (s s' : State) (ps : List Patch) : Prop where
  commit : s'.commit = s.commit
  flushed : s'.flushed = ps.reverse ++ s.flushed

/-- **The reader at a file** gains the patch of the file. -/
theorem run_fileDiff {f : FileDiff} (hf : f.IsPlain) : ∃ s', s.run f.toLines = .ok s' ∧
    s.Gains s' (f.change.patch? s.commit (Hunk.addedBy HunkLine.isCounted)).toList := by
  obtain ⟨names, attributes, change⟩ := f
  have nothing : s.Gains s.close [] := ⟨rfl, rfl⟩
  rw [FileDiff.toLines, run_fileHeader]
  cases change with
  | binary names =>
    have inner : IsInner ("Binary files " ++ (names ++ " differ")) := isInner_cons (by decide) _
    exact ⟨s.close, run_outside rfl (List.forall_mem_singleton.mpr inner), nothing⟩
  | deleted old hunks =>
    obtain ⟨-, hh⟩ := hf.change
    refine ⟨s.close, ?_, nothing⟩
    cases hunks with
    | nil => rfl
    | cons h hs =>
      have gone : s.close.step ("+++ " ++ label "/dev/null") = .ok s.close := step_deleted s.close
      rw [Change.toLines, hunkLines, run_oldName rfl, run_cons_of_ok gone]
      exact run_outside rfl (isInner_of_mem_hunks hh)
  | kept old path hunks =>
    obtain ⟨-, hp, hh⟩ := hf.change
    cases hunks with
    | nil => exact ⟨s.close, rfl, nothing⟩
    | cons h hs =>
      have new : s.close.step ("+++ " ++ label ("b/" ++ path.toText)) =
          .ok (reading s.flushed s.commit path [] none) := step_keptName hp
      obtain ⟨next, hrun⟩ := run_hunks hh none
      refine ⟨reading s.flushed s.commit path
        ([] ++ (h :: hs).flatMap (Hunk.addedBy HunkLine.isCounted)) next, ?_, rfl, ?_⟩
      · rw [Change.toLines, hunkLines, run_oldName rfl, run_cons_of_ok new]
        exact hrun
      · rw [flushed_reading, List.nil_append, Change.patch?]
        cases (h :: hs).flatMap (Hunk.addedBy HunkLine.isCounted) <;> rfl

theorem Gains.trans {s s₁ s₂ : State} {ps qs : List Patch} (h : s.Gains s₁ ps)
    (h' : s₁.Gains s₂ qs) : s.Gains s₂ (ps ++ qs) where
  commit := h'.commit.trans h.commit
  flushed := by rw [h'.flushed, h.flushed, List.reverse_append, List.append_assoc]

theorem run_fileDiffs {fs : List FileDiff} (hf : ∀ f ∈ fs, f.IsPlain) :
    ∃ s', s.run (fs.flatMap FileDiff.toLines) = .ok s' ∧
      s.Gains s' (fs.filterMap fun f =>
        f.change.patch? s.commit (Hunk.addedBy HunkLine.isCounted)) := by
  induction fs generalizing s with
  | nil => exact ⟨s, rfl, rfl, rfl⟩
  | cons f fs ih =>
    obtain ⟨hfirst, hrest⟩ := List.forall_mem_cons.mp hf
    obtain ⟨s₁, hrun₁, gains₁⟩ := run_fileDiff (s := s) hfirst
    obtain ⟨s₂, hrun₂, gains₂⟩ := ih (s := s₁) hrest
    rw [gains₁.commit] at gains₂
    refine ⟨s₂, ?_, ?_⟩
    · rw [List.flatMap_cons, run_append_of_ok hrun₁, hrun₂]
    · have both := gains₁.trans gains₂
      rw [List.filterMap_cons]
      cases hp : f.change.patch? s.commit (Hunk.addedBy HunkLine.isCounted) with
      | none =>
        rw [hp] at both
        exact both
      | some p =>
        rw [hp] at both
        exact both

/-! ### Commits -/

/-- **The reader at a commit** gains the patches of its files, under its name. -/
theorem run_commit {c : Commit} (hc : c.IsPlain) : ∃ s', s.run c.toLines = .ok s' ∧
    s'.flushed = (c.patches (Hunk.addedBy HunkLine.isCounted)).reverse ++ s.flushed := by
  obtain ⟨hash, files⟩ := c
  have name : Text.strip hash = hash := Text.strip_of_no_space hc.hash
  have named : commitOf hash = some hash := by
    rw [commitOf, name, if_neg fun h => hc.named (List.isEmpty_iff.mp h)]
  let s₁ : State := { s.close with commit := some hash }
  have header : s.step ("commit " ++ hash) = .ok s₁ := by
    rw [step_commit, named]
  cases files with
  | nil => exact ⟨s₁, run_cons_of_ok header [], rfl⟩
  | cons f fs =>
    have blank : s₁.step [] = .ok s₁ := step_outside isInner_nil rfl
    obtain ⟨s₂, hrun, gains⟩ := run_fileDiffs (s := s₁) hc.files
    refine ⟨s₂, ?_, gains.flushed⟩
    rw [Commit.toLines, run_cons_of_ok header, run_cons_of_ok blank, hrun]

theorem run_commits {cs : List Commit} (hcs : ∀ c ∈ cs, c.IsPlain) :
    ∃ s', s.run (cs.flatMap Commit.toLines) = .ok s' ∧ s'.flushed =
      (cs.flatMap (Commit.patches (Hunk.addedBy HunkLine.isCounted))).reverse ++ s.flushed := by
  induction cs generalizing s with
  | nil => exact ⟨s, rfl, rfl⟩
  | cons c cs ih =>
    obtain ⟨hfirst, hrest⟩ := List.forall_mem_cons.mp hcs
    obtain ⟨s₁, hrun₁, flushed₁⟩ := run_commit (s := s) hfirst
    obtain ⟨s₂, hrun₂, flushed₂⟩ := ih (s := s₁) hrest
    refine ⟨s₂, ?_, ?_⟩
    · rw [List.flatMap_cons, run_append_of_ok hrun₁, hrun₂]
    · rw [flushed₂, flushed₁, List.flatMap_cons, List.reverse_append, List.append_assoc]

end State

/-! ### Logs -/

theorem read_ended {ls : List Text} (h : ∀ l ∈ ls, Text.IsUnbroken l) {s : State}
    (hs : State.initial.run ls = .ok s) : read (Text.ended ls) = .ok s.flushed.reverse := by
  rw [read_eq, Text.lines_ended h, hs]
  rfl

/-- The patches of a log, numbered as the reader counts. -/
theorem read_logText_counted {cs : List Commit} (hcs : ∀ c ∈ cs, c.IsPlain) :
    read (logText cs) =
      .ok (cs.flatMap (Commit.patches (Hunk.addedBy HunkLine.isCounted))) := by
  have unbroken : ∀ l ∈ cs.flatMap Commit.toLines, Text.IsUnbroken l := by
    intro l hl
    obtain ⟨c, hc, hl⟩ := List.mem_flatMap.mp hl
    exact (hcs c hc).isUnbroken l hl
  obtain ⟨s, hrun, hflushed⟩ := State.run_commits (s := State.initial) hcs
  have before : State.initial.flushed = [] := rfl
  rw [logText, read_ended unbroken hrun, hflushed, before, List.append_nil, List.reverse_reverse]

theorem Commit.IsUnremarked.patches_eq {c : Commit} (hc : c.IsUnremarked) :
    c.patches (Hunk.addedBy HunkLine.isCounted) = c.patches Hunk.added := by
  refine List.filterMap_congr fun f hf => ?_
  obtain ⟨names, attributes, change⟩ := f
  cases change with
  | binary names => rfl
  | deleted old hunks => rfl
  | kept old path hunks =>
    have same : hunks.map (Hunk.addedBy HunkLine.isCounted) = hunks.map Hunk.added :=
      List.map_congr_left fun h hh => (hc _ hf h hh).addedBy_eq
    simp only [Change.patch?, List.flatMap_def, same]

/-- **What is read of a log**: commit by commit and file by file the lines that are added, each with
its number in the new version of the file. -/
theorem read_logText {cs : List Commit} (hcs : ∀ c ∈ cs, c.IsPlain)
    (hr : ∀ c ∈ cs, c.IsUnremarked) :
    read (logText cs) = .ok (cs.flatMap (Commit.patches Hunk.added)) := by
  rw [read_logText_counted hcs, List.flatMap_def, List.flatMap_def,
    List.map_congr_left fun c hc => (hr c hc).patches_eq]

/-- Two commits: the first one modifies a file in two hunks, adds one and renames one; the second
one deletes a file and changes one that is no text. -/
def sampleLog : List Commit := [
  { hash := "1f0c"
    files := [
      { names := "a/app.py b/app.py"
        attributes := [⟨.index, "83db..bf2d"⟩]
        change := .kept "a/app.py" ⟨[], ["app.py"]⟩ [
          ⟨⟨3, some 2⟩, ⟨3, some 3⟩, " main",
            [.context "", .removed "-- old", .added "key = 1", .added "++key"]⟩,
          ⟨⟨9, none⟩, ⟨10, none⟩, [], [.removed "x", .added "y"]⟩] },
      { names := "a/my notes b/my notes"
        attributes := [⟨.newFileMode, "100644"⟩]
        change := .kept "/dev/null" ⟨[], ["my notes"]⟩ [
          ⟨⟨0, some 0⟩, ⟨1, none⟩, [], [.added "commit 2e"]⟩] },
      { names := "a/b/old b/b/new"
        attributes := [⟨.renameFrom, "b/old"⟩, ⟨.renameTo, "b/new"⟩]
        change := .kept "a/b/old" ⟨[], ["b", "new"]⟩ [] }] },
  { hash := "2e7d"
    files := [
      { names := "a/.env b/.env"
        attributes := [⟨.deletedFileMode, "100644"⟩]
        change := .deleted "a/.env" [⟨⟨1, none⟩, ⟨0, some 0⟩, [], [.removed "++ b/x"]⟩] },
      { names := "a/logo b/logo"
        attributes := []
        change := .binary "a/logo and b/logo" }] }]

/-- The patches of two commits with files of all sorts. -/
theorem read_logText_sampleLog :
    logText sampleLog = Text.ended [
      "commit 1f0c", "",
      "diff --git a/app.py b/app.py", "index 83db..bf2d", "--- a/app.py", "+++ b/app.py",
      "@@ -3,2 +3,3 @@ main", " ", "--- old", "+key = 1", "+++key", "@@ -9 +10 @@", "-x", "+y",
      "diff --git a/my notes b/my notes", "new file mode 100644", "--- /dev/null",
      "+++ b/my notes\t", "@@ -0,0 +1 @@", "+commit 2e",
      "diff --git a/b/old b/b/new", "rename from b/old", "rename to b/new",
      "commit 2e7d", "",
      "diff --git a/.env b/.env", "deleted file mode 100644", "--- a/.env", "+++ /dev/null",
      "@@ -1 +0,0 @@", "-++ b/x",
      "diff --git a/logo b/logo", "Binary files a/logo and b/logo differ"] ∧
    read (logText sampleLog) = .ok [
      ⟨⟨[], ["app.py"]⟩, [⟨4, "key = 1"⟩, ⟨5, "++key"⟩, ⟨10, "y"⟩], some "1f0c"⟩,
      ⟨⟨[], ["my notes"]⟩, [⟨1, "commit 2e"⟩], some "1f0c"⟩] := by
  have plain : ∀ c ∈ sampleLog, c.IsPlain := by decide +kernel
  have unremarked : ∀ c ∈ sampleLog, c.IsUnremarked := by decide +kernel
  refine ⟨congrArg Text.ended ?_, (read_logText plain unremarked).trans (congrArg Except.ok ?_)⟩
  · decide +kernel
  · decide +kernel

end RepoScan.Diff
