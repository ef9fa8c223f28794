import RepoScan.Proofs.Path
import RepoScan.Proofs.Pattern
import RepoScan.Proofs.Text.Case
import RepoScan.Triage

/-!
# Naming conventions

Triage tells by its path what a file is for.  It searches the path for patterns; what these find can
be said of the components of the path, its directories and the name of the file.

* `Naming.IsConventional` : the path follows a convention for tests or stand-ins, component by
  component;
* `Naming.occurs_directory_iff`, `occurs_name_iff`, `occurs_nameEnd_iff` : patterns that are tied to
  components look at these one by one;
* `Naming.occurs_testPath_iff`, `occurs_standInPath_iff` : the patterns of triage;
* `Finding.isFalsePositive_iff` : **what counts as a false positive**.
-/

namespace RepoScan

namespace Naming

open Pattern

/-! ### Conventions -/

/-- The path with slashes only. -/
def slashed (path : Text) : Text := Text.replaceChar '\\' '/' path

/-- The components of a path before the last one. -/
def directories (path : Text) : List Text := (Text.splitOn '/' (slashed path)).dropLast

/-- The last component of a path. -/
def fileName (path : Text) : Text := Text.lastPiece '/' (slashed path)

/-- Directories of tests. -/
def testDirectories : List Text := ["test", "tests", "__tests__", "spec", "specs"]

/-- What in the name of a file tells a test. -/
def testMarks : List Text := [".test.", ".spec.", "_test.", "_spec."]

/-- What in the name of a file tells a stand-in. -/
def standInWords : List Text := ["mock", "fake", "dummy"]

/-- The name of a directory of stand-ins, with case ignored: one word or several of them, between
two low lines or not. -/
def IsStandInDirectory (d : Text) : Prop :=
  ∃ front ∈ (["__", ""] : List Text), ∃ w ∈ (["mock", "fake", "fixture", "stub"] : List Text),
    ∃ plural ∈ (["s", ""] : List Text), ∃ back ∈ (["__", ""] : List Text),
      d.map foldCase = front ++ w ++ plural ++ back

/-- What speaks of an example. -/
def exampleWords : List Text := ["example", "demo", "sample"]

/-- The path follows a convention for tests or for stand-ins. -/
inductive IsConventional (path : Text) : Prop
  | testDirectory (d : Text) : d ∈ directories path → d ∈ testDirectories → IsConventional path
  /-- Something follows the mark. -/
  | testMark (front mark back : Text) : fileName path = front ++ mark ++ back →
      mark ∈ testMarks → back ≠ [] → IsConventional path
  | testPrefix (back : Text) : fileName path = "test_" ++ back → back ≠ [] → IsConventional path
  /-- The case of the name is ignored. -/
  | standInName (w : Text) : w ∈ standInWords → w <:+: (fileName path).map foldCase →
      IsConventional path
  | standInDirectory (d : Text) : d ∈ directories path → IsStandInDirectory d →
      IsConventional path

/-! ### Letter case -/

theorem eq_of_foldCase {c d : CodePoint} (hd : d.isAsciiLower = false) (h : foldCase c = d) :
    c = d := by
  have other (l : CodePoint) (hl : l.isAsciiLower = true) : l ≠ d := by
    rintro rfl
    rw [hl] at hd
    cases hd
  unfold foldCase at h
  split at h
  · rename_i upper
    rw [CodePoint.isAsciiUpper_iff] at upper
    refine absurd h (other _ (CodePoint.isAsciiLower_iff.mpr ?_))
    rw [CodePoint.ofNat, dif_pos (by omega)]
    exact ⟨by show 97 ≤ c.val + 32; omega, by show c.val + 32 ≤ 122; omega⟩
  · split at h
    · exact h
    · split at h
      · exact absurd h (other 's' rfl)
      · split at h
        · exact absurd h (other 'k' rfl)
        · split at h
          · exact absurd h (other 'i' rfl)
          · exact h

theorem map_foldCase_eq_iff {w d : Text} (hd : ∀ c ∈ d, c.isAsciiLower = false ∧ foldCase c = c) :
    w.map foldCase = d ↔ w = d := by
  constructor
  · rintro rfl
    refine (List.map_id w).symm.trans (List.map_congr_left fun c hc => ?_)
    exact eq_of_foldCase (hd _ (List.mem_map_of_mem hc)).1 rfl
  · rintro rfl
    exact (List.map_congr_left fun c hc => (hd c hc).2).trans (List.map_id w)

theorem notMem_of_map_foldCase {w d : Text} (h : w.map foldCase = d) (hd : ('/' : CodePoint) ∉ d) :
    ('/' : CodePoint) ∉ w := by
  intro hw
  exact hd (h ▸ List.mem_map.mpr ⟨_, hw, by decide⟩)

/-! ### Patterns tied to components -/

variable {p q : Pattern} {P Q : Text → Prop} {t : Text}

theorem forall_inSegment_iff {w : Text} :
    (∀ c ∈ w, inSegment c = true) ↔ ('/' : CodePoint) ∉ w := by
  rw [← List.forall_mem_ne']
  exact forall₂_congr fun c _ => bne_iff_ne

theorem spans_segmentStart {before : Option CodePoint} {w after : Text} :
    segmentStart.Spans before w after ↔ w = [] ∧ before = none ∨ w = "/" :=
  or_congr_right (reads_literal "/" before w after)

theorem exists_opening_iff (hp : segmentStart.ReadsAfter p P) (E : Text → Prop) :
    (∃ u w v, t = u ++ w ++ v ∧ p.Spans u.getLast? w v ∧ E v) ↔
      ∃ u w v, t = u ++ w ++ v ∧ Text.Opens '/' u ∧ P w ∧ E v := by
  constructor
  · rintro ⟨u, _, v, rfl, h, hv⟩
    obtain ⟨x, w, rfl, hx, hw⟩ := (hp ..).mp h
    rcases spans_segmentStart.mp hx with ⟨rfl, hu⟩ | rfl
    · exact ⟨u, w, v, rfl, .inl (List.getLast?_eq_none_iff.mp hu), hw, hv⟩
    · exact ⟨u ++ "/", w, v, by simp, .inr ⟨u, rfl⟩, hw, hv⟩
  · rintro ⟨_, w, v, rfl, rfl | ⟨u, rfl⟩, hw, hv⟩
    · exact ⟨[], w, v, rfl, (hp ..).mpr ⟨[], w, rfl, .inl ⟨rfl, rfl⟩, hw⟩, hv⟩
    · have slash : segmentStart.Spans u.getLast? "/" (w ++ v) := spans_segmentStart.mpr (.inr rfl)
      refine ⟨u, "/" ++ w, v, ?_, (hp ..).mpr ⟨"/", w, rfl, slash, hw⟩, hv⟩
      rw [← List.append_assoc]
      rfl

/-- A pattern from the beginning of a component to the slash after it looks for a directory. -/
theorem occurs_directory_iff (hp : segmentStart.ReadsAfter p P)
    (hslash : ∀ w, P w → ('/' : CodePoint) ∉ w) :
    (p ++ literal "/").Occurs t ↔ ∃ d ∈ (Text.splitOn '/' t).dropLast, P d := by
  have parts (u d v : Text) : u ++ (d ++ "/") ++ v = u ++ d ++ ('/' : CodePoint) :: v := by
    simp [Text.ofString]
  have opening := exists_opening_iff (t := t) (hp.seq (reads_literal "/")) fun _ => True
  simp only [and_true] at opening
  rw [Occurs, opening]
  constructor
  · rintro ⟨u, _, v, rfl, hu, d, _, rfl, hd, rfl⟩
    exact ⟨d, (Text.mem_dropLast_splitOn_iff (hslash d hd)).mpr ⟨u, v, parts u d v, hu⟩, hd⟩
  · rintro ⟨d, hmem, hd⟩
    obtain ⟨u, v, rfl, hu⟩ := (Text.mem_dropLast_splitOn_iff (hslash d hd)).mp hmem
    exact ⟨u, d ++ "/", v, (parts u d v).symm, hu, d, "/", rfl, hd, rfl⟩

theorem spans_stop_iff {before : Option CodePoint} {w after : Text} :
    (p ++ stop).Spans before w after ↔
      p.Spans before w after ∧ (after = [] ∨ after = [('\n' : CodePoint)]) := by
  constructor
  · rintro ⟨u, _, rfl, hu, rfl, hend⟩
    rw [List.append_nil]
    exact ⟨hu, hend⟩
  · rintro ⟨hw, hend⟩
    exact ⟨w, [], (List.append_nil w).symm, hw, rfl, hend⟩

/-- A line feed at the end may be left out; what is read up to it could have been read with it. -/
theorem exists_end_iff (hfeed : ∀ w, P w → P (w ++ [('\n' : CodePoint)])) {E : Text → Prop} :
    (∃ u w v, t = u ++ w ++ v ∧ E u ∧ P w ∧ (v = [] ∨ v = [('\n' : CodePoint)])) ↔
      ∃ u w, t = u ++ w ∧ E u ∧ P w := by
  constructor
  · rintro ⟨u, w, v, rfl, hu, hw, rfl | rfl⟩
    · exact ⟨u, w, List.append_nil _, hu, hw⟩
    · exact ⟨u, _, List.append_assoc .., hu, hfeed w hw⟩
  · rintro ⟨u, w, rfl, hu, hw⟩
    exact ⟨u, w, [], (List.append_nil _).symm, hu, hw, .inl rfl⟩

/-- A pattern from the beginning of a component to the end looks at the name of the file. -/
theorem occurs_name_iff (hp : segmentStart.ReadsAfter p P)
    (hslash : ∀ w, P w → ('/' : CodePoint) ∉ w) (hfeed : ∀ w, P w → P (w ++ [('\n' : CodePoint)])) :
    (p ++ stop).Occurs t ↔ P (Text.lastPiece '/' t) := by
  simp only [Occurs, spans_stop_iff]
  rw [exists_opening_iff hp, exists_end_iff hfeed]
  constructor
  · rintro ⟨u, w, rfl, hu, hw⟩
    rwa [Text.lastPiece_append hu (hslash w hw)]
  · intro h
    obtain ⟨u, ht, hu⟩ := Text.exists_lastPiece '/' t
    exact ⟨u, _, ht, hu, h⟩

/-- A pattern up to the end looks at the end of the name of the file, if it passes no slash. -/
theorem occurs_nameEnd_iff (hp : p.Reads P) (hslash : ∀ w, P w → ('/' : CodePoint) ∉ w)
    (hfeed : ∀ w, P w → P (w ++ [('\n' : CodePoint)])) :
    (p ++ stop).Occurs t ↔ ∃ w, w <:+ Text.lastPiece '/' t ∧ P w := by
  have ends := exists_end_iff (t := t) hfeed (E := fun _ => True)
  simp only [true_and] at ends
  simp only [Occurs, spans_stop_iff, hp _ _ _, ends]
  constructor
  · rintro ⟨u, w, rfl, hw⟩
    exact ⟨w, (Text.suffix_lastPiece_iff (hslash w hw)).mpr (List.suffix_append u w), hw⟩
  · rintro ⟨w, hsuffix, hw⟩
    obtain ⟨u, rfl⟩ := (Text.suffix_lastPiece_iff (hslash w hw)).mp hsuffix
    exact ⟨u, w, rfl, hw⟩

/-! ### Tests -/

theorem reads_plural (s : String) :
    (literal s ++ opt (literal "s")).Reads fun w => w ∈ [Text.ofString s, s ++ "s"] := by
  refine ((reads_literal s).seq (reads_literal "s").opt).congr fun w => ?_
  rw [List.mem_pair]
  constructor
  · rintro ⟨_, _, rfl, rfl, rfl | rfl⟩
    · exact .inr rfl
    · exact .inl (List.append_nil _)
  · rintro (rfl | rfl)
    · exact ⟨_, [], (List.append_nil _).symm, rfl, .inr rfl⟩
    · exact ⟨_, _, rfl, rfl, .inl rfl⟩

theorem reads_testDirectory : (oneFrom [literal "test" ++ opt (literal "s"), literal "__tests__",
    literal "spec" ++ opt (literal "s")]).Reads fun w => w ∈ testDirectories := by
  have choice := (reads_plural "test").alt ((reads_literal "__tests__").alt (reads_plural "spec"))
  refine choice.congr fun w => ?_
  simp only [testDirectories, List.mem_cons, List.not_mem_nil, or_false, or_assoc]
  rfl

/-- The words for tests between two marks. -/
def flanked (a b : String) : List Text := [a ++ "test" ++ b, a ++ "spec" ++ b]

theorem reads_flanked (a b : String) :
    (literal a ++ literals ["test", "spec"] ++ literal b).Reads fun w => w ∈ flanked a b := by
  refine (((reads_literal a).seq (reads_literals _)).seq (reads_literal b)).congr fun w => ?_
  rw [flanked, List.mem_pair]
  constructor
  · rintro ⟨_, _, rfl, ⟨_, _, rfl, rfl, h⟩, rfl⟩
    rcases List.mem_pair.mp h with rfl | rfl
    · exact .inl rfl
    · exact .inr rfl
  · rintro (rfl | rfl)
    · exact ⟨_, _, rfl, ⟨_, _, rfl, rfl, List.mem_pair.mpr (.inl rfl)⟩, rfl⟩
    · exact ⟨_, _, rfl, ⟨_, _, rfl, rfl, List.mem_pair.mpr (.inr rfl)⟩, rfl⟩

/-- Something in one component that begins with one of some marks. -/
def Continues (marks : List Text) (w : Text) : Prop :=
  ∃ mark back, w = mark ++ back ∧ mark ∈ marks ∧ back ≠ [] ∧ ('/' : CodePoint) ∉ back

theorem Continues.feed {marks : List Text} {w : Text} (h : Continues marks w) :
    Continues marks (w ++ [('\n' : CodePoint)]) := by
  obtain ⟨mark, back, rfl, hmark, hne, hslash⟩ := h
  refine ⟨mark, _, List.append_assoc .., hmark, List.append_ne_nil_of_left_ne_nil hne _, ?_⟩
  rw [List.mem_append, not_or]
  exact ⟨hslash, by decide⟩

theorem Continues.notMem {marks : List Text} {w : Text} (h : Continues marks w)
    (hmarks : ∀ mark ∈ marks, ('/' : CodePoint) ∉ mark) : ('/' : CodePoint) ∉ w := by
  obtain ⟨mark, back, rfl, hmark, -, hslash⟩ := h
  rw [List.mem_append, not_or]
  exact ⟨hmarks mark hmark, hslash⟩

theorem reads_continues {marks : List Text} (hp : p.Reads fun w => w ∈ marks) :
    (p ++ some1 inSegment).Reads (Continues marks) :=
  (hp.seq (reads_some1 inSegment)).congr fun w => by simp only [forall_inSegment_iff, Continues]

theorem occurs_mark_iff {marks : List Text} (hp : p.Reads fun w => w ∈ marks)
    (hmarks : ∀ mark ∈ marks, ('/' : CodePoint) ∉ mark) :
    (p ++ some1 inSegment ++ stop).Occurs t ↔
      ∃ front, ∃ mark ∈ marks, ∃ back,
        Text.lastPiece '/' t = front ++ mark ++ back ∧ back ≠ [] := by
  rw [occurs_nameEnd_iff (reads_continues hp) (fun _ h => h.notMem hmarks) fun _ h => h.feed]
  constructor
  · rintro ⟨_, ⟨front, hname⟩, mark, back, rfl, hmark, hne, -⟩
    exact ⟨front, mark, hmark, back, hname.symm.trans (List.append_assoc ..).symm, hne⟩
  · rintro ⟨front, mark, hmark, back, hname, hne⟩
    have hslash := Text.notMem_lastPiece '/' t
    rw [hname, List.mem_append, not_or] at hslash
    refine ⟨mark ++ back, ⟨front, ?_⟩, mark, back, rfl, hmark, hne, hslash.2⟩
    rw [hname, List.append_assoc]

theorem occurs_prefix_iff (s : String) (hs : ('/' : CodePoint) ∉ Text.ofString s) :
    (segmentStart ++ literal s ++ some1 inSegment ++ stop).Occurs t ↔
      ∃ back, Text.lastPiece '/' t = s ++ back ∧ back ≠ [] := by
  have mark := (reads_literal s).congr fun _ => List.mem_singleton.symm
  have form : segmentStart.ReadsAfter (segmentStart ++ literal s ++ some1 inSegment)
      (Continues [Text.ofString s]) :=
    ((mark.readsAfter segmentStart).seq (reads_some1 inSegment)).congr fun w => by
      simp only [forall_inSegment_iff, Continues]
  have plain : ∀ mark ∈ [Text.ofString s], ('/' : CodePoint) ∉ mark :=
    List.forall_mem_singleton.mpr hs
  rw [occurs_name_iff form (fun _ h => h.notMem plain) fun _ h => h.feed]
  constructor
  · rintro ⟨_, back, hname, hmark, hne, -⟩
    exact ⟨back, List.mem_singleton.mp hmark ▸ hname, hne⟩
  · rintro ⟨back, hname, hne⟩
    have hslash := Text.notMem_lastPiece '/' t
    rw [hname, List.mem_append, not_or] at hslash
    exact ⟨_, back, hname, List.mem_singleton_self _, hne, hslash.2⟩

/-- The pattern for tests looks at the directories and at the name of the file. -/
theorem occurs_testPath_iff : testPath.Occurs t ↔
    (∃ d ∈ (Text.splitOn '/' t).dropLast, d ∈ testDirectories) ∨
      (∃ front, ∃ mark ∈ testMarks, ∃ back,
        Text.lastPiece '/' t = front ++ mark ++ back ∧ back ≠ []) ∨
      ∃ back, Text.lastPiece '/' t = "test_" ++ back ∧ back ≠ [] := by
  have directory := occurs_directory_iff (t := t) (reads_testDirectory.readsAfter segmentStart)
    (by decide)
  have dotted := occurs_mark_iff (t := t) (reads_flanked "." ".") (by decide)
  have begun := occurs_prefix_iff (t := t) "test_" (by decide)
  have low := occurs_mark_iff (t := t) (reads_flanked "_" ".") (by decide)
  have marks : testMarks = flanked "." "." ++ flanked "_" "." := rfl
  simp only [testPath, occurs_oneFrom, List.mem_cons, List.not_mem_nil, or_false, exists_eq_or_imp,
    exists_eq_left]
  rw [directory, dotted, begun, low, marks]
  simp only [List.mem_append, or_and_right, exists_or]
  exact or_congr_right (by rw [or_assoc, or_comm (b := Exists _)])

/-! ### Stand-ins -/

theorem reads_opt {s : String} (hp : p.Reads fun w => w.map foldCase = Text.ofString s) :
    (opt p).Reads fun w => w.map foldCase ∈ ([s, ""] : List Text) :=
  hp.opt.congr fun w => by
    rw [List.mem_pair]
    exact or_congr_right List.map_eq_nil_iff.symm

theorem reads_standInDirectory : segmentStart.ReadsAfter
    (segmentStart ++ opt (literal "__") ++ wordsOf ["mock", "fake", "fixture", "stub"]
      ++ opt (word "s") ++ opt (literal "__")) IsStandInDirectory := by
  have lines : (opt (literal "__")).Reads fun w => w.map foldCase ∈ (["__", ""] : List Text) :=
    reads_opt ((reads_literal "__").congr fun w => (map_foldCase_eq_iff (by decide)).symm)
  have form := (((lines.readsAfter segmentStart).seq
    (reads_wordsOf ["mock", "fake", "fixture", "stub"])).seq (reads_opt (reads_word "s"))).seq lines
  refine form.congr fun d => ?_
  constructor
  · rintro ⟨_, back, rfl, ⟨_, plural, rfl, ⟨front, w, rfl, hfront, hw⟩, hplural⟩, hback⟩
    refine ⟨_, hfront, _, hw, _, hplural, _, hback, ?_⟩
    rw [List.map_append, List.map_append, List.map_append]
  · rintro ⟨_, hfront, _, hw, _, hplural, _, hback, h⟩
    obtain ⟨_, back, rfl, named, rfl⟩ := List.map_eq_append_iff.mp h
    obtain ⟨_, plural, rfl, begun, rfl⟩ := List.map_eq_append_iff.mp named
    obtain ⟨front, w, rfl, rfl, rfl⟩ := List.map_eq_append_iff.mp begun
    exact ⟨_, back, rfl, ⟨_, plural, rfl, ⟨front, w, rfl, hfront, hw⟩, hplural⟩, hback⟩

theorem IsStandInDirectory.notMem {d : Text} (h : IsStandInDirectory d) :
    ('/' : CodePoint) ∉ d := by
  have names : ∀ front ∈ (["__", ""] : List Text),
      ∀ w ∈ (["mock", "fake", "fixture", "stub"] : List Text), ∀ plural ∈ (["s", ""] : List Text),
        ∀ back ∈ (["__", ""] : List Text), ('/' : CodePoint) ∉ front ++ w ++ plural ++ back := by
    decide
  obtain ⟨front, hfront, w, hw, plural, hplural, back, hback, h⟩ := h
  exact notMem_of_map_foldCase h (names front hfront w hw plural hplural back hback)

/-- Something in one component that holds one of some words, with case ignored. -/
structure Speaks (words : List Text) (w : Text) : Prop where
  component : ('/' : CodePoint) ∉ w
  speaks : ∃ x ∈ words, x <:+: w.map foldCase

theorem Speaks.feed {words : List Text} {w : Text} (h : Speaks words w) :
    Speaks words (w ++ [('\n' : CodePoint)]) := by
  obtain ⟨hslash, x, hx, hin⟩ := h
  refine ⟨?_, x, hx, ?_⟩
  · rw [List.mem_append, not_or]
    exact ⟨hslash, by decide⟩
  · rw [List.map_append]
    exact hin.trans (List.prefix_append _ _).isInfix

theorem reads_speaks (ss : List String) (hss : ∀ x ∈ ss.map Text.ofString, ('/' : CodePoint) ∉ x) :
    segmentStart.ReadsAfter
      (segmentStart ++ many inSegment ++ wordsOf ss ++ many inSegment)
      (Speaks (ss.map Text.ofString)) := by
  have form := (((reads_many inSegment).readsAfter segmentStart).seq (reads_wordsOf ss)).seq
    (reads_many inSegment)
  refine form.congr fun w => ?_
  simp only [forall_inSegment_iff]
  constructor
  · rintro ⟨_, back, rfl, ⟨front, x, rfl, hfront, hx⟩, hback⟩
    refine ⟨?_, _, hx, front.map foldCase, back.map foldCase, ?_⟩
    · simp only [List.mem_append, not_or]
      exact ⟨⟨hfront, notMem_of_map_foldCase rfl (hss _ hx)⟩, hback⟩
    · rw [List.map_append, List.map_append]
  · rintro ⟨hslash, _, hx, hin⟩
    obtain ⟨x, ⟨front, back, rfl⟩, rfl⟩ := List.infix_map_iff.mp hin
    simp only [List.mem_append, not_or] at hslash
    exact ⟨_, back, rfl, ⟨front, x, rfl, hslash.1.1, hx⟩, hslash.2⟩

/-- The pattern for stand-ins looks at the directories and at the name of the file. -/
theorem occurs_standInPath_iff : standInPath.Occurs t ↔
    (∃ w ∈ standInWords, w <:+: (Text.lastPiece '/' t).map foldCase) ∨
      ∃ d ∈ (Text.splitOn '/' t).dropLast, IsStandInDirectory d := by
  have name := occurs_name_iff (t := t) (reads_speaks ["mock", "fake", "dummy"] (by decide))
    (fun _ h => h.component) fun _ h => h.feed
  have directory := occurs_directory_iff (t := t) reads_standInDirectory fun _ h => h.notMem
  simp only [standInPath, occurs_oneFrom, List.mem_cons, List.not_mem_nil, or_false,
    exists_eq_or_imp, exists_eq_left]
  rw [name, directory]
  exact or_congr_left ⟨fun h => h.speaks, fun h => ⟨Text.notMem_lastPiece '/' t, h⟩⟩

/-! ### Examples -/

theorem occurs_exampleMark_iff :
    exampleMark.Occurs t ↔ ∃ w ∈ exampleWords, w <:+: t.map foldCase := by
  rw [exampleMark, (reads_wordsOf _).occurs_iff]
  constructor
  · rintro ⟨x, hx, hin⟩
    exact ⟨_, hx, List.infix_map_iff.mpr ⟨x, hin, rfl⟩⟩
  · rintro ⟨_, hw, hin⟩
    obtain ⟨x, hx, rfl⟩ := List.infix_map_iff.mp hin
    exact ⟨x, hw, hx⟩

/-! ### Paths -/

/-- The patterns of triage find the conventions. -/
theorem isConventional_iff {path : Text} : IsConventional path ↔
    testPath.Occurs (slashed path) ∨ standInPath.Occurs (slashed path) := by
  rw [occurs_testPath_iff, occurs_standInPath_iff]
  constructor
  · intro h
    cases h with
    | testDirectory d hd h => exact .inl (.inl ⟨d, hd, h⟩)
    | testMark front mark back hname hmark hne =>
      exact .inl (.inr (.inl ⟨front, mark, hmark, back, hname, hne⟩))
    | testPrefix back hname hne => exact .inl (.inr (.inr ⟨back, hname, hne⟩))
    | standInName w hw hin => exact .inr (.inl ⟨w, hw, hin⟩)
    | standInDirectory d hd h => exact .inr (.inr ⟨d, hd, h⟩)
  · rintro ((⟨d, hd, h⟩ | ⟨front, mark, hmark, back, hname, hne⟩ | ⟨back, hname, hne⟩) |
      ⟨w, hw, hin⟩ | ⟨d, hd, h⟩)
    · exact .testDirectory d hd h
    · exact .testMark front mark back hname hmark hne
    · exact .testPrefix back hname hne
    · exact .standInName w hw hin
    · exact .standInDirectory d hd h

end Naming

open Naming

/-- **What counts as a false positive**: a finding of low certainty that is not critical, one whose
path follows a convention for tests or stand-ins, and one whose path or description speaks of an
example, with case ignored. -/
theorem Finding.isFalsePositive_iff (f : Finding) : f.isFalsePositive = true ↔
    (f.confidence = .low ∧ f.severity ≠ .critical) ∨ IsConventional f.file ∨
      ∃ w ∈ exampleWords, w <:+: (slashed f.file).map Pattern.foldCase ∨
        w <:+: f.description.map Pattern.foldCase := by
  simp only [isConventional_iff, isFalsePositive, Bool.or_eq_true, Bool.and_eq_true, beq_iff_eq,
    bne_iff_ne, Pattern.occursIn_iff, occurs_exampleMark_iff, and_or_left, exists_or, or_assoc]
  rfl

end RepoScan
