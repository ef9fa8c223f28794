import RepoScan.Proofs.Text.Replace
import RepoScan.Proofs.Triage
import RepoScan.Proofs.Triage.Naming
import RepoScan.Rule.Table

/-!
# Files of tests

Three places tell a file of tests by its name: the table of kinds, so that no rule is applied to the
file, the mark that findings get for their location, and triage, which drops them.  Only the first
ignores letter case.

* `FileKind.baseName_eq` : the name that the table of kinds looks at;
* `FileKind.ofPath_eq_test_iff` : the files of tests;
* `FileKind.IsTestThroughout` : the three places agree on a path;
* `FileKind.isTestThroughout_of_mark` : **they do where the name has its mark in lower case**.
-/

namespace RepoScan

namespace FileKind

open Naming

variable {path : Text}

theorem exists_fileName (path : Text) : ∃ u, path = u ++ fileName path ∧
    (u = [] ∨ ∃ front c, c ∈ ([('/' : CodePoint), '\\'] : Text) ∧ u = front ++ [c]) := by
  obtain ⟨u, hpath, hu⟩ := Text.exists_lastPiece '/' (slashed path)
  obtain ⟨before, name, rfl, hbefore, hname⟩ := List.map_eq_append_iff.mp hpath
  -- a backslash in the name would be a slash in it
  have plain : ('/' : CodePoint) ∉ Text.replaceChar '\\' '/' name := by
    rw [Text.replaceChar, hname]
    exact Text.notMem_lastPiece '/' _
  have same : ∀ c ∈ name, (if c = '\\' then ('/' : CodePoint) else c) = c := by
    intro c hc
    refine if_neg ?_
    rintro rfl
    exact plain (List.mem_map.mpr ⟨_, hc, if_pos rfl⟩)
  rw [List.map_congr_left same, List.map_id'] at hname
  refine ⟨before, congrArg (before ++ ·) hname, ?_⟩
  rcases hu with rfl | ⟨front, rfl⟩
  · exact .inl (List.map_eq_nil_iff.mp hbefore)
  · obtain ⟨front, last, rfl, -, hlast⟩ := List.map_eq_append_iff.mp hbefore
    obtain ⟨c, rfl, hc⟩ := List.map_eq_singleton_iff.mp hlast
    refine .inr ⟨front, c, ?_, rfl⟩
    split at hc
    · rename_i backslash
      exact backslash ▸ List.mem_cons_of_mem _ List.mem_cons_self
    · exact hc ▸ List.mem_cons_self

/-! ### The table of kinds -/

/-- The table looks at the name of the file, in lower case. -/
theorem baseName_eq (path : Text) : baseName path = Text.lower (fileName path) := by
  have slashes : Text.replaceChar '\\' '/' path = slashed path := rfl
  simp only [baseName, slashes]
  refine congrArg Text.lower ?_
  obtain ⟨u, hpath, rfl | ⟨front, rfl⟩⟩ := Text.exists_lastPiece '/' (slashed path)
  · have plain : ('/' : CodePoint) ∉ slashed path := hpath ▸ Text.notMem_lastPiece '/' _
    rw [Text.cutLast?_of_notMem plain]
    exact hpath
  · rw [List.append_assoc, List.singleton_append] at hpath
    rw [hpath, Text.cutLast?_append (Text.notMem_lastPiece '/' _)]
    rfl

theorem ofPath_eq_test_iff :
    ofPath path = [test] ↔ hasEnding (baseName path) test.endings = true := by
  rw [ofPath]
  split
  · rename_i h
    exact iff_of_true rfl h
  · rename_i h
    refine iff_of_false (fun hall => h ?_) h
    have listed : test ∈ all.filter fun k => hasEnding (baseName path) k.endings :=
      hall ▸ List.mem_singleton_self test
    exact (List.mem_filter.mp listed).2

theorem getLast?_of_hasEnding {t : Text} {es : List Text} {c : CodePoint}
    (h : hasEnding t es = true) (hes : ∀ e ∈ es, e.getLast? = some c) : t.getLast? = some c := by
  obtain ⟨e, he, hend⟩ := List.any_eq_true.mp h
  obtain ⟨front, rfl⟩ := List.isSuffixOf_iff_suffix.mp hend
  rw [List.getLast?_append, hes e he]
  rfl

/-! ### Marks of tests -/

/-- The marks that tell a location of tests. -/
def locationMarks : List Text := [".test.", ".spec."]

/-- A file of tests in every respect: no rule is applied to it, its location is marked, and whatever
is found in it is no issue and does not come through triage. -/
structure IsTestThroughout (path : Text) : Prop where
  rules : Rule.forKinds (ofPath path) = []
  flag : (locationFlags path).lookup ("isTest" : Text) = some true
  falsePositive : ∀ f : Finding, f.file = path → f.isFalsePositive = true
  dropped : ∀ (rules : List IgnoreRule) (today : Date) (fs out : List Finding),
    triage rules today fs = .ok out → ∀ f ∈ out, f.file ≠ path

theorem lookup_isTest_iff : (locationFlags path).lookup ("isTest" : Text) = some true ↔
    ∃ mark ∈ locationMarks, mark <:+: path := by
  have found : (locationFlags path).lookup ("isTest" : Text) =
      some (Text.hasInfix ".test." path || Text.hasInfix ".spec." path) := rfl
  rw [found, Option.some.injEq, Bool.or_eq_true, Text.hasInfix_iff, Text.hasInfix_iff]
  simp only [locationMarks, List.mem_cons, List.not_mem_nil, or_false, exists_eq_or_imp,
    exists_eq_left]

theorem infix_of_infix_fileName {w : Text} (h : w <:+: fileName path) : w <:+: path := by
  obtain ⟨u, hpath, -⟩ := exists_fileName path
  rw [hpath]
  exact h.trans (List.suffix_append u _).isInfix

theorem exists_mark (h : ofPath path = [test])
    (hm : ∃ mark ∈ locationMarks, mark <:+: fileName path) :
    ∃ mark ∈ locationMarks, ∃ front back, fileName path = front ++ mark ++ back ∧ back ≠ [] := by
  obtain ⟨mark, hmark, front, back, hname⟩ := hm
  refine ⟨mark, hmark, front, back, hname.symm, ?_⟩
  rintro rfl
  -- the endings of tests end with a letter, and the mark with a point
  have letter : (baseName path).getLast? = some ('s' : CodePoint) :=
    getLast?_of_hasEnding (ofPath_eq_test_iff.mp h) (by decide)
  have pointed : ∀ m ∈ locationMarks, m.dropLast ++ [('.' : CodePoint)] = m := by decide
  rw [List.append_nil, ← pointed mark hmark, ← List.append_assoc] at hname
  rw [baseName_eq, ← hname, Text.getLast?_lower_concat _ (by decide)] at letter
  exact absurd letter (by decide)

theorem isFalsePositive_of_isConventional {f : Finding} (h : IsConventional f.file) :
    f.isFalsePositive = true := by
  rw [isConventional_iff] at h
  simp only [Finding.isFalsePositive, Bool.or_eq_true, Pattern.occursIn_iff]
  exact .inr (.inl (.inl h))

theorem forKinds_test : Rule.forKinds [test] = [] := by
  have none : ∀ r ∈ Rule.table, test ∉ r.targets := by decide
  refine List.filter_eq_nil_iff.mpr fun r hr hr' => ?_
  obtain ⟨k, hk, hmem⟩ := List.any_eq_true.mp hr'
  rw [List.contains_iff_mem, List.mem_singleton] at hmem
  exact none r hr (hmem ▸ hk)

/-- **A file of tests is one in every respect**, if its name has the mark in lower case. -/
theorem isTestThroughout_of_mark (h : ofPath path = [test])
    (hm : ∃ mark ∈ locationMarks, mark <:+: fileName path) : IsTestThroughout path := by
  have suppressed (f : Finding) (hf : f.file = path) : f.isFalsePositive = true := by
    obtain ⟨mark, hmark, front, back, hname, hne⟩ := exists_mark h hm
    have marked : mark ∈ testMarks := List.mem_append_left (["_test.", "_spec."] : List Text) hmark
    exact isFalsePositive_of_isConventional (.testMark front mark back (hf ▸ hname) marked hne)
  refine ⟨h ▸ forKinds_test, ?_, suppressed, fun rules today fs out hout f hf hfile => ?_⟩
  · obtain ⟨mark, hmark, hin⟩ := hm
    exact lookup_isTest_iff.mpr ⟨mark, hmark, infix_of_infix_fileName hin⟩
  · have issue := (triage_sound hout f hf).2.1
    rw [suppressed f hfile] at issue
    cases issue

theorem isTestThroughout_component :
    ofPath "src/component.test.ts" = [test] ∧
      (∃ mark ∈ locationMarks, mark <:+: fileName "src/component.test.ts") ∧
      IsTestThroughout "src/component.test.ts" := by
  have kind : ofPath "src/component.test.ts" = [test] := by decide
  have marked : ∃ mark ∈ locationMarks, mark <:+: fileName "src/component.test.ts" := by decide
  exact ⟨kind, marked, isTestThroughout_of_mark kind marked⟩

/-- What a linter reports on a file. -/
def evalIn (file : Text) : Finding where
  kind := .vulnerability
  severity := .high
  confidence := .high
  description := "eval can be harmful [lint]"
  file := file
  line := 3

/-- In capitals the mark is one for the table of kinds only. -/
theorem not_isTestThroughout_capital :
    ofPath "src/Cart.Test.ts" = [test] ∧
      (locationFlags "src/Cart.Test.ts").lookup ("isTest" : Text) = some false ∧
      (evalIn "src/Cart.Test.ts").isFalsePositive = false ∧
      ¬ IsTestThroughout "src/Cart.Test.ts" := by
  have flag : (locationFlags "src/Cart.Test.ts").lookup ("isTest" : Text) = some false := by decide
  refine ⟨by decide, flag, by decide, fun h => ?_⟩
  have mark := h.flag
  rw [flag] at mark
  cases mark

end FileKind

end RepoScan
