import RepoScan.Proofs.FileKind

/-!
# Views of the kinds of a path

The kinds of a path, the preferred one and the mark of a source file come from the same tables, and
so do the files that are never read.  The mark is set by the end of the whole path in lower case,
the kinds by that of the name; the letters of a name have the same forms in both.

* `hasEnding_lower` : the path has the endings of its name;
* `mem_ofPath_iff` : the kinds of a path;
* `views_agree` : **what the three views tell of a path is the same**;
* `ofPath_eq_nil_of_isBinary` : no file that is never read has a kind.
-/

namespace RepoScan

namespace FileKind

open Naming

variable {path t : Text} {es es' : List Text}

/-! ### Endings -/

theorem hasEnding_iff : hasEnding t es = true ↔ ∃ e ∈ es, e <:+ t := by
  simp only [hasEnding, List.any_eq_true, Text.endsWith, List.isSuffixOf_iff_suffix]

theorem suffix_lower_iff {w : Text} (hw : ∀ c ∈ ([('/' : CodePoint), '\\'] : Text), c ∉ w) :
    w <:+ Text.lower path ↔ w <:+ baseName path := by
  -- neither slash has case, so the letters before them do not matter to those in the name
  have slashes : ∀ c ∈ ([('/' : CodePoint), '\\'] : Text),
      c.isAscii = true ∧ c.isCaseIgnorable = false ∧ c.isCased = false ∧ c.asciiLower = c := by
    decide +kernel
  obtain ⟨u, hpath, rfl | ⟨front, c, hc, rfl⟩⟩ := exists_fileName path
  · rw [baseName_eq, ← hpath.trans (List.nil_append _)]
  · obtain ⟨ascii, ignorable, cased, lower⟩ := slashes c hc
    rw [List.append_assoc, List.singleton_append] at hpath
    obtain ⟨front, hlower⟩ :=
      Text.exists_lower_append_cons ascii ignorable cased front (fileName path)
    rw [baseName_eq, hpath, hlower, lower, Text.suffix_append_cons_iff (hw c hc), ← hpath]

theorem hasEnding_lower (hes : ∀ e ∈ es, ∀ c ∈ ([('/' : CodePoint), '\\'] : Text), c ∉ e) :
    hasEnding (Text.lower path) es = hasEnding (baseName path) es := by
  rw [Bool.eq_iff_iff, hasEnding_iff, hasEnding_iff]
  exact exists_congr fun e => and_congr_right fun he => suffix_lower_iff (hes e he)

theorem hasEnding_of_hasEnding (hes : ∀ e ∈ es, ∃ e' ∈ es', e' <:+ e) (h : hasEnding t es = true) :
    hasEnding t es' = true := by
  obtain ⟨e, he, ht⟩ := hasEnding_iff.mp h
  obtain ⟨e', he', hend⟩ := hes e he
  exact hasEnding_iff.mpr ⟨e', he', hend.trans ht⟩

theorem hasEnding_eq_false (hes : ∀ e ∈ es, ∀ e' ∈ es', ¬ e <:+ e' ∧ ¬ e' <:+ e)
    (h : hasEnding t es = true) : hasEnding t es' = false := by
  rw [Bool.eq_false_iff]
  intro h'
  obtain ⟨e, he, ht⟩ := hasEnding_iff.mp h
  obtain ⟨e', he', ht'⟩ := hasEnding_iff.mp h'
  exact (List.suffix_or_suffix_of_suffix ht ht').elim (hes e he e' he').1 (hes e he e' he').2

/-! ### Kinds -/

theorem mem_all (k : FileKind) : k ∈ all := by
  cases k <;> decide

theorem mem_ofPath_iff {k : FileKind} : k ∈ ofPath path ↔
    hasEnding (baseName path) k.endings = true ∧
      (hasEnding (baseName path) test.endings = true → k = test) := by
  rw [ofPath]
  split
  · rename_i h
    rw [List.mem_singleton]
    exact ⟨fun e => ⟨e ▸ h, fun _ => e⟩, fun hk => hk.2 h⟩
  · rename_i h
    rw [List.mem_filter]
    exact ⟨fun hk => ⟨hk.2, fun ht => absurd ht h⟩, fun hk => ⟨k.mem_all, hk.1⟩⟩

theorem sublist_ofPath (path : Text) : (ofPath path).Sublist all := by
  rw [ofPath]
  split
  · exact List.singleton_sublist.mpr (by decide)
  · exact List.filter_sublist

theorem primary?_eq (path : Text) : primary? path = (ofPath path).head? := by
  rw [ofPath]
  split
  · rename_i h
    simp only [primary?, all, List.find?_cons, h, List.head?_cons]
  · exact List.head?_filter.symm

theorem primary?_eq_some_iff {k : FileKind} : primary? path = some k ↔
    k ∈ ofPath path ∧ ∀ j ∈ ofPath path, all.idxOf k ≤ all.idxOf j := by
  have order : all.Pairwise (all.idxOf · < all.idxOf ·) := by decide
  have ordered := order.sublist (sublist_ofPath path)
  rw [primary?_eq]
  cases hks : ofPath path with
  | nil => exact ⟨nofun, fun h => absurd h.1 List.not_mem_nil⟩
  | cons first others =>
    rw [hks, List.pairwise_cons] at ordered
    rw [List.head?_cons, Option.some.injEq]
    constructor
    · rintro rfl
      exact ⟨List.mem_cons_self, List.forall_mem_cons.mpr
        ⟨Nat.le_refl _, fun j hj => Nat.le_of_lt (ordered.1 j hj)⟩⟩
    · rintro ⟨hk, least⟩
      refine ((List.mem_cons.mp hk).resolve_right fun hk => ?_).symm
      have := least first List.mem_cons_self
      have := ordered.1 k hk
      omega

theorem lookup_isSource (path : Text) : (locationFlags path).lookup ("isSource" : Text) =
    some (hasEnding (baseName path) frontend.endings
      || hasEnding (baseName path) backend.endings) := by
  have plain : ∀ e ∈ sourceEndings, ∀ c ∈ ([('/' : CodePoint), '\\'] : Text), c ∉ e := by decide
  have found : (locationFlags path).lookup ("isSource" : Text) =
    some (hasEnding (Text.lower path) sourceEndings) := rfl
  rw [found, hasEnding_lower plain, hasEnding, sourceEndings, List.any_append]
  rfl

theorem isSource_iff : (hasEnding (baseName path) frontend.endings
      || hasEnding (baseName path) backend.endings) = true ↔
    frontend ∈ ofPath path ∨ backend ∈ ofPath path ∨ test ∈ ofPath path := by
  -- an ending of tests is one of the other two kinds with more in front
  have special : ∀ e ∈ test.endings, ∃ e' ∈ frontend.endings, e' <:+ e := by decide
  rw [Bool.or_eq_true, mem_ofPath_iff, mem_ofPath_iff, mem_ofPath_iff]
  by_cases ht : hasEnding (baseName path) test.endings = true
  · exact iff_of_true (.inl (hasEnding_of_hasEnding special ht)) (.inr (.inr ⟨ht, fun _ => rfl⟩))
  · simp [ht]

/-- **The three views of a path agree.**  There is no preferred kind exactly where there is no kind;
otherwise it is the first in the order of all kinds.  Files of tests have no other kind.  The mark
of a source file is set exactly where the path has a kind of source code or is one of tests. -/
theorem views_agree (path : Text) :
    (primary? path = none ↔ ofPath path = []) ∧
      (∀ k, primary? path = some k ↔
        k ∈ ofPath path ∧ ∀ j ∈ ofPath path, all.idxOf k ≤ all.idxOf j) ∧
      (test ∈ ofPath path ↔ ofPath path = [test]) ∧
      (locationFlags path).lookup ("isSource" : Text) = some (decide
        (frontend ∈ ofPath path ∨ backend ∈ ofPath path ∨ test ∈ ofPath path)) := by
  refine ⟨?_, fun k => primary?_eq_some_iff, ?_, ?_⟩
  · rw [primary?_eq, List.head?_eq_none_iff]
  · rw [ofPath_eq_test_iff, mem_ofPath_iff]
    exact ⟨fun h => h.1, fun h => ⟨h, fun _ => rfl⟩⟩
  · rw [lookup_isSource, Option.some.injEq, Bool.eq_iff_iff, isSource_iff, decide_eq_true_eq]

/-! ### Files that are never read -/

/-- The file is never read only where it has no kind. -/
theorem ofPath_eq_nil_of_isBinary (h : isBinary path = true) : ofPath path = [] := by
  have apart : ∀ k ∈ all, ∀ e ∈ binaryEndings, ∀ e' ∈ k.endings, ¬ e <:+ e' ∧ ¬ e' <:+ e := by
    decide +kernel
  refine List.eq_nil_iff_forall_not_mem.mpr fun k hk => ?_
  have other := hasEnding_eq_false (apart k k.mem_all) h
  rw [(mem_ofPath_iff.mp hk).1] at other
  cases other

end FileKind

end RepoScan
