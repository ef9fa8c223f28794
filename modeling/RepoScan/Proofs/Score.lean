import Mathlib.Data.Finset.Sort
import RepoScan.Proofs.Ranking
import RepoScan.Proofs.Triage
import RepoScan.Report

/-!
# Priorities

Findings are put in order by their scores.  A finding without a score has the one that its severity
and its path give, so that it makes no difference whether findings are enriched before or after.

* `ranksBy_effectiveScore` : the order goes by the score;
* `filterByLabels_eq` : filters given by labels select findings, or fail for all;
* `map_prioritise_enrich` : findings are enriched before or after;
* `prioritise_laws` : **the findings of each score, the highest first**, and what follows.
-/

namespace RepoScan

variable {xs : List Finding}

theorem ranksBy_effectiveScore :
    RanksBy Finding.effectiveScore fun a b => b.effectiveScore ≤ a.effectiveScore :=
  fun _ _ => decide_eq_true_iff

theorem Finding.effectiveScore_eq {f : Finding} (h : ∀ n ∈ f.score, n = f.computedScore) :
    f.effectiveScore = f.computedScore := by
  cases hs : f.score with
  | none => rw [effectiveScore, hs, Option.getD_none]
  | some n => rw [effectiveScore, hs, Option.getD_some, h n hs]

theorem map_prioritise_enrich (h : ∀ f ∈ xs, ∀ n ∈ f.score, n = f.computedScore) :
    (prioritise xs).map Finding.enrich = prioritise (xs.map Finding.enrich) := by
  refine List.map_mergeSort fun a ha b hb => ?_
  rw [Finding.effectiveScore_eq (h a ha), Finding.effectiveScore_eq (h b hb)]
  rfl

/-- Filters given by labels are read before any finding is looked at; then each is by itself. -/
theorem filterByLabels_eq (severity kind : Option Text) :
    ∃ p : Except Failure (Finding → Bool), ∀ fs,
      filterByLabels severity kind fs = p.map fun p => fs.filter p := by
  cases hs : filterLabel Severity.ofLabel severity with
  | error e => exact ⟨.error e, fun fs => by rw [filterByLabels, hs]; rfl⟩
  | ok s =>
    cases hk : filterLabel FindingKind.ofLabel kind with
    | error e => exact ⟨.error e, fun fs => by rw [filterByLabels, hs, hk]; rfl⟩
    | ok k =>
      refine ⟨.ok fun f => s.all (f.severity == ·) && k.all (f.kind == ·), fun fs => ?_⟩
      rw [filterByLabels, hs, hk]
      rfl

/-- **Priorities are the findings of each score**, the highest score first, each in their order.  So
they are a permutation that a second time changes nothing.  Filters select the same before and
after, or fail for the same label; and findings without scores, or with those that severity and path
give, are enriched before or after. -/
theorem prioritise_laws (xs : List Finding) :
    (∃ scores : List Int, scores.Pairwise (· > ·) ∧
        (∀ s, s ∈ scores ↔ ∃ f ∈ xs, f.effectiveScore = s) ∧
        prioritise xs = scores.flatMap fun s => xs.filter (·.effectiveScore = s)) ∧
      (prioritise xs).Perm xs ∧
      prioritise (prioritise xs) = prioritise xs ∧
      (∀ severity kind, filterByLabels severity kind (prioritise xs) =
        (filterByLabels severity kind xs).map prioritise) ∧
      ((∀ f ∈ xs, ∀ n ∈ f.score, n = f.computedScore) →
        prioritise (xs.map Finding.enrich) = (prioritise xs).map Finding.enrich) := by
  refine ⟨?_, List.mergeSort_perm xs _, ?_, fun severity kind => ?_, fun h => ?_⟩
  · let scores := (xs.map Finding.effectiveScore).toFinset.sort (· ≥ ·)
    have descending : scores.Pairwise (· > ·) := (Finset.sortedGT_sort _).pairwise
    have mem_scores (s : Int) : s ∈ scores ↔ ∃ f ∈ xs, f.effectiveScore = s := by simp [scores]
    exact ⟨scores, descending, mem_scores, ranksBy_effectiveScore.mergeSort_eq_flatMap descending
      fun f hf => (mem_scores _).mpr ⟨f, hf, rfl⟩⟩
  · refine List.mergeSort_of_pairwise ?_
    exact List.pairwise_mergeSort ranksBy_effectiveScore.trans ranksBy_effectiveScore.total xs
  · obtain ⟨p, hp⟩ := filterByLabels_eq severity kind
    rw [hp, hp]
    cases p with
    | error e => rfl
    | ok p => exact congrArg Except.ok (ranksBy_effectiveScore.mergeSort_filter p xs).symm
  · exact (map_prioritise_enrich h).symm

/-- What was found in four files; one of the findings is enriched. -/
def sampleFindings : List Finding :=
  let found (severity : Severity) (file : Text) : Finding :=
    ⟨.vulnerability, severity, .high, "finding [x]", file, 1, none, none, none⟩
  [found .low "a.py", (found .high "b.py").enrich, found .high "c.py",
    found .critical "src/auth.py"]

/-- Two findings with one score keep their order, whether enriched or not. -/
theorem prioritise_laws_sample :
    (∀ f ∈ sampleFindings, ∀ n ∈ f.score, n = f.computedScore) ∧
      (prioritise sampleFindings).map Finding.file =
        [("src/auth.py" : Text), "b.py", "c.py", "a.py"] ∧
      prioritise (sampleFindings.map Finding.enrich) =
        (prioritise sampleFindings).map Finding.enrich := by
  have scored : ∀ f ∈ sampleFindings, ∀ n ∈ f.score, n = f.computedScore := by decide
  have ranked : prioritise sampleFindings =
      ([12, 7, 1] : List Int).flatMap fun s => sampleFindings.filter (·.effectiveScore = s) :=
    ranksBy_effectiveScore.mergeSort_eq_flatMap (by decide) (by decide +kernel)
  refine ⟨scored, ?_, (prioritise_laws sampleFindings).2.2.2.2 scored⟩
  rw [ranked]
  decide +kernel

end RepoScan
