import RepoScan.Triage

/-!
# What triage keeps

Triage puts a score and a category on each finding, drops what is no issue, and then what ignore
rules accept.  It keeps the order of the findings.

* `triage_eq` : triage as a selection from the enriched findings;
* `triage_nil` : without ignore rules only false positives are dropped, and triage cannot fail;
* `triage_sound` : all that is kept is enriched, no false positive, and matched by no rule.
-/

namespace RepoScan

/-! ### Enrichment -/

namespace Finding

variable (f : Finding)

@[simp] theorem isEnriched_enrich : f.enrich.isEnriched = true := rfl

@[simp] theorem description_enrich : f.enrich.description = f.description := rfl

@[simp] theorem line_enrich : f.enrich.line = f.line := rfl

@[simp] theorem isFalsePositive_enrich : f.enrich.isFalsePositive = f.isFalsePositive := rfl

end Finding

/-- The findings that are issues, enriched. -/
def issues (fs : List Finding) : List Finding :=
  (fs.filter fun f => !f.isFalsePositive).map Finding.enrich

theorem dropFalsePositives_enrich (fs : List Finding) :
    dropFalsePositives (fs.map Finding.enrich) = .ok (issues fs) := by
  have enriched : ((fs.map Finding.enrich).any fun f => !f.isEnriched) = false := by
    rw [List.any_eq_false]
    intro f hf
    obtain ⟨g, -, rfl⟩ := List.mem_map.mp hf
    simp
  unfold dropFalsePositives issues
  rw [enriched, List.filter_map]
  rfl

theorem triage_eq (rules : List IgnoreRule) (today : Date) (fs : List Finding) :
    triage rules today fs = IgnoreRule.filterFindings rules today (issues fs) := by
  unfold triage
  rw [dropFalsePositives_enrich]
  rfl

/-! ### Ignore rules -/

namespace IgnoreRule

variable {rules : List IgnoreRule} {today : Date}

theorem anyMatches_false {f : Finding} (h : anyMatches today f rules = .ok false) :
    ∀ r ∈ rules, r.matchesOn today f = .ok false := by
  induction rules with
  | nil => exact nofun
  | cons r rs ih =>
    rw [anyMatches] at h
    cases hr : r.matchesOn today f with
    | error e =>
      rw [hr] at h
      cases h
    | ok b =>
      rw [hr] at h
      cases b with
      | true => cases h
      | false =>
        intro r' hr'
        rcases List.mem_cons.mp hr' with rfl | hr'
        · exact hr
        · exact ih h r' hr'

theorem filterFindings_ok {fs out : List Finding} (h : filterFindings rules today fs = .ok out) :
    out.Sublist fs ∧ ∀ f ∈ out, ∀ r ∈ rules, r.matchesOn today f = .ok false := by
  induction fs generalizing out with
  | nil =>
    cases h
    exact ⟨.slnil, nofun⟩
  | cons f fs ih =>
    rw [filterFindings] at h
    cases hm : anyMatches today f rules with
    | error e =>
      rw [hm] at h
      cases h
    | ok ignored =>
      cases hk : filterFindings rules today fs with
      | error e =>
        rw [hm, hk] at h
        cases h
      | ok kept =>
        rw [hm, hk] at h
        obtain ⟨hsub, hno⟩ := ih hk
        -- the finding is kept only where no rule matches it
        cases ignored with
        | true =>
          cases h
          exact ⟨.cons f hsub, hno⟩
        | false =>
          cases h
          refine ⟨hsub.cons_cons f, fun g hg => ?_⟩
          rcases List.mem_cons.mp hg with rfl | hg
          · exact anyMatches_false hm
          · exact hno g hg

theorem filterFindings_nil (fs : List Finding) : filterFindings [] today fs = .ok fs := by
  induction fs with
  | nil => rfl
  | cons f fs ih =>
    rw [filterFindings, ih]
    rfl

end IgnoreRule

/-! ### Triage -/

/-- **Without ignore rules triage only drops false positives.** -/
theorem triage_nil (today : Date) (fs : List Finding) : triage [] today fs = .ok (issues fs) := by
  rw [triage_eq, IgnoreRule.filterFindings_nil]

/-- **All that triage keeps is an issue that no rule accepts.** -/
theorem triage_sound {rules : List IgnoreRule} {today : Date} {fs out : List Finding}
    (h : triage rules today fs = .ok out) :
    ∀ f ∈ out, f.isEnriched = true ∧ f.isFalsePositive = false ∧
      ∀ r ∈ rules, r.matchesOn today f = .ok false := by
  rw [triage_eq] at h
  obtain ⟨hsub, hno⟩ := IgnoreRule.filterFindings_ok h
  intro f hf
  obtain ⟨g, hg, rfl⟩ := List.mem_map.mp (hsub.subset hf)
  refine ⟨g.isEnriched_enrich, ?_, hno _ hf⟩
  have issue := (List.mem_filter.mp hg).2
  rw [Finding.isFalsePositive_enrich]
  simpa using issue

end RepoScan
