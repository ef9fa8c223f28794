import RepoScan.Proofs.Suppression

/-!
# The algebra of triage

Where no rule ends at a moment, triage cannot fail.  It is then a selection followed by enrichment:
each finding is kept or dropped by itself, and enrichment changes nothing that the selection looks
at.

* `IgnoreRule.filterFindings_eq` : filtering by ignore rules is a selection;
* `triage_eq_openFindings` : triage is a selection, and enrichment of what is selected;
* `Finding.enrich_eq` : what enrichment adds to a finding;
* `triage_laws` : **triage distributes over lists and is idempotent**, its two filters commute, and
  it keeps exactly the findings that are neither false positives nor accepted by a rule.
-/

namespace RepoScan

/-! ### Enrichment -/

/-- Marks for labels, of which only the one for `own` is set. -/
def Flags.only (labels : List Text) (own : Text) : Flags := labels.map fun l => (l, l == own)

namespace Finding

variable (f : Finding)

theorem beq_kind_eq (k : FindingKind) : (f.kind == k) = (k.label == f.kind.label) := by
  cases f.kind <;> cases k <;> decide

theorem beq_severity_eq (s : Severity) : (f.severity == s) = (s.label == f.severity.label) := by
  cases f.severity <;> cases s <;> decide

/-- **What enrichment adds**: the weight of the severity with the bonus of the path, and marks for
kind, severity and location. -/
theorem enrich_eq :
    f.enrich = { f with
      score := some (f.severity.weight + pathBonus f.file)
      category := some {
        byKind := Flags.only (FindingKind.all.map FindingKind.label) f.kind.label
        bySeverity := Flags.only (Severity.all.map Severity.label) f.severity.label
        byLocation := locationFlags f.file } } := by
  simp only [enrich, computedScore, scoreAt, categorize, Flags.only, List.map_map,
    Function.comp_def, beq_kind_eq, beq_severity_eq]

@[simp] theorem enrich_enrich : f.enrich.enrich = f.enrich := rfl

end Finding

/-! ### Selection -/

namespace IgnoreRule

variable {rules : List IgnoreRule} {r : IgnoreRule} {today : Date} {f : Finding}

/-- The rule matches the finding on a day.  One that cannot be asked does not. -/
def accepts (r : IgnoreRule) (today : Date) (f : Finding) : Bool :=
  match r.matchesOn today f with
  | .ok b => b
  | .error _ => false

/-- Some of the rules match the finding on a day. -/
def accepted (rules : List IgnoreRule) (today : Date) (f : Finding) : Bool :=
  rules.any fun r => r.accepts today f

theorem matchesOn_eq (h : ¬ r.EndsAtMoment) : r.matchesOn today f = .ok (r.accepts today f) := by
  obtain ⟨b, hb⟩ := exists_matchesOn h today f
  rw [accepts, hb]

theorem anyMatches_eq (h : ∀ r ∈ rules, ¬ r.EndsAtMoment) (today : Date) (f : Finding) :
    anyMatches today f rules = .ok (accepted rules today f) := by
  induction rules with
  | nil => rfl
  | cons r rules ih =>
    obtain ⟨hr, hrules⟩ := List.forall_mem_cons.mp h
    rw [anyMatches_cons_of_ok (matchesOn_eq hr), ih hrules]
    change _ = Except.ok (r.accepts today f || accepted rules today f)
    cases r.accepts today f <;> rfl

/-- **Filtering by rules that end with days is a selection.** -/
theorem filterFindings_eq (h : ∀ r ∈ rules, ¬ r.EndsAtMoment) (today : Date) (fs : List Finding) :
    filterFindings rules today fs = .ok (fs.filter fun f => !accepted rules today f) := by
  induction fs with
  | nil => rfl
  | cons f fs ih =>
    rw [filterFindings, anyMatches_eq h, ih, List.filter_cons]
    cases accepted rules today f <;> rfl

end IgnoreRule

theorem dropFalsePositives_eq {fs : List Finding} (h : ∀ f ∈ fs, f.isEnriched = true) :
    dropFalsePositives fs = .ok (fs.filter fun f => !f.isFalsePositive) := by
  have enriched : (fs.any fun f => !f.isEnriched) = false := by
    rw [List.any_eq_false]
    intro f hf
    simp [h f hf]
  rw [dropFalsePositives, enriched]
  rfl

/-! ### Triage -/

variable {rules : List IgnoreRule} {today : Date}

/-- The finding is no false positive, and none of the rules matches it on a day. -/
def isOpen (rules : List IgnoreRule) (today : Date) (f : Finding) : Bool :=
  !f.isFalsePositive && !IgnoreRule.accepted rules today f

/-- Neither the test for false positives nor the rules look at what enrichment adds. -/
@[simp] theorem isOpen_enrich (f : Finding) : isOpen rules today f.enrich = isOpen rules today f :=
  rfl

/-- The findings that are open, enriched. -/
def openFindings (rules : List IgnoreRule) (today : Date) (fs : List Finding) : List Finding :=
  (fs.filter (isOpen rules today)).map Finding.enrich

theorem openFindings_append (xs ys : List Finding) :
    openFindings rules today (xs ++ ys) =
      openFindings rules today xs ++ openFindings rules today ys := by
  rw [openFindings, List.filter_append, List.map_append]
  rfl

theorem openFindings_openFindings (fs : List Finding) :
    openFindings rules today (openFindings rules today fs) = openFindings rules today fs := by
  have kept : ∀ f ∈ openFindings rules today fs, isOpen rules today f = true := by
    intro f hf
    obtain ⟨g, hg, rfl⟩ := List.mem_map.mp hf
    rw [isOpen_enrich]
    exact (List.mem_filter.mp hg).2
  rw [openFindings, List.filter_eq_self.mpr kept, openFindings, List.map_map]
  exact List.map_congr_left fun f _ => f.enrich_enrich

theorem filter_filter_isOpen (fs : List Finding) :
    (fs.filter fun f => !f.isFalsePositive).filter (fun f => !IgnoreRule.accepted rules today f) =
      fs.filter (isOpen rules today) := by
  rw [List.filter_filter]
  exact List.filter_congr fun f _ => Bool.and_comm _ _

/-- **Triage is a selection, and enrichment of what is selected.** -/
theorem triage_eq_openFindings (h : ∀ r ∈ rules, ¬ r.EndsAtMoment) (today : Date)
    (fs : List Finding) : triage rules today fs = .ok (openFindings rules today fs) := by
  -- the rules are asked about findings that are enriched, to the same effect
  have selected : (issues fs).filter (fun f => !IgnoreRule.accepted rules today f) =
      openFindings rules today fs := by
    rw [issues, List.filter_map, openFindings, ← filter_filter_isOpen]
    rfl
  rw [triage_eq, IgnoreRule.filterFindings_eq h, selected]

theorem filters_comm (h : ∀ r ∈ rules, ¬ r.EndsAtMoment) (today : Date) {fs : List Finding}
    (hfs : ∀ f ∈ fs, f.isEnriched = true) :
    (dropFalsePositives fs >>= IgnoreRule.filterFindings rules today) =
        .ok (fs.filter (isOpen rules today)) ∧
      (IgnoreRule.filterFindings rules today fs >>= dropFalsePositives) =
        .ok (fs.filter (isOpen rules today)) := by
  constructor
  · rw [dropFalsePositives_eq hfs]
    change IgnoreRule.filterFindings rules today _ = _
    rw [IgnoreRule.filterFindings_eq h, filter_filter_isOpen]
  · have kept : ∀ f ∈ fs.filter (fun f => !IgnoreRule.accepted rules today f),
        f.isEnriched = true := fun f hf => hfs f (List.mem_filter.mp hf).1
    rw [IgnoreRule.filterFindings_eq h]
    change dropFalsePositives _ = _
    rw [dropFalsePositives_eq kept, List.filter_filter]
    rfl

/-- **The laws of triage** on a day, for rules that end with days or not at all.  What is left of
findings is left of each of them by itself, in their order: those that are neither false positives
nor matched by a rule, with a score and a category; so triage distributes over lists, and a second
triage changes nothing.  Of enriched findings the two filters leave the same in either order. -/
theorem triage_laws (h : ∀ r ∈ rules, ¬ r.EndsAtMoment) (today : Date) :
    (∀ fs, triage rules today fs = .ok ((fs.filter fun f =>
        !f.isFalsePositive && rules.all fun r => !r.accepts today f).map fun f => { f with
          score := some (f.severity.weight + pathBonus f.file)
          category := some {
            byKind := Flags.only (FindingKind.all.map FindingKind.label) f.kind.label
            bySeverity := Flags.only (Severity.all.map Severity.label) f.severity.label
            byLocation := locationFlags f.file } })) ∧
      (∀ xs ys, ∃ left right, triage rules today xs = .ok left ∧
        triage rules today ys = .ok right ∧ triage rules today (xs ++ ys) = .ok (left ++ right)) ∧
      (∀ fs, (triage rules today fs >>= triage rules today) = triage rules today fs) ∧
      ∀ fs : List Finding, (∀ f ∈ fs, f.isEnriched = true) →
        (dropFalsePositives fs >>= IgnoreRule.filterFindings rules today) =
            (IgnoreRule.filterFindings rules today fs >>= dropFalsePositives) ∧
          ∃ kept, (dropFalsePositives fs >>= IgnoreRule.filterFindings rules today) = .ok kept := by
  refine ⟨fun fs => ?_, fun xs ys => ?_, fun fs => ?_, fun fs hfs => ?_⟩
  · have selected : (fun f => !f.isFalsePositive && rules.all fun r => !r.accepts today f) =
        isOpen rules today := by
      funext f
      rw [isOpen, IgnoreRule.accepted, List.not_any_eq_all_not]
    rw [triage_eq_openFindings h, selected, openFindings]
    exact congrArg Except.ok (List.map_congr_left fun f _ => f.enrich_eq)
  · refine ⟨_, _, triage_eq_openFindings h today xs, triage_eq_openFindings h today ys, ?_⟩
    rw [triage_eq_openFindings h, openFindings_append]
  · rw [triage_eq_openFindings h]
    change triage rules today _ = _
    rw [triage_eq_openFindings h, openFindings_openFindings]
  · obtain ⟨hleft, hright⟩ := filters_comm h today hfs
    exact ⟨hleft.trans hright.symm, _, hleft⟩

/-- A rule that accepts all findings in vendored files up to a day. -/
def vendoredRule : IgnoreRule where
  paths := ["vendor/*"]
  descriptions := []
  kinds := []
  expiry := some (.day ⟨2030, 1, 1⟩)
  reason := .ofPart (.scalar .null)

/-- A key that was found in a file. -/
def keyIn (file : Text) : Finding where
  kind := .secret
  severity := .critical
  confidence := .high
  description := "AWS access key ID exposed"
  file := file
  line := 1

/-- Up to its last day the rule takes away what was found in vendored files, and nothing after. -/
theorem triage_laws_vendored :
    (∀ r ∈ [vendoredRule], ¬ r.EndsAtMoment) ∧
      triage [vendoredRule] ⟨2030, 1, 1⟩ [keyIn "vendor/a.py", keyIn "src/auth.py"] =
        .ok [(keyIn "src/auth.py").enrich] ∧
      triage [vendoredRule] ⟨2030, 1, 2⟩ [keyIn "vendor/a.py", keyIn "src/auth.py"] =
        .ok [(keyIn "vendor/a.py").enrich, (keyIn "src/auth.py").enrich] := by
  have days : ∀ r ∈ [vendoredRule], ¬ r.EndsAtMoment := by
    rw [List.forall_mem_singleton]
    rintro ⟨m, hm⟩
    cases hm
  refine ⟨days, ((triage_laws days _).1 _).trans ?_, ((triage_laws days _).1 _).trans ?_⟩
  · exact congrArg Except.ok (by decide +kernel)
  · exact congrArg Except.ok (by decide +kernel)

end RepoScan
