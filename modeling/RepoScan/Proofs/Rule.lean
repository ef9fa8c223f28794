import RepoScan.Proofs.Detection
import RepoScan.Triage

/-!
# The table of rules

What holds of all rules in the table.  A description names one rule only and does not speak of an
example, secrets are looked for in the same kinds of files, and the fallback certainties are such
that triage keeps every secret and drops every other match whose checks fail.

* `Rule.isTrusted_iff` : the matches that triage keeps, as far as their certainty goes;
* `Rule.findsSecret_filter` : a rule for secrets is preceded by the same rules for secrets whatever
  the kinds of files are;
* `Rule.matchLine_secretTable` : the rules for secrets report one secret in a line at most;
* `Rule.firstMatch?_secretTable`, `Rule.secrets_matchLine_forKinds` : the secret in a line is the
  same in a file and in the history;
* `Rule.nameIn?_append` : the rule of a finding can be told from its description.
-/

namespace RepoScan.Rule

theorem description_nodup : (table.map description).Nodup := by decide +kernel

theorem exampleMark_description :
    ∀ r ∈ table, exampleMark.occursIn r.description = false := by decide +kernel

theorem fallback_of_isSecret : ∀ r ∈ table, r.isSecret = true → r.fallback = .medium := by decide

theorem fallback_of_not_isSecret :
    ∀ r ∈ table, r.isSecret = false → r.fallback = .low ∧ r.severity ≠ .critical := by decide

theorem targets_of_isSecret : ∀ r ∈ table, r.isSecret = true → r.targets = secretTargets := by
  decide

theorem kind_eq_secret : ∀ r ∈ table, (r.kind == .secret) = r.isSecret := by decide

theorem fires_nil_of_isSecret : ∀ r ∈ table, r.isSecret = true → r.fires [] = false := by
  decide +kernel

theorem name_of_isPrefixOf : ∀ q ∈ table, ∀ r ∈ table,
    q.description.isPrefixOf r.description = true → q.name = r.name := by decide +kernel

variable {r : Rule} {line : Text}

/-- The certainty of a match is enough for triage. -/
def isTrusted (r : Rule) (line : Text) : Bool :=
  !(r.confidence line == .low && r.severity != .critical)

theorem confidence_of_holds (h : ∀ c ∈ r.checks, c.holds line = true) :
    r.confidence line = .high := by
  have answers : (r.evaluate line).all id = true := by
    rw [evaluate, List.all_map, List.all_eq_true]
    exact h
  rw [confidence, certainty, if_pos answers]

theorem confidence_of_not_holds (h : ¬ ∀ c ∈ r.checks, c.holds line = true) :
    r.confidence line = r.fallback := by
  have answers : ¬ (r.evaluate line).all id = true := by
    rw [evaluate, List.all_map, List.all_eq_true]
    exact h
  rw [confidence, certainty, if_neg answers]

/-- Triage trusts secrets, and other matches where all checks hold. -/
theorem isTrusted_iff (hr : r ∈ table) :
    r.isTrusted line = true ↔
      r.isSecret = true ∨ ∀ c ∈ r.checks, c.holds line = true := by
  by_cases hc : ∀ c ∈ r.checks, c.holds line = true
  · rw [isTrusted, confidence_of_holds hc]
    exact iff_of_true rfl (Or.inr hc)
  · rw [isTrusted, confidence_of_not_holds hc]
    cases hs : r.isSecret with
    | true =>
      rw [fallback_of_isSecret r hr hs]
      exact iff_of_true rfl (Or.inl rfl)
    | false =>
      obtain ⟨hf, hv⟩ := fallback_of_not_isSecret r hr hs
      rw [hf]
      simp [hv, hc]

theorem findsSecret_eq_false_iff {rules : List Rule} :
    findsSecret line rules = false ↔ ∀ q ∈ rules, q.isSecret = true → q.fires line = false := by
  rw [findsSecret, List.any_eq_false]
  refine forall₂_congr fun q _ => ?_
  cases q.isSecret <;> cases q.fires line <;> decide

/-- All rules for secrets apply to the same kinds of files. -/
theorem findsSecret_filter {kinds : List FileKind} {rules : List Rule}
    (hsub : ∀ q ∈ rules, q ∈ table) (hr : r ∈ table) (hs : r.isSecret = true)
    (ha : r.appliesTo kinds = true) :
    findsSecret line (rules.filter (·.appliesTo kinds)) = findsSecret line rules := by
  have applies {q : Rule} (hq : q ∈ rules) (hqs : q.isSecret = true) :
      q.appliesTo kinds = true := by
    have same : q.targets = r.targets :=
      (targets_of_isSecret q (hsub q hq) hqs).trans (targets_of_isSecret r hr hs).symm
    rw [appliesTo, same]
    exact ha
  rw [findsSecret, findsSecret, List.any_filter, Bool.eq_iff_iff, List.any_eq_true,
    List.any_eq_true]
  constructor
  · rintro ⟨q, hq, h⟩
    exact ⟨q, hq, (Bool.and_eq_true_iff.mp h).2⟩
  · rintro ⟨q, hq, h⟩
    exact ⟨q, hq, Bool.and_eq_true_iff.mpr ⟨applies hq (Bool.and_eq_true_iff.mp h).1, h⟩⟩

/-! ### Secrets -/

theorem secretIn?_nil : secretIn? [] table = none := by
  rw [secretIn?, Option.map_eq_none_iff, List.find?_eq_none]
  intro r hr h
  obtain ⟨hs, hf⟩ := Bool.and_eq_true_iff.mp h
  rw [fires_nil_of_isSecret r hr hs] at hf
  cases hf

/-- All that the rules for secrets report in a line is one secret. -/
theorem matchLine_secretTable (line : Text) :
    matchLine line secretTable = (secretIn? line table).toList := by
  have all : (matchLine line secretTable).filter (fun m => m.rule.isSecret) =
      matchLine line secretTable := by
    refine List.filter_eq_self.mpr fun m hm => ?_
    have hr := (rules_matchLineFrom_sublist secretTable line false).subset (List.mem_map_of_mem hm)
    exact (List.mem_filter.mp hr).2
  rw [← all, secrets_matchLine, secretTable, secretIn?_filter _ _ fun _ _ hs => hs]

/-- The secret in a line of the history. -/
theorem firstMatch?_secretTable (line : Text) :
    firstMatch? line secretTable = secretIn? line table := by
  rw [firstMatch?, matchLine_secretTable]
  cases secretIn? line table <;> rfl

/-- The secret in a line of a file in which secrets are looked for. -/
theorem secrets_matchLine_forKinds {kinds : List FileKind}
    (h : ∃ k ∈ secretTargets, k ∈ kinds) (line : Text) :
    (matchLine line (forKinds kinds)).filter (fun m => m.rule.isSecret) =
      (secretIn? line table).toList := by
  rw [secrets_matchLine, forKinds, secretIn?_filter]
  intro r hr hs
  obtain ⟨k, hk, hkinds⟩ := h
  rw [appliesTo, targets_of_isSecret r hr hs, List.any_eq_true]
  exact ⟨k, hk, List.contains_iff_mem.mpr hkinds⟩

/-! ### Names -/

/-- The name of the rule that a description is about. -/
def nameIn? (description : Text) : Option Text :=
  (table.find? fun r => r.description.isPrefixOf description).map name

/-- A description names its rule, whatever follows. -/
theorem nameIn?_append (hr : r ∈ table) (t : Text) :
    nameIn? (r.description ++ t) = some r.name := by
  have own : r.description.isPrefixOf (r.description ++ t) = true :=
    List.isPrefixOf_iff_prefix.mpr (List.prefix_append _ _)
  cases hf : table.find? fun q => q.description.isPrefixOf (r.description ++ t) with
  | none => exact absurd own (List.find?_eq_none.mp hf r hr)
  | some q =>
    have hq := List.mem_of_find?_eq_some hf
    have found := List.find?_some hf
    have prefixed : q.description <+: r.description ++ t := List.isPrefixOf_iff_prefix.mp found
    rw [nameIn?, hf, Option.map_some]
    -- of two descriptions that begin the same text one begins the other
    rcases List.prefix_or_prefix_of_prefix prefixed (List.prefix_append _ t) with h | h
    · rw [name_of_isPrefixOf q hq r hr (List.isPrefixOf_iff_prefix.mpr h)]
    · rw [name_of_isPrefixOf r hr q hq (List.isPrefixOf_iff_prefix.mpr h)]

end RepoScan.Rule
