import RepoScan.Proofs.Rule

/-!
# Which rules are reported in a line

The scanner goes through the rules once and remembers whether it found a secret.  What it reports
can be told from the places of the rules: a rule that fires is reported, unless it is for secrets
and one of the rules before it is too and fires as well.

* `matchLineFrom_eq` : the matches in a line by the places of their rules, given whether a secret
  was found before;
* `Rule.matchIn_eq` : the certainty of a match;
* `Rule.secrets_matchLine_of_not_searched` : elsewhere than in configuration and backend files no
  secret is reported;
* `matchLine_selects` : **the rules that are reported, and the secret among them**, which is that of
  the history in every file in which secrets are looked for.
-/

namespace RepoScan

variable (line : Text)

/-! ### Places of rules -/

/-- The matches in a line, if a secret was found before or not. -/
theorem matchLineFrom_eq (found : Bool) (rules : List Rule) :
    matchLineFrom line found rules =
      (rules.zipIdx.filter fun p =>
        p.1.isReported line (found || findsSecret line (rules.take p.2))).map
        fun p => p.1.matchIn line := by
  -- the first rule stands at place 0, and the places of the others go up by one
  induction rules generalizing found with
  | nil => rfl
  | cons r rules ih =>
    have front : (findsSecret line ((r :: rules).take 0)) = false := rfl
    have others (p : Rule × Nat) :
        (found || findsSecret line ((r :: rules).take (p.2 + 1))) =
          ((found || r.isSecret && r.fires line) || findsSecret line (rules.take p.2)) := by
      rw [List.take_succ_cons, findsSecret_cons, Bool.or_assoc]
    rw [matchLineFrom_cons, ih, List.zipIdx_cons, List.zipIdx_succ, List.filter_cons,
      List.filter_map]
    simp only [front, Bool.or_false, Function.comp_def, others]
    cases r.isReported line found with
    | true => simp
    | false => simp

namespace Rule

/-- A match is certain where all checks of its rule hold, and has the fallback certainty
elsewhere. -/
theorem matchIn_eq (r : Rule) :
    r.matchIn line = ⟨r, if ∀ c ∈ r.checks, c.holds line = true then .high else r.fallback⟩ := by
  by_cases h : ∀ c ∈ r.checks, c.holds line = true
  · rw [matchIn, confidence_of_holds h, if_pos h]
  · rw [matchIn, confidence_of_not_holds h, if_neg h]

/-! ### Secrets in files -/

variable {kinds : List FileKind}

theorem exists_secretTargets_iff :
    (∃ k ∈ secretTargets, k ∈ kinds) ↔ .config ∈ kinds ∨ .backend ∈ kinds := by
  simp [secretTargets]

/-- No rule for secrets applies to other files than those in which secrets are looked for. -/
theorem secrets_matchLine_of_not_searched (h : ¬ ∃ k ∈ secretTargets, k ∈ kinds) :
    (matchLine line (forKinds kinds)).filter (fun m => m.rule.isSecret) = [] := by
  have nothing : secretIn? line (forKinds kinds) = none := by
    rw [secretIn?, Option.map_eq_none_iff, List.find?_eq_none]
    intro r hr hfound
    obtain ⟨hs, -⟩ := Bool.and_eq_true_iff.mp hfound
    obtain ⟨htable, happlies⟩ := List.mem_filter.mp hr
    rw [appliesTo, targets_of_isSecret r htable hs, List.any_eq_true] at happlies
    obtain ⟨k, hk, hkinds⟩ := happlies
    exact h ⟨k, hk, List.contains_iff_mem.mp hkinds⟩
  rw [secrets_matchLine, nothing]
  rfl

/-- The secret in a line of a file, if secrets are looked for in it, is that of the history. -/
theorem secrets_matchLine_eq (kinds : List FileKind) :
    (matchLine line (forKinds kinds)).filter (fun m => m.rule.isSecret) =
      if .config ∈ kinds ∨ .backend ∈ kinds then (firstMatch? line secretTable).toList else [] := by
  by_cases h : ∃ k ∈ secretTargets, k ∈ kinds
  · rw [secrets_matchLine_forKinds h, firstMatch?_secretTable,
      if_pos (exists_secretTargets_iff.mp h)]
  · rw [exists_secretTargets_iff] at h
    rw [if_neg h, secrets_matchLine_of_not_searched]
    rwa [exists_secretTargets_iff]

end Rule

/-- **The matches in a line** are those of the rules that fire, in order, but of the rules for
secrets only the first one that fires has a match.  The secret among the matches is the same in the
history and in every file in which secrets are looked for, and there is none in other files. -/
theorem matchLine_selects :
    (∀ rules : List Rule, matchLine line rules =
      (rules.zipIdx.filter fun (r, i) =>
        r.fires line && !(r.isSecret && findsSecret line (rules.take i))).map
        fun (r, _) =>
          ⟨r, if ∀ c ∈ r.checks, c.holds line = true then .high else r.fallback⟩) ∧
    ∀ path : Text,
      (matchLine line (Rule.forKinds (FileKind.ofPath path))).filter (fun m => m.rule.isSecret) =
        if .config ∈ FileKind.ofPath path ∨ .backend ∈ FileKind.ofPath path then
          (firstMatch? line Rule.secretTable).toList
        else [] := by
  refine ⟨fun rules => ?_, fun path => Rule.secrets_matchLine_eq line _⟩
  rw [matchLine, matchLineFrom_eq]
  simp only [Rule.matchIn_eq, Bool.false_or, Rule.isReported]

end RepoScan
