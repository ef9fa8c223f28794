import RepoScan.Proofs.Suppression

/-!
# Ignore rules that end

A rule ends, if there is a last day on which it matches findings.  A mapping of an ignore file can
give anything for the end of its rule: the value at one key, or at another one if nothing is at the
first.  What is given is not always understood, and then the rule is read as one without an end.

* `IgnoreRule.expiryOf_eq_none_iff` : the values that are understood are days, moments and the
  texts that spell days;
* `IgnoreRule.takesEffect_iff` : a rule with an expiry ends, and a rule without one only if there is
  nothing that it covers;
* `IgnoreRule.takesEffect_load_iff` : **the rules of an ignore file that end** are those whose
  mappings give an end that is understood.
-/

namespace RepoScan

open Yaml (Place)

/-- Years have no last one here, so there is a day after each day. -/
theorem Date.exists_after (d : Date) : ∃ today, d.before today = true := by
  refine ⟨⟨d.year + 1, 1, 1⟩, ?_⟩
  have later : d.year < d.year + 1 := Nat.lt_succ_self _
  simp [before, later]

namespace IgnoreRule

variable {rules : List IgnoreRule} {r : IgnoreRule} {place : Place} {es : List (Value × Place)}
  {room : Nat} {files : Files} {p : Path}

/-- The rule has a last day, after which it matches no finding. -/
def TakesEffect (r : IgnoreRule) : Prop :=
  ∃ last : Date, ∀ today, last.before today = true → ∀ f, r.matchesOn today f ≠ .ok true

/-- A value that is understood as the end of a rule. -/
inductive NamesEnd (place : Place) : Prop where
  | day (d : Date) (h : place.scalar? = some (.date d))
  | moment (m : Moment) (h : place.scalar? = some (.moment m))
  | spelled (t : Text) (d : Date) (h : place.scalar? = some (.text t)) (hd : Date.readIso t = .ok d)

/-! ### Values that are understood -/

theorem exists_expiryOf_iff : (∃ expiry, expiryOf place = some expiry) ↔ NamesEnd place := by
  constructor
  · rintro ⟨expiry, h⟩
    unfold expiryOf at h
    split at h
    · exact .day _ ‹_›
    · exact .moment _ ‹_›
    · obtain ⟨d, hd, -⟩ := Option.map_eq_some_iff.mp h
      exact .spelled _ d ‹_› (toOption_eq_some_iff.mp hd)
    · cases h
  · rintro (⟨d, h⟩ | ⟨m, h⟩ | ⟨t, d, h, hd⟩)
    · exact ⟨.day d, by rw [expiryOf, h]⟩
    · exact ⟨.moment m, by rw [expiryOf, h]⟩
    · refine ⟨.day d, ?_⟩
      have hiso : Date.ofIso? t = some d := toOption_eq_some_iff.mpr hd
      simp only [expiryOf, h, hiso, Option.map_some]

/-- What is not understood is no expiry. -/
theorem expiryOf_eq_none_iff : expiryOf place = none ↔ ¬ NamesEnd place := by
  rw [← exists_expiryOf_iff, ← Option.isSome_iff_exists, Option.not_isSome_iff_eq_none]

instance (place : Place) : Decidable (NamesEnd place) :=
  decidable_of_iff ((expiryOf place).isSome = true)
    (Option.isSome_iff_exists.trans exists_expiryOf_iff)

/-! ### Rules that end -/

/-- A rule with an expiry ends, and one without an expiry only if there is nothing that it
covers. -/
theorem takesEffect_iff : r.TakesEffect ↔ r.expiry ≠ none ∨ ∀ f, r.covers f = false := by
  cases he : r.expiry with
  | none =>
    have unending : r.TakesEffect ↔ ∀ f, r.covers f = false := by
      constructor
      · rintro ⟨last, h⟩ f
        obtain ⟨today, htoday⟩ := last.exists_after
        have unmatched := h today htoday f
        rw [matchesOn_of_permanent he] at unmatched
        simpa using unmatched
      · intro h
        refine ⟨⟨1, 1, 1⟩, fun today _ f => ?_⟩
        rw [matchesOn_of_permanent he, h f]
        nofun
    rw [unending]
    simp
  | some expiry =>
    refine iff_of_true ?_ (.inl nofun)
    cases expiry with
    | day d =>
      refine ⟨d, fun today htoday f => ?_⟩
      rw [matchesOn_of_day he, htoday]
      nofun
    | moment m =>
      -- the rule fails for every finding, so it does not match one
      refine ⟨m.date, fun today _ f => ?_⟩
      rw [matchesOn_of_endsAtMoment ⟨m, he⟩]
      nofun

/-- **The rules of an ignore file that end**: a mapping in its list has a rule, at the same place,
without an expiry exactly where what the mapping gives is not understood, and the rule ends exactly
where it is understood or the rule covers nothing. -/
theorem takesEffect_load_iff (h : load room files p = .ok rules) {i : Nat}
    (hes : (mappingsAt room files p)[i]? = some es) :
    ∃ r, rules[i]? = some r ∧ (r.expiry = none ↔ ¬ NamesEnd (endOf es)) ∧
      (r.TakesEffect ↔ NamesEnd (endOf es) ∨ ∀ f, r.covers f = false) := by
  obtain ⟨hlength, hrule⟩ := List.forall₂_iff_get.mp (forall₂_mappingsAt h)
  obtain ⟨hi, rfl⟩ := List.getElem?_eq_some_iff.mp hes
  have hr := hrule i hi (hlength ▸ hi)
  have hexpiry : rules[i].expiry = expiryOf (endOf (mappingsAt room files p)[i]) :=
    expiry_eq_of_ofEntries hr
  refine ⟨rules[i], List.getElem?_eq_getElem _, ?_, ?_⟩
  · rw [hexpiry]
    exact expiryOf_eq_none_iff
  · rw [takesEffect_iff, hexpiry, Ne, expiryOf_eq_none_iff, not_not]

/-- A date that is quoted is text, but it is understood. -/
theorem takesEffect_quoted :
    ∃ (rules : List IgnoreRule) (r : IgnoreRule),
      load 985 (sampleFiles "\"20300101\"") samplePath = .ok rules ∧ rules[0]? = some r ∧
        r.TakesEffect := by
  have hread : (load 985 (sampleFiles "\"20300101\"") samplePath).isOk = true := by
    simp only [load, Files.document?, Yaml.Document.read_eq]
    decide +kernel
  have hend : ∃ es ∈ (mappingsAt 985 (sampleFiles "\"20300101\"") samplePath)[0]?,
      NamesEnd (endOf es) := by
    simp only [mappingsAt, Files.document?, Yaml.Document.read_eq]
    decide +kernel
  obtain ⟨rules, h⟩ := exists_of_isOk hread
  obtain ⟨es, hes, hend⟩ := hend
  obtain ⟨r, hr, -, htakes⟩ := takesEffect_load_iff h hes
  exact ⟨rules, r, h, hr, htakes.mpr (.inl hend)⟩

/-- A finding in a file of others. -/
def sampleFinding : Finding :=
  ⟨.secret, .high, .high, "Secret detected", "vendor/a.js", 1, none, none, none⟩

/-- What is given for the end of a rule may be lost: a word is read without complaint, and its rule
matches the findings of the vendored files on all days. -/
theorem not_forall_takesEffect :
    ¬ ∀ room files p rules, load room files p = .ok rules →
      ∀ (i : Nat) es, (mappingsAt room files p)[i]? = some es →
        (Place.get "until" es).isTruthy = true ∨ (Place.get "expires" es).isTruthy = true →
          ∃ r, rules[i]? = some r ∧ r.TakesEffect := by
  intro claimed
  have hread : ∃ r ∈ (load 985 (sampleFiles "soon") samplePath).toOption.bind (·[0]?),
      r.expiry = none ∧ r.covers sampleFinding = true := by
    simp only [load, Files.document?, Yaml.Document.read_eq]
    decide +kernel
  have hgiven : ∃ es ∈ (mappingsAt 985 (sampleFiles "soon") samplePath)[0]?,
      (Place.get "until" es).isTruthy = true := by
    simp only [mappingsAt, Files.document?, Yaml.Document.read_eq]
    decide +kernel
  obtain ⟨r, hr, hexpiry, hcovers⟩ := hread
  obtain ⟨es, hes, huntil⟩ := hgiven
  obtain ⟨rules, hload, hfirst⟩ := Option.bind_eq_some_iff.mp hr
  have h := toOption_eq_some_iff.mp hload
  obtain ⟨r', hr', htakes⟩ := claimed _ _ _ rules h 0 es (Option.mem_def.mp hes) (.inl huntil)
  obtain rfl : r = r' := Option.some.inj (hfirst.symm.trans hr')
  rcases takesEffect_iff.mp htakes with hsome | hnothing
  · exact hsome hexpiry
  · rw [hnothing sampleFinding] at hcovers
    cases hcovers

end IgnoreRule

end RepoScan
