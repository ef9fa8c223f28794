import RepoScan.Proofs.Triage.Algebra

/-!
# Rules together, and as time passes

The ignore rules of a project come from lists that grow, and they are asked on one day after the
other.  Where no rule ends at a moment, neither matters more than it should.

* `IgnoreRule.accepts_antitone` : what a rule matches on a day it has matched on all days before;
* `IgnoreRule.spared_append`, `spared_comm` : lists of rules one after the other, in either order;
* `IgnoreRule.spared_sublist_later` : as time passes, more findings are spared;
* `IgnoreRule.filterFindings_composes` : **filtering by lists of rules** is filtering by one after
  the other; it spares what no rule matches, and on a later day it drops nothing new.
-/

namespace RepoScan

theorem Date.not_before_trans {a b c : Date} (h : a.before b = false) (h' : b.before c = false) :
    a.before c = false := by
  simp only [before, Bool.or_eq_false_iff, Bool.and_eq_false_iff, decide_eq_false_iff_not]
    at h h' ⊢
  omega

namespace IgnoreRule

variable {rules more : List IgnoreRule} {r : IgnoreRule} {today later : Date} {f : Finding}

/-! ### One rule over time -/

/-- A rule with an expiry is over from some day on, and nothing else about it changes. -/
theorem accepts_antitone (hlater : later.before today = false) (h : r.accepts later f = true) :
    r.accepts today f = true := by
  unfold accepts at h ⊢
  cases he : r.expiry with
  | none => simpa only [matchesOn_of_permanent he] using h
  | some expiry =>
    cases expiry with
    | day last =>
      simp only [matchesOn_of_day he, Bool.and_eq_true, Bool.not_eq_true'] at h ⊢
      obtain ⟨running, covered⟩ := h
      exact ⟨Date.not_before_trans running hlater, covered⟩
    | moment m => simp [matchesOn_of_endsAtMoment ⟨m, he⟩] at h

/-! ### Lists of rules -/

/-- The findings that none of the rules matches on a day. -/
def spared (rules : List IgnoreRule) (today : Date) (fs : List Finding) : List Finding :=
  fs.filter fun f => rules.all fun r => !r.accepts today f

theorem filterFindings_eq_spared (h : ∀ r ∈ rules, ¬ r.EndsAtMoment) (today : Date)
    (fs : List Finding) : filterFindings rules today fs = .ok (spared rules today fs) := by
  rw [filterFindings_eq h, spared]
  simp only [accepted, List.not_any_eq_all_not]

/-- What two lists of rules spare is what the second one spares of what the first one does. -/
theorem spared_append (fs : List Finding) :
    spared (rules ++ more) today fs = spared more today (spared rules today fs) := by
  unfold spared
  rw [List.filter_filter]
  refine List.filter_congr fun f _ => ?_
  rw [List.all_append, Bool.and_comm]

/-- The order of the rules does not matter. -/
theorem spared_comm (fs : List Finding) :
    spared (rules ++ more) today fs = spared (more ++ rules) today fs := by
  refine List.filter_congr fun f _ => ?_
  rw [List.all_append, List.all_append, Bool.and_comm]

theorem spared_sublist (fs : List Finding) : (spared rules today fs).Sublist fs :=
  List.filter_sublist

/-- The passing of time only spares more. -/
theorem spared_sublist_later (hlater : later.before today = false) (fs : List Finding) :
    (spared rules today fs).Sublist (spared rules later fs) := by
  refine List.monotone_filter_right fs fun f hf => ?_
  simp only [List.all_eq_true, Bool.not_eq_true'] at hf ⊢
  intro r hr
  refine Bool.eq_false_iff.mpr fun matched => ?_
  exact Bool.eq_false_iff.mp (hf r hr) (accepts_antitone hlater matched)

/-- **Filtering by lists of rules** that end with days or not at all: it comes to the same whether
the lists are applied one after the other or together, in either order.  What it gives are, in their
order, the findings that no rule matches on the day, and on a later day it gives them again. -/
theorem filterFindings_composes (h : ∀ r ∈ rules ++ more, ¬ r.EndsAtMoment) (today : Date)
    (fs : List Finding) :
    ∃ kept, filterFindings (rules ++ more) today fs = .ok kept ∧
      (filterFindings rules today fs >>= filterFindings more today) = .ok kept ∧
      filterFindings (more ++ rules) today fs = .ok kept ∧
      kept.Sublist fs ∧
      (kept = fs.filter fun f => (rules ++ more).all fun r => !r.accepts today f) ∧
      ∀ later, later.before today = false →
        ∃ kept', filterFindings (rules ++ more) later fs = .ok kept' ∧ kept.Sublist kept' := by
  obtain ⟨hrules, hmore⟩ := List.forall_mem_append.mp h
  have swapped : ∀ r ∈ more ++ rules, ¬ r.EndsAtMoment := List.forall_mem_append.mpr ⟨hmore, hrules⟩
  refine ⟨spared (rules ++ more) today fs, filterFindings_eq_spared h today fs, ?_, ?_,
    spared_sublist fs, rfl, ?_⟩
  · rw [filterFindings_eq_spared hrules]
    change filterFindings more today _ = _
    rw [filterFindings_eq_spared hmore, spared_append]
  · rw [filterFindings_eq_spared swapped, spared_comm]
  · intro later hlater
    exact ⟨_, filterFindings_eq_spared h later fs, spared_sublist_later hlater fs⟩

/-- A rule that accepts for good what speaks of keys, if it is a secret. -/
def keyRule : IgnoreRule where
  paths := []
  descriptions := ["access key"]
  kinds := ["secret"]
  expiry := none
  reason := .ofPart (.scalar .null)

/-- Of a weak hash and a key in a vendored file and in another one, the two rules leave the weak
hash in the other file; and from the day on that the first of them is over, both weak hashes. -/
theorem filterFindings_composes_vendored :
    let weakIn (file : Text) : Finding := { keyIn file with description := "Weak hash" }
    let found := [weakIn "vendor/b.py", keyIn "vendor/a.py", weakIn "src/b.py", keyIn "src/a.py"]
    (∀ r ∈ [vendoredRule] ++ [keyRule], ¬ r.EndsAtMoment) ∧
      Date.before ⟨2030, 1, 2⟩ ⟨2030, 1, 1⟩ = false ∧
      filterFindings ([vendoredRule] ++ [keyRule]) ⟨2030, 1, 1⟩ found = .ok [weakIn "src/b.py"] ∧
      (filterFindings [vendoredRule] ⟨2030, 1, 1⟩ found >>=
        filterFindings [keyRule] ⟨2030, 1, 1⟩) = .ok [weakIn "src/b.py"] ∧
      filterFindings ([keyRule] ++ [vendoredRule]) ⟨2030, 1, 1⟩ found = .ok [weakIn "src/b.py"] ∧
      filterFindings ([vendoredRule] ++ [keyRule]) ⟨2030, 1, 2⟩ found =
        .ok [weakIn "vendor/b.py", weakIn "src/b.py"] ∧
      [weakIn "src/b.py"].Sublist [weakIn "vendor/b.py", weakIn "src/b.py"] := by
  intro weakIn found
  have days : ∀ r ∈ [vendoredRule] ++ [keyRule], ¬ r.EndsAtMoment := by
    simp only [List.cons_append, List.nil_append, List.forall_mem_cons]
    refine ⟨?_, ?_, nofun⟩
    · rintro ⟨m, hm⟩
      cases hm
    · rintro ⟨m, hm⟩
      cases hm
  have order : Date.before ⟨2030, 1, 2⟩ ⟨2030, 1, 1⟩ = false := by decide
  obtain ⟨kept, hkept, hparts, hswapped, -, heq, hlater⟩ :=
    filterFindings_composes days ⟨2030, 1, 1⟩ found
  obtain ⟨kept', hkept', hsub⟩ := hlater ⟨2030, 1, 2⟩ order
  obtain rfl : kept = [weakIn "src/b.py"] := heq.trans (by decide +kernel)
  obtain ⟨_, hagain, -, -, -, heq', -⟩ := filterFindings_composes days ⟨2030, 1, 2⟩ found
  obtain rfl := Except.ok.inj (hkept'.symm.trans hagain)
  obtain rfl : kept' = [weakIn "vendor/b.py", weakIn "src/b.py"] := heq'.trans (by decide +kernel)
  exact ⟨days, order, hkept, hparts, hswapped, hkept', hsub⟩

end IgnoreRule

end RepoScan
