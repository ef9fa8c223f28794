import RepoScan.IgnoreFile
import RepoScan.Proofs.Result
import RepoScan.Proofs.Triage
import RepoScan.Proofs.Yaml.Keys

/-!
# Ignore files that filtering fails on

A document can give a moment as the end of a rule.  Such a rule is read like any other, but it
cannot be asked on a day, so filtering fails at a finding for which it is asked.

* `IgnoreRule.exists_anyMatches_iff` : rules can be asked about a finding, if an earlier rule spares
  those that end at a moment;
* `IgnoreRule.forall₂_mappingsAt` : the rules of an ignore file are those of its mappings, in order;
* `IgnoreRule.filterFindings_load_iff` : **filtering by an ignore file succeeds** exactly where none
  of its mappings that give moments is asked.
-/

namespace RepoScan

open Yaml (Place)

namespace IgnoreRule

variable {rules : List IgnoreRule} {r : IgnoreRule} {today : Date} {f : Finding} {fs : List Finding}

/-! ### Rules that end at a moment -/

/-- The rule ends at a moment, not with a day. -/
def EndsAtMoment (r : IgnoreRule) : Prop := ∃ m, r.expiry = some (.moment m)

theorem matchesOn_of_endsAtMoment (h : r.EndsAtMoment) :
    r.matchesOn today f = .error .momentAgainstDay := by
  obtain ⟨m, hm⟩ := h
  rw [matchesOn, isExpired, hm]
  rfl

theorem matchesOn_of_permanent (h : r.expiry = none) : r.matchesOn today f = .ok (r.covers f) := by
  rw [matchesOn, isExpired, h]
  rfl

theorem matchesOn_of_day {d : Date} (h : r.expiry = some (.day d)) :
    r.matchesOn today f = .ok (!d.before today && r.covers f) := by
  have expired : r.isExpired today = .ok (d.before today) := by rw [isExpired, h]
  rw [matchesOn, expired]
  cases d.before today <;> rfl

theorem exists_matchesOn (h : ¬ r.EndsAtMoment) (today : Date) (f : Finding) :
    ∃ b, r.matchesOn today f = .ok b := by
  cases he : r.expiry with
  | none => exact ⟨_, matchesOn_of_permanent he⟩
  | some expiry =>
    cases expiry with
    | day d => exact ⟨_, matchesOn_of_day he⟩
    | moment m => exact absurd ⟨m, he⟩ h

/-! ### Filtering -/

theorem anyMatches_cons_of_ok {b : Bool} (h : r.matchesOn today f = .ok b) :
    anyMatches today f (r :: rules) = if b then .ok true else anyMatches today f rules := by
  rw [anyMatches, h]
  rfl

theorem forall_getElem?_cons {α : Type} {P : Nat → α → Prop} {x : α} {xs : List α} :
    (∀ i y, (x :: xs)[i]? = some y → P i y) ↔ P 0 x ∧ ∀ i y, xs[i]? = some y → P (i + 1) y := by
  constructor
  · intro h
    exact ⟨h 0 x rfl, fun i y hi => h (i + 1) y hi⟩
  · rintro ⟨hx, hxs⟩ i y hi
    cases i with
    | zero =>
      cases hi
      exact hx
    | succ i => exact hxs i y hi

/-- Rules can be asked about a finding, if each of them that ends at a moment comes after one that
matches. -/
theorem exists_anyMatches_iff :
    (∃ b, anyMatches today f rules = .ok b) ↔
      ∀ i r, rules[i]? = some r → r.EndsAtMoment →
        ∃ earlier ∈ rules.take i, earlier.matchesOn today f = .ok true := by
  induction rules with
  | nil => exact iff_of_true ⟨false, rfl⟩ nofun
  | cons r rs ih =>
    rw [forall_getElem?_cons]
    by_cases hr : r.EndsAtMoment
    · -- nothing comes before the rule
      refine iff_of_false ?_ fun h => ?_
      · rintro ⟨b, hb⟩
        rw [anyMatches, matchesOn_of_endsAtMoment hr] at hb
        cases hb
      · obtain ⟨earlier, hearlier, -⟩ := h.1 hr
        exact absurd hearlier List.not_mem_nil
    · obtain ⟨b, hb⟩ := exists_matchesOn hr today f
      rw [anyMatches_cons_of_ok hb, and_iff_right fun h => absurd h hr]
      cases b with
      | true =>
        refine iff_of_true ⟨true, rfl⟩ fun i r' _ _ => ?_
        exact ⟨r, List.mem_cons_self, hb⟩
      | false =>
        rw [if_neg Bool.false_ne_true, ih]
        simp only [List.take_succ_cons, List.exists_mem_cons_iff, hb, Except.ok.injEq,
          Bool.false_eq_true, false_or]

theorem exists_filterFindings_iff :
    (∃ kept, filterFindings rules today fs = .ok kept) ↔
      ∀ f ∈ fs, ∃ b, anyMatches today f rules = .ok b := by
  induction fs with
  | nil => exact iff_of_true ⟨[], rfl⟩ fun f hf => absurd hf List.not_mem_nil
  | cons f fs ih =>
    rw [List.forall_mem_cons, ← ih]
    exact exists_bind_bind_iff

theorem filterFindings_cons_of_endsAtMoment (h : r.EndsAtMoment) :
    filterFindings (r :: rules) today (f :: fs) = .error .momentAgainstDay := by
  rw [filterFindings, anyMatches, matchesOn_of_endsAtMoment h]
  rfl

/-! ### Ignore files -/

variable {es : List (Value × Place)} {top place : Place} {room : Nat} {files : Files} {p : Path}

/-- What a mapping gives for the end of its rule. -/
def endOf (es : List (Value × Place)) : Place :=
  (Place.get "until" es).orElse (Place.get "expires" es)

/-- The mapping gives a moment for the end of its rule. -/
def givesMoment (es : List (Value × Place)) : Bool :=
  match (endOf es).scalar? with
  | some (.moment _) => true
  | _ => false

/-- The mappings in the list of rules of a document. -/
def mappingsIn (top : Place) : List (List (Value × Place)) :=
  (((top.entries?.map (Place.get "rules")).bind Place.members?).getD []).filterMap Place.entries?

/-- The mappings in the list of rules of the ignore file at a path. -/
def mappingsAt (room : Nat) (files : Files) (p : Path) : List (List (Value × Place)) :=
  match files.document? room p with
  | .ok (some top) => mappingsIn top
  | _ => []

theorem expiry_eq_of_ofEntries (h : ofEntries es = .ok r) : r.expiry = expiryOf (endOf es) := by
  obtain ⟨paths, -, h⟩ := exists_of_bind_eq_ok h
  obtain ⟨descriptions, -, h⟩ := exists_of_bind_eq_ok h
  obtain ⟨kinds, -, h⟩ := exists_of_bind_eq_ok h
  cases h
  rfl

theorem endsAtMoment_iff (h : ofEntries es = .ok r) : r.EndsAtMoment ↔ givesMoment es = true := by
  unfold EndsAtMoment
  rw [expiry_eq_of_ofEntries h]
  unfold expiryOf givesMoment
  cases (endOf es).scalar? with
  | none => simp
  | some v => cases v <;> simp

theorem eq_of_mappingsOf {ms : List (List (Value × Place))} (h : mappingsOf place = .ok ms) :
    ms = (place.members?.getD []).filterMap Place.entries? := by
  unfold mappingsOf at h
  cases hm : place.members? with
  | some items =>
    rw [hm] at h
    cases h
    rfl
  | none =>
    rw [hm] at h
    cases hs : place.scalar? with
    | some v =>
      rw [hs] at h
      obtain ⟨items, -, rfl⟩ := exists_of_map_eq_ok h
      rfl
    | none =>
      rw [hs] at h
      cases h
      rfl

theorem members?_of_not_isTruthy (h : place.isTruthy = false) : place.members?.getD [] = [] := by
  unfold Place.isTruthy at h
  unfold Place.members?
  cases hp : place.part with
  | list items =>
    simp only [hp, Bool.not_eq_false', List.isEmpty_iff] at h
    simp [h]
  | set items =>
    simp only [hp, Bool.not_eq_false', List.isEmpty_iff] at h
    simp [h]
  | pair a b =>
    rw [hp] at h
    cases h
  | scalar v => rfl
  | map es => rfl

theorem forall₂_mappingsIn (h : ofDocument top = .ok rules) :
    List.Forall₂ (fun es r => ofEntries es = .ok r) (mappingsIn top) rules := by
  unfold ofDocument at h
  unfold mappingsIn
  cases htop : top.entries? with
  | none =>
    rw [htop] at h
    cases ht : top.isTruthy with
    | true =>
      rw [ht] at h
      cases h
    | false =>
      rw [ht] at h
      cases h
      exact .nil
  | some es =>
    rw [htop] at h
    change List.Forall₂ _ (((Place.get "rules" es).members?.getD []).filterMap _) rules
    cases ht : (Place.get "rules" es).isTruthy with
    | true =>
      simp only [ht, if_true] at h
      obtain ⟨ms, hms, h⟩ := exists_of_bind_eq_ok h
      rw [← eq_of_mappingsOf hms]
      exact forall₂_of_mapM h
    | false =>
      simp only [ht, Bool.false_eq_true, if_false] at h
      cases h
      rw [members?_of_not_isTruthy ht]
      exact .nil

/-- The rules of an ignore file are those of its mappings, in order. -/
theorem forall₂_mappingsAt (h : load room files p = .ok rules) :
    List.Forall₂ (fun es r => ofEntries es = .ok r) (mappingsAt room files p) rules := by
  obtain ⟨document, hd, h⟩ := exists_of_bind_eq_ok h
  unfold mappingsAt
  rw [hd]
  cases document with
  | none =>
    cases h
    exact .nil
  | some top => exact forall₂_mappingsIn h

/-- **Filtering by an ignore file succeeds** exactly where each of its mappings that give moments
comes after one whose rule matches, for every finding. -/
theorem filterFindings_load_iff (h : load room files p = .ok rules) (today : Date)
    (fs : List Finding) :
    (∃ kept, filterFindings rules today fs = .ok kept) ↔
      ∀ f ∈ fs, ∀ i es, (mappingsAt room files p)[i]? = some es → givesMoment es = true →
        ∃ earlier ∈ rules.take i, earlier.matchesOn today f = .ok true := by
  have hrules := forall₂_mappingsAt h
  rw [exists_filterFindings_iff]
  refine forall₂_congr fun f _ => ?_
  rw [exists_anyMatches_iff]
  refine forall_congr' fun i => ?_
  -- a rule stands where its mapping stands
  obtain ⟨hlength, hrule⟩ := List.forall₂_iff_get.mp hrules
  by_cases hi : i < rules.length
  · have hes : i < (mappingsAt room files p).length := by omega
    rw [List.getElem?_eq_getElem hi, List.getElem?_eq_getElem hes]
    simp only [Option.some.injEq, forall_eq']
    exact imp_congr_left (endsAtMoment_iff (hrule i hes hi))
  · rw [List.getElem?_eq_none (by omega), List.getElem?_eq_none (by omega)]
    exact iff_of_true nofun nofun

/-- The path of an ignore file. -/
def samplePath : Path := ⟨[], ["ignore.yml"]⟩

/-- An ignore file with one rule, whose end is spelled by `t`. -/
def sampleFiles (t : Text) : Files :=
  ⟨[(samplePath, "rules:\n- path: vendor/*\n  until: " ++ t ++ "\n")], []⟩

/-- Rules that end with days are no obstacle to filtering. -/
theorem filterFindings_load_day :
    ∃ rules, load 985 (sampleFiles "2030-01-01") samplePath = .ok rules ∧
      ∀ today fs, ∃ kept, filterFindings rules today fs = .ok kept := by
  have hread : (load 985 (sampleFiles "2030-01-01") samplePath).isOk = true := by
    simp only [load, Files.document?, Yaml.Document.read_eq]
    decide +kernel
  have hdays :
      ∀ es ∈ mappingsAt 985 (sampleFiles "2030-01-01") samplePath, givesMoment es = false := by
    simp only [mappingsAt, Files.document?, Yaml.Document.read_eq]
    decide +kernel
  obtain ⟨rules, h⟩ := exists_of_isOk hread
  refine ⟨rules, h, fun today fs => (filterFindings_load_iff h today fs).mpr ?_⟩
  intro f _ i es hi hes
  rw [hdays es (List.mem_of_getElem? hi)] at hes
  cases hes

/-- A file whose rule ends at noon is read, but filtering by it fails, and triage with it. -/
theorem filterFindings_load_moment :
    ∃ rules, load 985 (sampleFiles "2030-01-01 12:00:00") samplePath = .ok rules ∧
      ∀ today f fs, filterFindings rules today (f :: fs) = .error .momentAgainstDay ∧
        (f.isFalsePositive = false → triage rules today (f :: fs) = .error .momentAgainstDay) := by
  have hread : (load 985 (sampleFiles "2030-01-01 12:00:00") samplePath).isOk = true := by
    simp only [load, Files.document?, Yaml.Document.read_eq]
    decide +kernel
  have hmoment : ∃ es ∈ (mappingsAt 985 (sampleFiles "2030-01-01 12:00:00") samplePath).head?,
      givesMoment es = true := by
    simp only [mappingsAt, Files.document?, Yaml.Document.read_eq]
    decide +kernel
  obtain ⟨rules, h⟩ := exists_of_isOk hread
  obtain ⟨es, hes, hgives⟩ := hmoment
  have hrules := forall₂_mappingsAt h
  obtain ⟨rest, hes⟩ := List.head?_eq_some_iff.mp hes
  rw [hes] at hrules
  obtain ⟨r, rs, hr, -, rfl⟩ := List.forall₂_cons_left_iff.mp hrules
  have hends := (endsAtMoment_iff hr).mpr hgives
  refine ⟨_, h, fun today f fs => ⟨filterFindings_cons_of_endsAtMoment hends, fun hf => ?_⟩⟩
  have hissues : issues (f :: fs) = f.enrich :: issues fs := by
    unfold issues
    rw [List.filter_cons_of_pos (by simp [hf]), List.map_cons]
  rw [triage_eq, hissues]
  exact filterFindings_cons_of_endsAtMoment hends

end IgnoreRule

end RepoScan
