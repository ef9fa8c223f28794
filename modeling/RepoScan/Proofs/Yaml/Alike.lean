import Mathlib.Data.List.Perm.Basic
import RepoScan.Yaml.Place
import RepoScan.Proofs.Result

/-!
# Places that hold the same value

Parts of a document are known by their numbers, so one value can be written with other numbers, and
a value that is a part of itself never comes to an end.  That two places hold the same value is said
by a relation between the parts of the two documents, under which related parts are made up of
related parts, as for two machines that do the same steps.  Entries of mappings correspond in their
order, or in any order.

* `Matching` : such a relation;
* `Place.Alike`, `Place.Resembles` : the values are the same, or so up to the order of entries;
* `Place.Like.value`, `Place.Like.toText`, `Place.Like.toInt` : what is read from such places is the
  same, or can be read from both;
* `Place.like_of_apart` : a value that does not hold some part is the same in documents that differ
  in this part alone.
-/

namespace RepoScan

variable {α β γ δ : Type} {ordered : Prop}

/-! ### Items in another order -/

/-- The items of two lists are the same, in the same order where this is asked for. -/
structure Rearranged (ordered : Prop) (xs ys : List α) : Prop where
  perm : xs.Perm ys
  eq : ordered → xs = ys

theorem Rearranged.refl (xs : List α) : Rearranged ordered xs xs := ⟨.refl xs, fun _ => rfl⟩

theorem Rearranged.symm {xs ys : List α} (h : Rearranged ordered xs ys) :
    Rearranged ordered ys xs := ⟨h.perm.symm, fun ho => (h.eq ho).symm⟩

theorem Rearranged.exists_forall₂ {P : α → β → Prop} {xs ys : List α} {us : List β}
    (h : Rearranged ordered xs ys) (hus : List.Forall₂ P xs us) :
    ∃ vs, List.Forall₂ P ys vs ∧ Rearranged ordered us vs := by
  by_cases ho : ordered
  · rw [h.eq ho] at hus
    exact ⟨us, hus, .refl us⟩
  · obtain ⟨vs, hvs, hperm⟩ := List.perm_comp_forall₂ h.perm.symm hus
    exact ⟨vs, hvs, hperm.symm, fun ho' => absurd ho' ho⟩

theorem exists_forall₂_of_forall₂ {S : α → β → Prop} {P : α → γ → Prop} {Q : β → δ → Prop}
    {T : γ → δ → Prop} {xs : List α} {ys : List β} {us : List γ} (hxy : List.Forall₂ S xs ys)
    (hus : List.Forall₂ P xs us) (step : ∀ x y u, S x y → P x u → ∃ w, Q y w ∧ T u w) :
    ∃ ws, List.Forall₂ Q ys ws ∧ List.Forall₂ T us ws := by
  induction hxy generalizing us with
  | nil =>
    cases hus
    exact ⟨[], .nil, .nil⟩
  | cons hx _ ih =>
    cases hus with
    | cons hu hus =>
      obtain ⟨w, hw, ht⟩ := step _ _ _ hx hu
      obtain ⟨ws, hws, hts⟩ := ih hus
      exact ⟨w :: ws, .cons hw hws, .cons ht hts⟩

/-! ### Values up to order -/

/-- The values can both be written or neither, and they are equal where order matters. -/
structure Value.Agrees (ordered : Prop) (v w : Value) : Prop where
  tooLong : v.hasTooLong = w.hasTooLong
  eq : ordered → v = w

namespace Value

theorem Agrees.refl (v : Value) : Agrees ordered v v := ⟨rfl, fun _ => rfl⟩

theorem itemsTooLong_eq_any (vs : List Value) : itemsTooLong vs = vs.any hasTooLong := by
  induction vs with
  | nil => rfl
  | cons v vs ih => rw [itemsTooLong, List.any_cons, ih]

theorem entriesTooLong_eq_any (es : List (Value × Value)) :
    entriesTooLong es = es.any fun e => e.1.hasTooLong || e.2.hasTooLong := by
  induction es with
  | nil => rfl
  | cons e es ih => rw [entriesTooLong, List.any_cons, ih]

theorem agrees_items {vs ws : List Value} (h : List.Forall₂ (Agrees ordered) vs ws) :
    vs.any hasTooLong = ws.any hasTooLong ∧ (ordered → vs = ws) := by
  induction h with
  | nil => exact ⟨rfl, fun _ => rfl⟩
  | cons hv _ ih =>
    exact ⟨by rw [List.any_cons, List.any_cons, hv.tooLong, ih.1],
      fun ho => by rw [hv.eq ho, ih.2 ho]⟩

theorem agrees_list {vs ws : List Value} (h : List.Forall₂ (Agrees ordered) vs ws) :
    Agrees ordered (list vs) (list ws) := by
  obtain ⟨htoo, heq⟩ := agrees_items h
  refine ⟨?_, fun ho => congrArg list (heq ho)⟩
  rw [hasTooLong, hasTooLong, itemsTooLong_eq_any, itemsTooLong_eq_any, htoo]

theorem agrees_set {vs ws : List Value} (h : List.Forall₂ (Agrees ordered) vs ws) :
    Agrees ordered (set vs) (set ws) := by
  obtain ⟨htoo, heq⟩ := agrees_items h
  refine ⟨?_, fun ho => congrArg set (heq ho)⟩
  rw [hasTooLong, hasTooLong, itemsTooLong_eq_any, itemsTooLong_eq_any, htoo]

theorem Agrees.pair {v w v' w' : Value} (h : Agrees ordered v w) (h' : Agrees ordered v' w') :
    Agrees ordered (pair v v') (pair w w') :=
  ⟨by rw [hasTooLong, hasTooLong, h.tooLong, h'.tooLong], fun ho => by rw [h.eq ho, h'.eq ho]⟩

theorem agrees_map {es fs gs : List (Value × Value)} (h : Rearranged ordered es fs)
    (h' : List.Forall₂ (fun e f => Agrees ordered e.1 f.1 ∧ Agrees ordered e.2 f.2) fs gs) :
    Agrees ordered (map es) (map gs) := by
  -- entries that agree one by one
  have entries : (fs.any fun e => e.1.hasTooLong || e.2.hasTooLong) =
      (gs.any fun e => e.1.hasTooLong || e.2.hasTooLong) ∧ (ordered → fs = gs) := by
    clear h
    induction h' with
    | nil => exact ⟨rfl, fun _ => rfl⟩
    | cons he _ ih =>
      exact ⟨by rw [List.any_cons, List.any_cons, he.1.tooLong, he.2.tooLong, ih.1],
        fun ho => by rw [Prod.ext (he.1.eq ho) (he.2.eq ho), ih.2 ho]⟩
  refine ⟨?_, fun ho => congrArg map ((h.eq ho).trans (entries.2 ho))⟩
  rw [hasTooLong, hasTooLong, entriesTooLong_eq_any, entriesTooLong_eq_any, h.perm.any_eq,
    entries.1]

end Value

namespace Yaml

variable {R : Nat → Nat → Prop} {ps qs : Array Part} {i j : Nat}

/-! ### Corresponding parts -/

/-- Entries correspond, if need be in another order. -/
def Entries.Matches (ordered : Prop) (R : Nat → Nat → Prop) (es fs : Entries) : Prop :=
  ∃ gs, Rearranged ordered es gs ∧ List.Forall₂ (fun e f => R e.1 f.1 ∧ R e.2 f.2) gs fs

/-- Two parts are the same scalar, or collections of a kind that are made up of related parts. -/
inductive Part.Matches (ordered : Prop) (R : Nat → Nat → Prop) : Part → Part → Prop
  | scalar (v : Value) : Matches ordered R (.scalar v) (.scalar v)
  | list {is js : List Nat} (h : List.Forall₂ R is js) : Matches ordered R (.list is) (.list js)
  | pair {a b c d : Nat} (h : R a c) (h' : R b d) : Matches ordered R (.pair a b) (.pair c d)
  | set {is js : List Nat} (h : List.Forall₂ R is js) : Matches ordered R (.set is) (.set js)
  | map {es fs : Entries} (h : es.Matches ordered R fs) : Matches ordered R (.map es) (.map fs)

theorem Entries.Matches.symm {es fs : Entries} (h : es.Matches ordered R fs) :
    fs.Matches ordered (fun j i => R i j) es := by
  obtain ⟨gs, hgs, hfs⟩ := h
  obtain ⟨hs, hhs, hsame⟩ := hgs.symm.exists_forall₂ hfs
  exact ⟨hs, hsame, hhs.flip⟩

theorem Part.Matches.symm {p q : Part} (h : p.Matches ordered R q) :
    q.Matches ordered (fun j i => R i j) p := by
  cases h with
  | scalar v => exact .scalar v
  | list h => exact .list h.flip
  | pair h h' => exact .pair h h'
  | set h => exact .set h.flip
  | map h => exact .map h.symm

theorem Part.Matches.refl (p : Part) : p.Matches ordered Eq p := by
  have items {γ : Type} {S : γ → γ → Prop} (hS : ∀ x, S x x) (xs : List γ) :
      List.Forall₂ S xs xs := List.forall₂_same.mpr fun x _ => hS x
  cases p with
  | scalar v => exact .scalar v
  | list is => exact .list (items (fun _ => rfl) is)
  | pair a b => exact .pair rfl rfl
  | set is => exact .set (items (fun _ => rfl) is)
  | map es => exact .map ⟨es, .refl es, items (fun _ => ⟨rfl, rfl⟩) es⟩

/-- The numbers of the parts that a part is made up of. -/
def Part.children : Part → List Nat
  | .scalar _ => []
  | .list items | .set items => items
  | .pair a b => [a, b]
  | .map es => es.flatMap fun e => [e.1, e.2]

/-- Collections are related by what relates the parts that they are made up of. -/
theorem Part.Matches.imp_of_children {S : Nat → Nat → Prop} {p q : Part}
    (h : p.Matches ordered R q) (hS : ∀ i ∈ p.children, ∀ j, R i j → S i j) :
    p.Matches ordered S q := by
  have items {is js : List Nat} (h : List.Forall₂ R is js) (his : ∀ i ∈ is, ∀ j, R i j → S i j) :
      List.Forall₂ S is js := by
    induction h with
    | nil => exact .nil
    | cons hij _ ih =>
      exact .cons (his _ List.mem_cons_self _ hij)
        (ih fun i hi => his i (List.mem_cons_of_mem _ hi))
  cases h with
  | scalar v => exact .scalar v
  | list h => exact .list (items h hS)
  | pair h h' => exact .pair (hS _ (by simp [children]) _ h) (hS _ (by simp [children]) _ h')
  | set h => exact .set (items h hS)
  | map h =>
    obtain ⟨gs, hgs, hfs⟩ := h
    refine .map ⟨gs, hgs, ?_⟩
    have hgS : ∀ g ∈ gs, ∀ i ∈ [g.1, g.2], ∀ j, R i j → S i j := fun g hg i hi =>
      hS i (List.mem_flatMap.mpr ⟨g, hgs.perm.mem_iff.mpr hg, hi⟩)
    clear hgs hS
    induction hfs with
    | nil => exact .nil
    | @cons g _ _ _ hgf _ ih =>
      have first := hgS g List.mem_cons_self
      exact .cons ⟨first _ (by simp) _ hgf.1, first _ (by simp) _ hgf.2⟩
        (ih fun g hg => hgS g (List.mem_cons_of_mem _ hg))

/-- A relation under which two documents match: a part is related to one part at most, and related
parts are made up of related parts. -/
structure Matching (ordered : Prop) (ps qs : Array Part) (R : Nat → Nat → Prop) : Prop where
  left : ∀ {i j k}, R i j → R i k → j = k
  right : ∀ {i j k}, R i k → R j k → i = j
  parts : ∀ {i j}, R i j →
    (ps.getD i (.scalar .null)).Matches ordered R (qs.getD j (.scalar .null))

namespace Matching

variable (h : Matching ordered ps qs R)

include h

theorem symm : Matching ordered qs ps fun j i => R i j :=
  ⟨fun hij hik => h.right hij hik, fun hij hik => h.left hij hik, fun hij => (h.parts hij).symm⟩

theorem contains_eq {around around' : List Nat} (hab : List.Forall₂ R around around')
    (hij : R i j) : around.contains i = around'.contains j := by
  induction hab with
  | nil => rfl
  | @cons a b _ _ hr _ ih =>
    have same : (i == a) = (j == b) := by
      rw [Bool.eq_iff_iff, beq_iff_eq, beq_iff_eq]
      constructor
      · rintro rfl
        exact h.left hij hr
      · rintro rfl
        exact h.right hij hr
    rw [List.contains_cons, List.contains_cons, same, ih]

end Matching

/-! ### Values of corresponding parts -/

/-- The key and the value of an entry. -/
def Place.entryIn (parts : Array Part) (fuel : Nat) (around : List Nat) (e : Nat × Nat) :
    Except Failure (Value × Value) := do
  pure (← valueIn parts fuel around e.1, ← valueIn parts fuel around e.2)

/-- Up to a depth related parts have values that agree. -/
structure Matching.HoldsAt (ordered : Prop) (ps qs : Array Part) (R : Nat → Nat → Prop)
    (fuel : Nat) : Prop where
  value : ∀ {around around' i j v}, List.Forall₂ R around around' → R i j →
    Place.valueIn ps fuel around i = .ok v →
      ∃ w, Place.valueIn qs fuel around' j = .ok w ∧ v.Agrees ordered w
  values : ∀ {around around' is js vs}, List.Forall₂ R around around' → List.Forall₂ R is js →
    Place.valuesIn ps fuel around is = .ok vs →
      ∃ ws, Place.valuesIn qs fuel around' js = .ok ws ∧
        List.Forall₂ (Value.Agrees ordered) vs ws
  entries : ∀ {around around' es fs vs}, List.Forall₂ R around around' →
    Entries.Matches ordered R es fs → Place.entriesIn ps fuel around es = .ok vs →
      ∃ ws, Place.entriesIn qs fuel around' fs = .ok ws ∧
        (Value.map vs).Agrees ordered (Value.map ws)

namespace Matching

variable (h : Matching ordered ps qs R)

include h

theorem value_succ {fuel : Nat} (ih : HoldsAt ordered ps qs R fuel) {around around' : List Nat}
    {v : Value} (hab : List.Forall₂ R around around') (hij : R i j)
    (hv : Place.valueIn ps (fuel + 1) around i = .ok v) :
    ∃ w, Place.valueIn qs (fuel + 1) around' j = .ok w ∧ v.Agrees ordered w := by
  have inside : List.Forall₂ R (i :: around) (j :: around') := .cons hij hab
  have hparts := h.parts hij
  rw [Place.valueIn] at hv ⊢
  rw [← h.contains_eq hab hij]
  generalize ps.getD i (.scalar .null) = p at hv hparts
  generalize qs.getD j (.scalar .null) = q at hparts ⊢
  cases hparts with
  | scalar u =>
    cases hv
    exact ⟨_, rfl, .refl _⟩
  | list hitems =>
    cases hagain : around.contains i with
    | true =>
      rw [hagain] at hv
      cases hv
      exact ⟨_, rfl, .refl _⟩
    | false =>
      rw [hagain] at hv
      obtain ⟨vs, hvs, rfl⟩ := exists_of_map_eq_ok hv
      obtain ⟨ws, hws, hagree⟩ := ih.values inside hitems hvs
      exact ⟨.list ws, by dsimp only; rw [hws]; rfl, Value.agrees_list hagree⟩
  | set hitems =>
    obtain ⟨vs, hvs, rfl⟩ := exists_of_map_eq_ok hv
    obtain ⟨ws, hws, hagree⟩ := ih.values inside hitems hvs
    exact ⟨.set ws, by dsimp only; rw [hws]; rfl, Value.agrees_set hagree⟩
  | pair hfirst hsecond =>
    cases hagain : around.contains i with
    | true =>
      rw [hagain] at hv
      cases hv
      exact ⟨_, rfl, .refl _⟩
    | false =>
      rw [hagain] at hv
      obtain ⟨v₁, hv₁, hv⟩ := exists_of_bind_eq_ok hv
      obtain ⟨v₂, hv₂, hv⟩ := exists_of_bind_eq_ok hv
      cases hv
      obtain ⟨w₁, hw₁, hagree₁⟩ := ih.value inside hfirst hv₁
      obtain ⟨w₂, hw₂, hagree₂⟩ := ih.value inside hsecond hv₂
      exact ⟨.pair w₁ w₂, by dsimp only; rw [hw₁, hw₂]; rfl, hagree₁.pair hagree₂⟩
  | map hentries =>
    cases hagain : around.contains i with
    | true =>
      rw [hagain] at hv
      cases hv
      exact ⟨_, rfl, .refl _⟩
    | false =>
      rw [hagain] at hv
      obtain ⟨vs, hvs, rfl⟩ := exists_of_map_eq_ok hv
      obtain ⟨ws, hws, hagree⟩ := ih.entries inside hentries hvs
      exact ⟨.map ws, by dsimp only; rw [hws]; rfl, hagree⟩

omit h in
theorem values_succ {fuel : Nat} (ih : HoldsAt ordered ps qs R fuel) {around around' : List Nat}
    {is js : List Nat} {vs : List Value} (hab : List.Forall₂ R around around')
    (hij : List.Forall₂ R is js) (hvs : Place.valuesIn ps (fuel + 1) around is = .ok vs) :
    ∃ ws, Place.valuesIn qs (fuel + 1) around' js = .ok ws ∧
      List.Forall₂ (Value.Agrees ordered) vs ws := by
  rw [Place.valuesIn] at hvs
  have values := forall₂_of_mapM hvs
  obtain ⟨ws, hws, hagree⟩ := exists_forall₂_of_forall₂ hij values
    fun _ _ _ hij hv => ih.value hab hij hv
  exact ⟨ws, by rw [Place.valuesIn]; exact mapM_of_forall₂ hws, hagree⟩

omit h in
theorem entries_succ {fuel : Nat} (ih : HoldsAt ordered ps qs R fuel) {around around' : List Nat}
    {es fs : Entries} {vs : List (Value × Value)} (hab : List.Forall₂ R around around')
    (hef : es.Matches ordered R fs) (hvs : Place.entriesIn ps (fuel + 1) around es = .ok vs) :
    ∃ ws, Place.entriesIn qs (fuel + 1) around' fs = .ok ws ∧
      (Value.map vs).Agrees ordered (Value.map ws) := by
  rw [Place.entriesIn] at hvs
  obtain ⟨gs, hgs, hfs⟩ := hef
  -- the values are brought into the order of the other document first
  obtain ⟨us, hus, hsame⟩ := hgs.exists_forall₂ (forall₂_of_mapM hvs)
  have step (e f : Nat × Nat) (u : Value × Value) (hef : R e.1 f.1 ∧ R e.2 f.2)
      (hu : Place.entryIn ps fuel around e = .ok u) :
      ∃ w, Place.entryIn qs fuel around' f = .ok w ∧
        u.1.Agrees ordered w.1 ∧ u.2.Agrees ordered w.2 := by
    obtain ⟨k, hk, hu⟩ := exists_of_bind_eq_ok hu
    obtain ⟨v, hv, hu⟩ := exists_of_bind_eq_ok hu
    cases hu
    obtain ⟨k', hk', hkey⟩ := ih.value hab hef.1 hk
    obtain ⟨v', hv', hval⟩ := ih.value hab hef.2 hv
    exact ⟨(k', v'), by rw [Place.entryIn, hk', hv']; rfl, hkey, hval⟩
  obtain ⟨ws, hws, hagree⟩ := exists_forall₂_of_forall₂ hfs hus step
  exact ⟨ws, by rw [Place.entriesIn]; exact mapM_of_forall₂ hws, Value.agrees_map hsame hagree⟩

theorem holdsAt (fuel : Nat) : HoldsAt ordered ps qs R fuel := by
  induction fuel with
  | zero => exact ⟨fun _ _ hv => (by cases hv), fun _ _ hv => (by cases hv),
      fun _ _ hv => (by cases hv)⟩
  | succ fuel ih => exact ⟨h.value_succ ih, values_succ ih, entries_succ ih⟩

end Matching

namespace Place

variable {p q : Place}

/-! ### Places that are like each other -/

/-- The places hold the same value, with the entries of mappings in the same order where this is
asked for, and have the same room for showing it. -/
def Like (ordered : Prop) (p q : Place) : Prop :=
  p.room = q.room ∧ ∃ R, Matching ordered p.parts q.parts R ∧ R p.index q.index

/-- The places hold the same value. -/
abbrev Alike (p q : Place) : Prop := Like True p q

/-- The places hold the same value, up to the order of entries. -/
abbrev Resembles (p q : Place) : Prop := Like False p q

theorem Like.refl (p : Place) : Like ordered p p :=
  ⟨rfl, Eq, ⟨fun h h' => h.symm.trans h', fun h h' => h.trans h'.symm,
    fun h => h ▸ Part.Matches.refl _⟩, rfl⟩

theorem Like.symm (h : Like ordered p q) : Like ordered q p := by
  obtain ⟨hroom, R, hR, hpq⟩ := h
  exact ⟨hroom.symm, _, hR.symm, hpq⟩

/-- The parts of such places correspond, and what they are made up of is alike again. -/
theorem Like.exists_part (h : Like ordered p q) :
    ∃ R, p.part.Matches ordered R q.part ∧
      ∀ i j, R i j → Like ordered (p.move i) (q.move j) := by
  obtain ⟨hroom, R, hR, hpq⟩ := h
  exact ⟨R, hR.parts hpq, fun i j hij => ⟨hroom, R, hR, hij⟩⟩

theorem Like.isTruthy_eq (h : Like ordered p q) : p.isTruthy = q.isTruthy := by
  obtain ⟨R, hparts, -⟩ := h.exists_part
  rw [isTruthy, isTruthy]
  generalize p.part = a at hparts
  generalize q.part = b at hparts
  have empty {γ δ : Type} {xs : List γ} {ys : List δ} (h : xs.length = ys.length) :
      (!xs.isEmpty) = !ys.isEmpty := by
    cases xs <;> cases ys <;> first | rfl | cases h
  cases hparts with
  | scalar v => rfl
  | list h => exact empty h.length_eq
  | pair _ _ => rfl
  | set h => exact empty h.length_eq
  | map h =>
    obtain ⟨gs, hgs, hfs⟩ := h
    exact empty (hgs.perm.length_eq.trans hfs.length_eq)

theorem Like.toInt_eq (h : Like ordered p q) : p.toInt = q.toInt := by
  obtain ⟨R, hparts, -⟩ := h.exists_part
  rw [toInt, toInt, typeName, typeName]
  generalize p.part = a at hparts
  generalize q.part = b at hparts
  cases hparts <;> rfl

theorem Like.toReal_eq (h : Like ordered p q) : p.toReal = q.toReal := by
  obtain ⟨R, hparts, -⟩ := h.exists_part
  rw [toReal, toReal, typeName, typeName]
  generalize p.part = a at hparts
  generalize q.part = b at hparts
  cases hparts <;> rfl

theorem Like.items? (h : Like ordered p q) :
    Option.Rel (List.Forall₂ (Like ordered)) p.items? q.items? := by
  obtain ⟨R, hparts, hmove⟩ := h.exists_part
  rw [Place.items?, Place.items?]
  generalize p.part = a at hparts
  generalize q.part = b at hparts
  cases hparts with
  | scalar v => exact .none
  | list h =>
    refine .some (List.forall₂_map_left_iff.mpr (List.forall₂_map_right_iff.mpr ?_))
    exact h.imp hmove
  | pair _ _ => exact .none
  | set _ => exact .none
  | map _ => exact .none

theorem Like.entries? (h : Like ordered p q) {es : List (Value × Place)}
    (hes : p.entries? = some es) :
    ∃ fs, q.entries? = some fs ∧ ∃ gs, Rearranged ordered es gs ∧
      List.Forall₂ (fun e f => e.1 = f.1 ∧ Like ordered e.2 f.2) gs fs := by
  obtain ⟨R, hparts, hmove⟩ := h.exists_part
  have scalar {i j : Nat} (hij : R i j) : (p.move i).scalar? = (q.move j).scalar? := by
    obtain ⟨S, hpart, -⟩ := (hmove i j hij).exists_part
    rw [scalar?, scalar?]
    generalize (p.move i).part = a at hpart
    generalize (q.move j).part = b at hpart
    cases hpart <;> rfl
  rw [Place.entries?] at hes ⊢
  generalize p.part = a at hes hparts
  generalize q.part = b at hparts
  cases hparts with
  | map h =>
    obtain ⟨gs, hgs, hfs⟩ := h
    obtain rfl := Option.some.inj hes
    refine ⟨_, rfl, _, ⟨hgs.perm.map _, fun ho => congrArg _ (hgs.eq ho)⟩, ?_⟩
    refine List.forall₂_map_left_iff.mpr (List.forall₂_map_right_iff.mpr ?_)
    exact hfs.imp fun e f hef =>
      ⟨congrArg (·.getD .null) (scalar hef.1), hmove _ _ hef.2⟩
  | _ => cases hes

/-! ### What is read from them -/

/-- What can be read here can be read there, and it is the same where order matters. -/
def Yields (ordered : Prop) (x y : Except Failure α) : Prop :=
  ∀ a, x = .ok a → ∃ b, y = .ok b ∧ (ordered → a = b)

theorem Yields.refl (x : Except Failure α) : Yields ordered x x := fun a ha => ⟨a, ha, fun _ => rfl⟩

theorem Yields.of_eq {x y : Except Failure α} (h : x = y) : Yields ordered x y := h ▸ .refl x

theorem Yields.map {x y : Except Failure α} (h : Yields ordered x y) (f : α → β) :
    Yields ordered (x.map f) (y.map f) := by
  intro b hb
  obtain ⟨a, ha, rfl⟩ := exists_of_map_eq_ok hb
  obtain ⟨a', rfl, heq⟩ := h a ha
  exact ⟨f a', rfl, fun ho => congrArg f (heq ho)⟩

theorem Yields.mapM {f : α → Except Failure β} {xs ys : List α}
    (h : List.Forall₂ (fun x y => Yields ordered (f x) (f y)) xs ys) :
    Yields ordered (xs.mapM f) (ys.mapM f) := by
  intro bs hbs
  obtain ⟨cs, hcs, heq⟩ := exists_forall₂_of_forall₂ h (forall₂_of_mapM hbs)
    fun _ _ b hxy hb => hxy b hb
  refine ⟨cs, mapM_of_forall₂ hcs, fun ho => ?_⟩
  rw [← List.forall₂_eq_eq_eq]
  exact heq.imp fun _ _ hbc => hbc ho

theorem Like.value (h : Like ordered p q) :
    ∀ v, p.value = .ok v → ∃ w, q.value = .ok w ∧ v.Agrees ordered w := by
  obtain ⟨hroom, R, hR, hpq⟩ := h
  rw [Place.value, Place.value, ← hroom]
  exact fun v => (hR.holdsAt _).value .nil hpq

theorem Like.toText (h : Like ordered p q) : Yields ordered p.toText q.toText := by
  intro t ht
  obtain ⟨v, hv, ht⟩ := exists_of_bind_eq_ok ht
  obtain ⟨w, hw, hagree⟩ := h.value v hv
  rw [Place.toText, hw]
  rw [Value.write] at ht
  split at ht
  · cases ht
  · rename_i hshort
    cases ht
    rw [hagree.tooLong] at hshort
    exact ⟨w.toText, if_neg hshort, fun ho => by rw [hagree.eq ho]⟩

/-! ### Documents that differ in one part -/

/-- The part `k` is the part at a place, or one that it is made up of. -/
inductive Holds (parts : Array Part) (k : Nat) : Nat → Prop
  | here : Holds parts k k
  | inside {i c : Nat} (hc : c ∈ (parts.getD i (.scalar .null)).children) (h : Holds parts k c) :
      Holds parts k i

/-- **A value that does not hold some part is the same** in documents that differ in this part
alone. -/
theorem like_of_apart {R : Nat → Nat → Prop} {k : Nat} (hroom : p.room = q.room)
    (left : ∀ {i j j'}, R i j → R i j' → j = j')
    (right : ∀ {i i' j}, R i j → R i' j → i = i')
    (hparts : ∀ {i j}, R i j → i ≠ k →
      (p.parts.getD i (.scalar .null)).Matches ordered R (q.parts.getD j (.scalar .null)))
    (hpq : R p.index q.index) (hk : ¬ Holds p.parts k p.index) : Like ordered p q := by
  refine ⟨hroom, fun i j => R i j ∧ ¬ Holds p.parts k i,
    ⟨fun h h' => left h.1 h'.1, fun h h' => right h.1 h'.1, fun {i j} h => ?_⟩, hpq, hk⟩
  obtain ⟨hij, hi⟩ := h
  have apart : i ≠ k := by
    rintro rfl
    exact hi .here
  exact (hparts hij apart).imp_of_children fun c hc d hcd => ⟨hcd, fun h => hi (.inside hc h)⟩

end Place

end Yaml

end RepoScan
