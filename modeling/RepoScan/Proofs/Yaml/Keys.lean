import RepoScan.Files
import RepoScan.Proofs.Result

/-!
# Keys of mappings

A mapping of a document has no text twice among its keys: a key that comes again replaces the value
that it had.  This is a property of how documents are made, since a part is made long before the
last one is, and what is made of a scalar must stay as it is.

* `Making.GoesOn` : later on scalars are the same, and what is no scalar does not become one;
* `Making.IsSound` : no mapping that is made so far has a text twice among its keys;
* `Making.isSound_make`, `Making.isSound_fill` : each step keeps this;
* `Files.entries_once` : **the keys of a document's mapping are different texts**.
-/

namespace RepoScan

namespace Yaml

namespace Making

variable {m m' m'' : Making} {i : Nat}

/-! ### Parts that are made -/

theorem part?_put (m : Making) (i : Nat) (p : Part) (j : Nat) :
    (m.put i p).part? j = if j = i ∧ i < m.parts.size then some p else m.part? j := by
  simp only [part?, put, Array.getD_eq_getD_getElem?, Array.getElem?_setIfInBounds]
  by_cases hj : i = j
  · subst hj
    by_cases hi : i < m.parts.size
    · simp [hi]
    · simp [hi]
  · simp [hj, Ne.symm hj]

/-- The part of the node is no scalar, and it does not become one. -/
def IsApart (m : Making) (i : Nat) : Prop :=
  (∃ p, m.part? i = some p ∧ ∀ v, p ≠ .scalar v) ∨ m.parts.size ≤ i

/-- What is made so far stays: scalars are the same, and nothing else becomes one. -/
structure GoesOn (m m' : Making) : Prop where
  scalar : ∀ i v, m.part? i = some (.scalar v) → m'.part? i = some (.scalar v)
  apart : ∀ i, m.IsApart i → m'.IsApart i

theorem GoesOn.refl (m : Making) : m.GoesOn m := ⟨fun _ _ h => h, fun _ h => h⟩

theorem GoesOn.trans (h : m.GoesOn m') (h' : m'.GoesOn m'') : m.GoesOn m'' :=
  ⟨fun i v hi => h'.scalar i v (h.scalar i v hi), fun i hi => h'.apart i (h.apart i hi)⟩

/-- Every entry has a scalar as its key, and no two of them the same text. -/
structure HasTextsOnce (m : Making) (es : Entries) : Prop where
  scalar : ∀ e ∈ es, ∃ v, m.part? e.1 = some (.scalar v)
  once : es.Pairwise fun e f => ∀ t, m.part? e.1 = some (.scalar (.text t)) →
    m.part? f.1 ≠ some (.scalar (.text t))

theorem HasTextsOnce.goesOn {es : Entries} (h : m.HasTextsOnce es) (hgo : m.GoesOn m') :
    m'.HasTextsOnce es := by
  -- a key is the same scalar as before
  have back : ∀ e ∈ es, ∀ v, m'.part? e.1 = some (.scalar v) → m.part? e.1 = some (.scalar v) := by
    intro e he v hv
    obtain ⟨w, hw⟩ := h.scalar e he
    rw [hgo.scalar e.1 w hw] at hv
    rw [hw, hv]
  refine ⟨fun e he => (h.scalar e he).imp fun v => hgo.scalar e.1 v, ?_⟩
  refine h.once.imp_of_mem fun he hf differ t hte htf => ?_
  exact differ t (back _ he _ hte) (back _ hf _ htf)

/-- What is due is no scalar, and no mapping has a text twice among its keys. -/
structure IsSound (m : Making) : Prop where
  due : ∀ i ∈ m.due, m.IsApart i
  keys : ∀ i es, m.part? i = some (.map es) → m.HasTextsOnce es

/-- Neither the nodes nor what is due matter to what is made. -/
theorem goesOn_of_parts (h : m'.parts = m.parts) : m.GoesOn m' := by
  have part (j : Nat) : m'.part? j = m.part? j := by rw [part?, h, ← part?]
  refine ⟨fun j v hj => (part j).trans hj, fun j hj => ?_⟩
  rw [IsApart, part, h]
  exact hj

theorem IsSound.of_parts (hm : m.IsSound) (h : m'.parts = m.parts)
    (hdue : ∀ i ∈ m'.due, m'.IsApart i) : m'.IsSound := by
  refine ⟨hdue, fun j es hj => (hm.keys j es ?_).goesOn (goesOn_of_parts h)⟩
  rwa [part?, h, ← part?] at hj

/-- A step of making: what is made stays, and what is made is sound if it was. -/
def Steps (m m' : Making) : Prop := m.GoesOn m' ∧ (m.IsSound → m'.IsSound)

theorem Steps.refl (m : Making) : m.Steps m := ⟨.refl m, id⟩

theorem Steps.trans (h : m.Steps m') (h' : m'.Steps m'') : m.Steps m'' :=
  ⟨h.1.trans h'.1, fun hm => h'.2 (h.2 hm)⟩

/-! ### Putting parts -/

theorem isApart_put_self (m : Making) (i : Nat) {p : Part} (hp : ∀ v, p ≠ .scalar v) :
    (m.put i p).IsApart i := by
  by_cases hi : i < m.parts.size
  · exact .inl ⟨p, by rw [part?_put, if_pos ⟨rfl, hi⟩], hp⟩
  · refine .inr ?_
    rw [put, Array.size_setIfInBounds]
    exact Nat.le_of_not_lt hi

theorem goesOn_put {p : Part}
    (h : m.part? i = none ∨ m.IsApart i ∧ ∀ v, p ≠ .scalar v) : m.GoesOn (m.put i p) := by
  constructor
  · intro j v hj
    rw [part?_put]
    split
    · rename_i hi
      obtain ⟨rfl, hi⟩ := hi
      -- a scalar was there
      rcases h with hnone | ⟨⟨q, hq, hscalar⟩ | hout, -⟩
      · rw [hnone] at hj
        cases hj
      · rw [hq] at hj
        exact absurd (Option.some.inj hj) (hscalar v)
      · exact absurd hi (Nat.not_lt.mpr hout)
    · exact hj
  · intro j hj
    by_cases hji : j = i
    · subst hji
      rcases h with hnone | ⟨-, hp⟩
      · rcases hj with ⟨q, hq, -⟩ | hout
        · rw [hnone] at hq
          cases hq
        · exact .inr (by rwa [put, Array.size_setIfInBounds])
      · exact isApart_put_self m j hp
    · rcases hj with ⟨q, hq, hscalar⟩ | hout
      · exact .inl ⟨q, by rw [part?_put, if_neg fun h => hji h.1, hq], hscalar⟩
      · exact .inr (by rwa [put, Array.size_setIfInBounds])

theorem IsSound.put {p : Part} (h : m.IsSound) (hgo : m.GoesOn (m.put i p))
    (hp : ∀ es, p = .map es → m.HasTextsOnce es) : (m.put i p).IsSound := by
  refine ⟨fun j hj => hgo.apart j (h.due j hj), fun j es hj => HasTextsOnce.goesOn ?_ hgo⟩
  rw [part?_put] at hj
  split at hj
  · exact hp es (Option.some.inj hj)
  · exact h.keys j es hj

theorem steps_put_scalar (hnone : m.part? i = none) (v : Value) : m.Steps (m.put i (.scalar v)) :=
  ⟨goesOn_put (.inl hnone), fun h => h.put (goesOn_put (.inl hnone)) nofun⟩

theorem steps_begin {p : Part} (hnone : m.part? i = none) (hp : ∀ v, p ≠ .scalar v)
    (hempty : ∀ es, p = .map es → es = []) : m.Steps (m.begin i p) := by
  have hgo : m.GoesOn (m.put i p) := goesOn_put (.inl hnone)
  have same : (m.put i p).GoesOn (m.begin i p) := goesOn_of_parts rfl
  refine ⟨hgo.trans same, fun h => ?_⟩
  have sound : (m.put i p).IsSound := h.put hgo fun es hes => by
    rw [hempty es hes]
    exact ⟨nofun, .nil⟩
  refine sound.of_parts rfl (List.forall_mem_cons.mpr ⟨?_, fun j hj => ?_⟩)
  · exact same.apart i (isApart_put_self m i hp)
  · exact same.apart j (sound.due j hj)

/-! ### Making nodes -/

theorem steps_make (h : m.make i = .ok m') : m.Steps m' := by
  unfold make at h
  split at h
  · cases h
    exact .refl m
  · rename_i hnone
    rw [Bool.not_eq_true, Option.isSome_eq_false_iff, Option.isNone_iff_eq_none] at hnone
    split at h
    · cases h
      exact steps_begin hnone nofun nofun
    · cases h
      exact steps_begin hnone nofun nofun
    · cases h
      exact steps_begin hnone nofun fun es hes => (Part.map.inj hes).symm
    · cases h
      exact steps_begin hnone nofun nofun
    · obtain ⟨v, -, rfl⟩ := exists_of_map_eq_ok h
      exact steps_put_scalar hnone v

theorem steps_foldlM {α : Type} {f : Making → α → Except Failure Making} {xs : List α}
    (hf : ∀ m x m', x ∈ xs → f m x = .ok m' → m.Steps m') (h : xs.foldlM f m = .ok m') :
    m.Steps m' := by
  induction xs generalizing m with
  | nil =>
    cases h
    exact .refl _
  | cons x xs ih =>
    rw [List.foldlM_cons] at h
    obtain ⟨m₁, h₁, h⟩ := exists_of_bind_eq_ok h
    exact (hf m x m₁ List.mem_cons_self h₁).trans
      (ih (fun m y m' hy => hf m y m' (List.mem_cons_of_mem x hy)) h)

/-! ### Keys -/

/-- The keys so far are scalars that are made, and no two of them the same text. -/
structure Keeps (m : Making) (done : List (Key × Nat)) : Prop where
  made : ∀ e ∈ done, m.part? e.1.index = some (.scalar e.1.value)
  equal : ∀ e ∈ done, ∀ t, e.1.value = .text t → e.1.isUnequal = false
  once : done.Pairwise fun e f => ∀ t, e.1.value = .text t → f.1.value ≠ .text t

theorem Keeps.goesOn {done : List (Key × Nat)} (h : m.Keeps done) (hgo : m.GoesOn m') :
    m'.Keeps done :=
  ⟨fun e he => hgo.scalar _ _ (h.made e he), h.equal, h.once⟩

theorem of_key {k : Nat} {key : Key} (h : m.key k = .ok key) :
    m.part? key.index = some (.scalar key.value) ∧
      ∀ t, key.value = .text t → key.isUnequal = false := by
  unfold Making.key at h
  split at h
  · rename_i v hv
    cases h
    refine ⟨hv, fun t ht => ?_⟩
    obtain rfl : v = .text t := ht
    rfl
  · cases h

theorem Keeps.putEntry {done : List (Key × Nat)} {key : Key} (h : m.Keeps done)
    (hmade : m.part? key.index = some (.scalar key.value))
    (hequal : ∀ t, key.value = .text t → key.isUnequal = false) (v : Nat) :
    m.Keeps (putEntry key v done) := by
  unfold Making.putEntry
  split
  · -- the keys stay as they are
    have keys : ∀ e : Key × Nat, (if e.1.same key then (e.1, v) else e).1 = e.1 := by
      intro e
      split <;> rfl
    refine ⟨?_, ?_, ?_⟩
    · intro e he
      obtain ⟨d, hd, rfl⟩ := List.mem_map.mp he
      rw [keys d]
      exact h.made d hd
    · intro e he
      obtain ⟨d, hd, rfl⟩ := List.mem_map.mp he
      rw [keys d]
      exact h.equal d hd
    · rw [List.pairwise_map]
      exact h.once.imp fun differ => by rwa [keys, keys]
  · rename_i new
    refine ⟨List.forall_mem_cons.mpr ⟨hmade, h.made⟩, List.forall_mem_cons.mpr ⟨hequal, h.equal⟩,
      List.pairwise_cons.mpr ⟨fun e he t hkey hval => new ?_, h.once⟩⟩
    -- two keys that are the same text are the same key
    refine List.any_eq_true.mpr ⟨e, he, ?_⟩
    rw [Key.same, h.equal e he t hval, hequal t hkey, hkey, hval]
    simp [Value.sameKey]

theorem Keeps.hasTextsOnce {done : List (Key × Nat)} (h : m.Keeps done) :
    m.HasTextsOnce (done.reverse.map fun e => (e.1.index, e.2)) := by
  constructor
  · intro e he
    obtain ⟨d, hd, rfl⟩ := List.mem_map.mp he
    exact ⟨_, h.made d (List.mem_reverse.mp hd)⟩
  · rw [List.pairwise_map, List.pairwise_reverse]
    refine h.once.imp_of_mem fun {e f} he hf differ t hte htf => ?_
    rw [h.made f hf] at hte
    rw [h.made e he] at htf
    exact differ t (Part.scalar.inj (Option.some.inj htf)) (Part.scalar.inj (Option.some.inj hte))

theorem steps_makeEntries {es es' : Entries} {done : List (Key × Nat)} (hdone : m.Keeps done)
    (h : makeEntries es done m = .ok (es', m')) : m.Steps m' ∧ m'.HasTextsOnce es' := by
  induction es generalizing done m with
  | nil =>
    cases h
    exact ⟨.refl _, hdone.hasTextsOnce⟩
  | cons e es ih =>
    obtain ⟨k, v⟩ := e
    obtain ⟨m₁, h₁, h⟩ := exists_of_bind_eq_ok h
    obtain ⟨key, hkey, h⟩ := exists_of_bind_eq_ok h
    obtain ⟨m₂, h₂, h⟩ := exists_of_bind_eq_ok h
    have first := steps_make h₁
    have second := steps_make h₂
    obtain ⟨hmade, hequal⟩ := of_key hkey
    have hdone' := ((hdone.goesOn first.1).putEntry hmade hequal v).goesOn second.1
    obtain ⟨rest, honce⟩ := ih hdone' h
    exact ⟨(first.trans second).trans rest, honce⟩

/-! ### Filling collections -/

theorem steps_push (m : Making) (a b : Nat) :
    m.Steps { m with parts := m.parts.push (some (.pair a b)) } := by
  have part (j : Nat) : ({ m with parts := m.parts.push (some (.pair a b)) } : Making).part? j =
      if j = m.parts.size then some (.pair a b) else m.part? j := by
    simp only [part?, Array.getD_eq_getD_getElem?, Array.getElem?_push]
    split <;> rfl
  have inside {j : Nat} {p : Part} (hj : m.part? j = some p) : j ≠ m.parts.size := by
    rintro rfl
    simp [part?] at hj
  have hgo : m.GoesOn { m with parts := m.parts.push (some (.pair a b)) } := by
    refine ⟨fun j v hj => by rw [part, if_neg (inside hj), hj], fun j hj => ?_⟩
    rcases hj with ⟨q, hq, hscalar⟩ | hout
    · exact .inl ⟨q, by rw [part, if_neg (inside hq), hq], hscalar⟩
    · by_cases hj : j = m.parts.size
      · exact .inl ⟨.pair a b, by rw [part, if_pos hj], nofun⟩
      · refine .inr ?_
        rw [Array.size_push]
        omega
  refine ⟨hgo, fun h => ⟨fun j hj => hgo.apart j (h.due j hj), fun j es hj => ?_⟩⟩
  rw [part] at hj
  split at hj
  · cases hj
  · exact (h.keys j es hj).goesOn hgo

theorem steps_makePairs {items done pairs : List Nat}
    (h : makePairs items done m = .ok (pairs, m')) : m.Steps m' := by
  induction items generalizing done m with
  | nil =>
    cases h
    exact .refl _
  | cons i items ih =>
    rw [makePairs] at h
    split at h
    · obtain ⟨m₁, h₁, h⟩ := exists_of_bind_eq_ok h
      obtain ⟨m₂, h₂, h⟩ := exists_of_bind_eq_ok h
      exact (((steps_make h₁).trans (steps_make h₂)).trans (steps_push m₂ _ _)).trans (ih h)
    · cases h

theorem steps_fillEntries {es : Entries} (h : m.fillEntries i = .ok (es, m')) :
    m.Steps m' ∧ m'.HasTextsOnce es := by
  unfold fillEntries at h
  split at h
  · obtain ⟨nodes, -, h⟩ := exists_of_bind_eq_ok h
    -- other nodes do not change what is made
    have hgo : m.GoesOn { m with nodes := nodes } := goesOn_of_parts rfl
    have same : m.Steps { m with nodes := nodes } :=
      ⟨hgo, fun hm => hm.of_parts rfl fun j hj => hgo.apart j (hm.due j hj)⟩
    have none : Keeps { m with nodes := nodes } [] := ⟨by simp, by simp, .nil⟩
    obtain ⟨rest, honce⟩ := steps_makeEntries none h
    exact ⟨same.trans rest, honce⟩
  · cases h

theorem steps_fill (hi : m.IsApart i) (h : m.fill i = .ok m') : m.Steps m' := by
  have putting {m₁ : Making} {p : Part} (before : m.Steps m₁) (hp : ∀ v, p ≠ .scalar v)
      (honce : ∀ es, p = .map es → m₁.HasTextsOnce es) : m.Steps (m₁.put i p) := by
    have hgo := goesOn_put (.inr ⟨before.1.apart i hi, hp⟩)
    exact before.trans ⟨hgo, fun sound => sound.put hgo honce⟩
  unfold fill at h
  split at h
  · obtain ⟨m₁, h₁, h⟩ := exists_of_bind_eq_ok h
    cases h
    exact putting (steps_foldlM (fun m j m' _ hj => steps_make hj) h₁) nofun nofun
  · obtain ⟨⟨pairs, m₁⟩, h₁, h⟩ := exists_of_bind_eq_ok h
    cases h
    exact putting (steps_makePairs h₁) nofun nofun
  · obtain ⟨⟨es, m₁⟩, h₁, h⟩ := exists_of_bind_eq_ok h
    cases h
    obtain ⟨before, honce⟩ := steps_fillEntries h₁
    exact putting before nofun fun es' hes => Part.map.inj hes ▸ honce
  · obtain ⟨⟨es, m₁⟩, h₁, h⟩ := exists_of_bind_eq_ok h
    cases h
    exact putting (steps_fillEntries h₁).1 nofun nofun
  · cases h

theorem steps_fills {due : List Nat} (hdue : ∀ i ∈ due, m.IsApart i)
    (h : due.foldlM (fun m i => m.fill i) m = .ok m') : m.Steps m' := by
  induction due generalizing m with
  | nil =>
    cases h
    exact .refl _
  | cons i due ih =>
    rw [List.foldlM_cons] at h
    obtain ⟨m₁, h₁, h⟩ := exists_of_bind_eq_ok h
    have first := steps_fill (hdue i List.mem_cons_self) h₁
    exact first.trans (ih (fun j hj => first.1.apart j (hdue j (List.mem_cons_of_mem i hj))) h)

theorem isSound_rounds {fuel : Nat} (hm : m.IsSound) (h : m.rounds fuel = .ok m') : m'.IsSound := by
  induction fuel generalizing m with
  | zero =>
    cases h
    exact hm
  | succ fuel ih =>
    rw [rounds] at h
    split at h
    · cases h
      exact hm
    · obtain ⟨m₁, h₁, h⟩ := exists_of_bind_eq_ok h
      have same : m.GoesOn { m with due := [] } := goesOn_of_parts rfl
      have apart : ∀ i ∈ m.due.reverse, ({ m with due := [] } : Making).IsApart i :=
        fun i hi => same.apart i (hm.due i (List.mem_reverse.mp hi))
      exact ih ((steps_fills apart h₁).2 (hm.of_parts rfl nofun)) h

end Making

/-! ### Documents -/

/-- The document of a text, whose parts are listed. -/
theorem Document.read_eq (t : Text) : read t = (do
    if !t.all isAllowed then throw .malformedYaml
    let g ← Graph.ofText t
    let m : Making := ⟨g.nodes, Array.replicate g.nodes.size none, []⟩
    let m ← m.make g.root
    let m ← m.rounds (g.nodes.size + 1)
    pure ⟨(m.parts.toList.map fun p => p.getD (.scalar .null)).toArray, g.root⟩) := by
  simp only [read, ofGraph, ← Array.toList_map, Array.toArray_toList]

/-- A mapping of a document has no text twice among its keys. -/
theorem Document.entries_once {t : Text} {d : Document} (h : Document.read t = .ok d) {i : Nat}
    {es : Entries} (hi : d.parts.getD i (.scalar .null) = .map es) :
    es.Pairwise fun e f => ∀ k, d.parts.getD e.1 (.scalar .null) = .scalar (.text k) →
      d.parts.getD f.1 (.scalar .null) ≠ .scalar (.text k) := by
  obtain ⟨g, hg⟩ : ∃ g, ofGraph g = .ok d := by
    unfold read at h
    split at h
    · cases h
    · obtain ⟨g, -, h⟩ := exists_of_bind_eq_ok h
      exact ⟨g, h⟩
  obtain ⟨m₁, h₁, hg⟩ := exists_of_bind_eq_ok hg
  obtain ⟨m, hm, hg⟩ := exists_of_bind_eq_ok hg
  cases hg
  -- nothing is made before the root
  have blank : (⟨g.nodes, Array.replicate g.nodes.size none, []⟩ : Making).IsSound := by
    refine ⟨nofun, fun j es hj => ?_⟩
    simp only [Making.part?, Array.getD_eq_getD_getElem?, Array.getElem?_replicate] at hj
    split at hj <;> cases hj
  have sound := Making.isSound_rounds ((Making.steps_make h₁).2 blank) hm
  have part (j : Nat) : (m.parts.map fun p => p.getD (.scalar .null)).getD j (.scalar .null) =
      (m.part? j).getD (.scalar .null) := by
    simp only [Making.part?, Array.getD_eq_getD_getElem?, Array.getElem?_map]
    cases m.parts[j]? <;> rfl
  have made {j : Nat} {p : Part} (hp : p ≠ .scalar .null)
      (hj : (m.part? j).getD (.scalar .null) = p) : m.part? j = some p := by
    cases hpart : m.part? j with
    | none =>
      rw [hpart] at hj
      exact absurd hj.symm hp
    | some q =>
      rw [hpart] at hj
      rw [← hj]
      rfl
  rw [part] at hi
  refine (sound.keys i es (made nofun hi)).once.imp fun differ k he hf => ?_
  rw [part] at he hf
  exact differ k (made nofun he) (made nofun hf)

end Yaml

/-- **The keys of a document's mapping are different texts**, as far as they are texts. -/
theorem Files.entries_once {fs : Files} {room : Nat} {p : Path} {top : Yaml.Place}
    {es : List (Value × Yaml.Place)} (h : fs.document? room p = .ok (some top))
    (hes : top.entries? = some es) :
    es.Pairwise fun e f => ∀ t, e.1 = .text t → f.1 ≠ .text t := by
  obtain ⟨text?, -, h⟩ := exists_of_bind_eq_ok h
  cases text? with
  | none =>
    dsimp only at h
    split at h <;> cases h
  | some t =>
    obtain ⟨d, hd, htop⟩ := exists_of_map_eq_ok h
    cases htop
    unfold Yaml.Place.entries? at hes
    split at hes
    · rename_i raw hraw
      cases hes
      rw [List.pairwise_map]
      -- a key that is a text is the scalar of it
      have scalar {i : Nat} {k : Text} (h : ((((d.top room).move i).scalar?).getD .null) = .text k) :
          d.parts.getD i (.scalar .null) = .scalar (.text k) := by
        show ((d.top room).move i).part = _
        unfold Yaml.Place.scalar? at h
        split at h
        · rename_i v hv
          rw [hv]
          exact congrArg Yaml.Part.scalar h
        · cases h
      exact (Yaml.Document.entries_once hd hraw).imp fun differ k he hf =>
        differ k (scalar he) (scalar hf)
    · cases hes

end RepoScan
