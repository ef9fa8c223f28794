import RepoScan.Value

/-!
# Mappings

* `Value.HasKeys` : the keys of entries are texts, all of them different;
* `Value.ofEntries_eq` : such entries are a mapping as they are;
* `Value.HasKeys.lookup_of_mem`, `Value.HasKeys.lookup_of_notMem` : an entry is found at its key,
  and nothing at another one;
* `Value.isTooLong_of_le`, `Value.entriesTooLong_append` : integers that are too long.
-/

namespace RepoScan.Value

/-- The keys of the entries are these texts, all of them different. -/
structure HasKeys (ks : List Text) (es : List (Value × Value)) : Prop where
  keys : es.map Prod.fst = ks.map text
  nodup : ks.Nodup

theorem sameKey_text (s t : Text) : (text s).sameKey (text t) = (s == t) := rfl

theorem put_of_new {k : Text} {done : List (Value × Value)} {ks : List Text}
    (hdone : done.map Prod.fst = ks.map text) (hk : k ∉ ks) (v : Value) :
    put (text k) v done = done ++ [(text k, v)] := by
  have new : (done.any fun e => e.1.sameKey (text k)) = false := by
    rw [List.any_eq_false]
    intro e he same
    obtain ⟨l, hl, hkey⟩ := List.mem_map.mp (hdone ▸ List.mem_map_of_mem he : e.1 ∈ ks.map text)
    rw [← hkey, sameKey_text, beq_iff_eq] at same
    exact hk (same ▸ hl)
  rw [put, new]
  rfl

/-- **Entries with different keys are a mapping as they are.** -/
theorem ofEntries_eq {ks : List Text} {es : List (Value × Value)} (h : HasKeys ks es) :
    ofEntries es = map es := by
  have fold (ks : List Text) (es done : List (Value × Value)) (before : List Text)
      (hdone : done.map Prod.fst = before.map text) (hes : es.map Prod.fst = ks.map text)
      (hn : (before ++ ks).Nodup) :
      es.foldl (fun done e => put e.1 e.2 done) done = done ++ es := by
    -- induction on the entries, with those that are in the mapping already
    induction es generalizing ks done before with
    | nil => exact (List.append_nil done).symm
    | cons e es ih =>
      cases ks with
      | nil => cases hes
      | cons k ks =>
        obtain ⟨key, v⟩ := e
        rw [List.map_cons, List.map_cons, List.cons.injEq] at hes
        obtain ⟨rfl, hes⟩ := hes
        have hk : k ∉ before := fun hk =>
          (List.nodup_append.mp hn).2.2 k hk k List.mem_cons_self rfl
        rw [List.append_cons] at hn
        rw [List.foldl_cons, put_of_new hdone hk, ih ks _ (before ++ [k]) ?_ hes hn,
          List.append_assoc]
        · rfl
        · rw [List.map_append, List.map_append, hdone]
          rfl
  exact congrArg map (fold ks es [] [] rfl h.keys h.nodup)

/-- An entry is found at its key. -/
theorem HasKeys.lookup_of_mem {ks : List Text} {es : List (Value × Value)} (h : HasKeys ks es)
    {k : Text} {v : Value} (hmem : (text k, v) ∈ es) : lookup (text k) es = some v := by
  induction es generalizing ks with
  | nil => cases hmem
  | cons e es ih =>
    obtain ⟨keys, nodup⟩ := h
    cases ks with
    | nil => cases keys
    | cons l ks =>
      rw [List.map_cons, List.map_cons, List.cons.injEq] at keys
      rw [List.nodup_cons] at nodup
      rw [lookup, List.find?_cons, keys.1, sameKey_text]
      rcases List.mem_cons.mp hmem with rfl | hmem
      · obtain rfl : k = l := text.inj keys.1
        simp
      · -- the key is one of the others
        have hk : text k ∈ ks.map text := keys.2 ▸ List.mem_map_of_mem hmem
        have other : l ≠ k := by
          rintro rfl
          obtain ⟨_, hl, hkey⟩ := List.mem_map.mp hk
          exact nodup.1 (text.inj hkey ▸ hl)
        rw [beq_eq_false_iff_ne.mpr other]
        exact ih ⟨keys.2, nodup.2⟩ hmem

/-- Nothing is found at another key. -/
theorem HasKeys.lookup_of_notMem {ks : List Text} {es : List (Value × Value)} (h : HasKeys ks es)
    {k : Text} (hk : k ∉ ks) : lookup (text k) es = none := by
  rw [lookup, Option.map_eq_none_iff, List.find?_eq_none]
  intro e he same
  obtain ⟨l, hl, hkey⟩ := List.mem_map.mp (h.keys ▸ List.mem_map_of_mem he : e.1 ∈ ks.map text)
  rw [← hkey, sameKey_text, beq_iff_eq] at same
  exact hk (same ▸ hl)

/-! ### Integers that are too long -/

theorem isTooLong_eq_false_iff {i : Int} :
    isTooLong i = false ↔ i.natAbs < Nat.pow 10 Number.maxDigits := by
  rw [isTooLong, decide_eq_false_iff_not, Nat.not_le]

theorem ne_zero_of_isTooLong {n : Int} (h : Value.isTooLong n = true) : n ≠ 0 := by
  rintro rfl
  have hpos : 0 < Nat.pow 10 Number.maxDigits := by
    -- the power is not to be computed
    generalize Number.maxDigits = digits
    exact Nat.pow_pos (by decide)
  exact absurd (of_decide_eq_true h) (Nat.not_le.mpr hpos)

theorem isTooLong_zero : isTooLong 0 = false :=
  Bool.eq_false_iff.mpr fun h => ne_zero_of_isTooLong h rfl

/-- A smaller number is not longer. -/
theorem isTooLong_of_le {m n : Nat} (h : m ≤ n) (hn : isTooLong n = false) :
    isTooLong m = false := by
  rw [isTooLong_eq_false_iff, Int.natAbs_natCast] at hn ⊢
  exact Nat.lt_of_le_of_lt h hn

theorem itemsTooLong_eq (items : List Value) : itemsTooLong items = items.any hasTooLong := by
  induction items with
  | nil => rfl
  | cons v vs ih => rw [itemsTooLong, ih, List.any_cons]

theorem entriesTooLong_append (es es' : List (Value × Value)) :
    entriesTooLong (es ++ es') = (entriesTooLong es || entriesTooLong es') := by
  induction es with
  | nil => rfl
  | cons e es ih =>
    obtain ⟨k, v⟩ := e
    rw [List.cons_append, entriesTooLong, entriesTooLong, ih]
    simp only [Bool.or_assoc]

end RepoScan.Value
