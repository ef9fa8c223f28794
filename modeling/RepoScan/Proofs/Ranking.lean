import Mathlib.Data.List.Nodup
import Mathlib.Order.Lattice

/-!
# Rankings

Findings and files are put in order by a key, the highest one first, and those with one key stay as
they are.  Sorting by merging does so.

* `RanksBy` : the comparison goes by a key;
* `eq_of_filter_key_eq` : the order of the keys and the order under each key determine a ranking;
* `RanksBy.filter_mergeSort` : what has one key keeps its order;
* `RanksBy.mergeSort_eq_flatMap` : **a ranking is made of what has each key**, the highest first;
* `RanksBy.mergeSort_filter` : what is selected is ranked as in the whole;
* `RanksBy.pairwise_mergeSort_of_pairwise` : of two with one key the one that is first stays first.
-/

namespace RepoScan

variable {α κ : Type} [LinearOrder κ] {key : α → κ} {le : α → α → Bool} {xs ys : List α}

/-- The comparison puts the higher key first. -/
def RanksBy (key : α → κ) (le : α → α → Bool) : Prop := ∀ a b, le a b = true ↔ key b ≤ key a

/-! ### Lists by key -/

theorem mem_filter_key {a : α} {k : κ} : a ∈ xs.filter (key · = k) ↔ a ∈ xs ∧ key a = k := by
  rw [List.mem_filter, decide_eq_true_eq]

theorem pairwise_filter_key (xs : List α) (k : κ) :
    (xs.filter (key · = k)).Pairwise fun a b => key b ≤ key a :=
  List.pairwise_of_forall_mem_list fun _ ha _ hb =>
    ((mem_filter_key.mp hb).2.trans (mem_filter_key.mp ha).2.symm).le

theorem mem_iff_of_filter_key_eq (h : ∀ k, xs.filter (key · = k) = ys.filter (key · = k)) {a : α} :
    a ∈ xs ↔ a ∈ ys := by
  have same : a ∈ xs.filter (key · = key a) ↔ a ∈ ys.filter (key · = key a) := by rw [h]
  simpa only [mem_filter_key, and_true] using same

variable (key) in
/-- Lists by descending key are the same if, for each key, what has it is the same. -/
theorem eq_of_filter_key_eq (hxs : xs.Pairwise fun a b => key b ≤ key a)
    (hys : ys.Pairwise fun a b => key b ≤ key a)
    (h : ∀ k, xs.filter (key · = k) = ys.filter (key · = k)) : xs = ys := by
  induction xs generalizing ys with
  | nil =>
    refine (List.eq_nil_iff_forall_not_mem.mpr fun b hb => ?_).symm
    exact List.not_mem_nil ((mem_iff_of_filter_key_eq h).mpr hb)
  | cons x xs ih =>
    cases ys with
    | nil => exact absurd ((mem_iff_of_filter_key_eq h).mp List.mem_cons_self) List.not_mem_nil
    | cons y ys =>
      obtain ⟨hx, hxs⟩ := List.pairwise_cons.mp hxs
      obtain ⟨hy, hys'⟩ := List.pairwise_cons.mp hys
      -- both begin with the highest key, and so with the first of those that have it
      have below : ∀ b ∈ x :: xs, key b ≤ key x := List.forall_mem_cons.mpr ⟨le_rfl, hx⟩
      have above : ∀ b ∈ y :: ys, key b ≤ key y := List.forall_mem_cons.mpr ⟨le_rfl, hy⟩
      have same : key y = key x :=
        le_antisymm (below y ((mem_iff_of_filter_key_eq h).mpr List.mem_cons_self))
          (above x ((mem_iff_of_filter_key_eq h).mp List.mem_cons_self))
      have first := h (key x)
      rw [List.filter_cons_of_pos (by simp), List.filter_cons_of_pos (by simp [same])] at first
      obtain rfl : x = y := (List.cons.inj first).1
      refine congrArg (x :: ·) (ih hxs hys' fun k => ?_)
      have rest := h k
      by_cases hk : key x = k
      · rw [List.filter_cons_of_pos (by simp [hk]), List.filter_cons_of_pos (by simp [hk])] at rest
        exact (List.cons.inj rest).2
      · rwa [List.filter_cons_of_neg (by simp [hk]), List.filter_cons_of_neg (by simp [hk])] at rest

theorem filter_flatMap_key {ks : List κ} (hks : ks.Nodup) (hxs : ∀ a ∈ xs, key a ∈ ks) (k : κ) :
    (ks.flatMap fun j => xs.filter (key · = j)).filter (key · = k) = xs.filter (key · = k) := by
  have part (j : κ) : (xs.filter (key · = j)).filter (key · = k) =
      if j = k then xs.filter (key · = k) else [] := by
    split
    · rename_i hjk
      rw [hjk, List.filter_filter]
      simp only [Bool.and_self]
    · rename_i hjk
      refine List.filter_eq_nil_iff.mpr fun a ha hk => hjk ?_
      exact (mem_filter_key.mp ha).2.symm.trans (of_decide_eq_true hk)
  have none {js : List κ} (h : k ∉ js) :
      (js.flatMap fun j => if j = k then xs.filter (key · = k) else []) = [] :=
    List.flatMap_eq_nil_iff.mpr fun j hj => if_neg (ne_of_mem_of_not_mem hj h)
  rw [List.filter_flatMap]
  simp only [part]
  by_cases hk : k ∈ ks
  · obtain ⟨front, back, rfl⟩ := List.append_of_mem hk
    have apart := List.nodup_middle.mp hks
    rw [List.nodup_cons, List.mem_append, not_or] at apart
    rw [List.flatMap_append, List.flatMap_cons, none apart.1.1, none apart.1.2, if_pos rfl,
      List.nil_append, List.append_nil]
  · refine (none hk).trans (List.filter_eq_nil_iff.mpr fun a ha hak => hk ?_).symm
    exact of_decide_eq_true hak ▸ hxs a ha

/-! ### Rankings by merging -/

namespace RanksBy

theorem trans (h : RanksBy key le) (a b c : α) (hab : le a b = true) (hbc : le b c = true) :
    le a c = true :=
  (h a c).mpr (le_trans ((h b c).mp hbc) ((h a b).mp hab))

theorem total (h : RanksBy key le) (a b : α) : (le a b || le b a) = true := by
  rw [Bool.or_eq_true, h, h]
  exact le_total _ _

theorem pairwise_mergeSort (h : RanksBy key le) (xs : List α) :
    (xs.mergeSort le).Pairwise fun a b => key b ≤ key a :=
  (List.pairwise_mergeSort h.trans h.total xs).imp fun {a b} hab => (h a b).mp hab

/-- **What has one key keeps its order.** -/
theorem filter_mergeSort (h : RanksBy key le) (xs : List α) (k : κ) :
    (xs.mergeSort le).filter (key · = k) = xs.filter (key · = k) := by
  -- it is in order already, so that sorting leaves it a sublist
  have equal : (xs.filter (key · = k)).Pairwise (le · ·) :=
    (pairwise_filter_key xs k).imp fun {a b} hab => (h a b).mpr hab
  have kept := (List.sublist_mergeSort h.trans h.total equal List.filter_sublist).filter (key · = k)
  simp only [List.filter_filter, Bool.and_self] at kept
  exact (kept.eq_of_length ((List.mergeSort_perm xs le).filter _).length_eq.symm).symm

/-- **A ranking is made of what has each key**, one key after the other from the highest on. -/
theorem mergeSort_eq_flatMap (h : RanksBy key le) {ks : List κ} (hks : ks.Pairwise (· > ·))
    (hxs : ∀ a ∈ xs, key a ∈ ks) : xs.mergeSort le = ks.flatMap fun k => xs.filter (key · = k) := by
  have parts : (ks.flatMap fun k => xs.filter (key · = k)).Pairwise fun a b => key b ≤ key a := by
    refine List.pairwise_flatMap.mpr ⟨fun k _ => pairwise_filter_key xs k, ?_⟩
    refine hks.imp fun {j k} hjk a ha b hb => ?_
    rw [(mem_filter_key.mp ha).2, (mem_filter_key.mp hb).2]
    exact le_of_lt hjk
  have nodup : ks.Nodup := hks.imp fun {j k} hjk => ne_of_gt hjk
  refine eq_of_filter_key_eq key (h.pairwise_mergeSort xs) parts fun k => ?_
  rw [h.filter_mergeSort, filter_flatMap_key nodup hxs]

/-- What is selected is ranked as in the whole. -/
theorem mergeSort_filter (h : RanksBy key le) (p : α → Bool) (xs : List α) :
    (xs.filter p).mergeSort le = (xs.mergeSort le).filter p := by
  have swap (ys : List α) (k : κ) :
      (ys.filter p).filter (key · = k) = (ys.filter (key · = k)).filter p := by
    rw [List.filter_filter, List.filter_filter]
    exact List.filter_congr fun a _ => Bool.and_comm _ _
  refine eq_of_filter_key_eq key (h.pairwise_mergeSort _)
    ((h.pairwise_mergeSort xs).sublist List.filter_sublist) fun k => ?_
  rw [h.filter_mergeSort, swap, swap, h.filter_mergeSort]

/-- Of two with one key the one that is first stays first. -/
theorem pairwise_mergeSort_of_pairwise (h : RanksBy key le) {R : α → α → Prop}
    (hxs : xs.Pairwise R) :
    (xs.mergeSort le).Pairwise fun a b => key b < key a ∨ key b = key a ∧ R a b := by
  refine List.pairwise_iff_forall_sublist.mpr fun {a b} hab => ?_
  have descending := List.pairwise_pair.mp ((h.pairwise_mergeSort xs).sublist hab)
  refine (lt_or_eq_of_le descending).imp_right fun same => ⟨same, ?_⟩
  have kept := hab.filter (key · = key a)
  rw [h.filter_mergeSort, List.filter_eq_self.mpr (by simp [same])] at kept
  exact List.pairwise_pair.mp (hxs.sublist (kept.trans List.filter_sublist))

end RanksBy

end RepoScan
