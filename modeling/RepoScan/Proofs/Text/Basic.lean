import RepoScan.Text.Basic

/-!
# Beginnings and parts of texts

* `CodePoint.ofNat_val`, `CodePoint.isSurrogate_eq_false_iff` : code points by their numbers;
* `Text.after?_eq_some_iff`, `Text.startsWith_iff` : what texts begin with;
* `Text.after?_of_ne` : nothing is found after a first letter that differs;
* `Text.eq_of_cut?`, `Text.eq_of_cutLast?` : the two parts of a text and the mark between them make
  up the text;
* `Text.cut?_append`, `Text.cutLast?_append` : a text is cut at the first mark or at the last one;
* `Text.slice_zero`, `Text.slice_neg` : the items up to an index, and the last ones.
-/

namespace RepoScan

namespace CodePoint

theorem ofNat_val (c : CodePoint) : ofNat c.val = c := by
  rw [ofNat, dif_pos c.lt]

theorem isSurrogate_eq_false_iff {c : CodePoint} :
    c.isSurrogate = false ↔ c.val < 0xD800 ∨ 0xDFFF < c.val := by
  simp only [isSurrogate, Bool.and_eq_false_iff, decide_eq_false_iff_not, Nat.not_le]

end CodePoint

namespace Text

theorem ofString_ne_nil {s : String} (h : s ≠ "") : ofString s ≠ [] := by
  intro hs
  rw [ofString, List.map_eq_nil_iff] at hs
  exact h (String.toList_eq_nil_iff.mp hs)

theorem after?_eq_some_iff {p t rest : Text} : after? p t = some rest ↔ t = p ++ rest := by
  induction p generalizing t with
  | nil => exact ⟨fun h => Option.some.inj h, fun h => congrArg some h⟩
  | cons a p ih =>
    cases t with
    | nil => exact ⟨nofun, nofun⟩
    | cons b t =>
      rw [after?, List.cons_append, List.cons.injEq]
      split
      · rename_i h
        rw [ih]
        exact ⟨fun ht => ⟨h.symm, ht⟩, fun ht => ht.2⟩
      · rename_i h
        exact ⟨nofun, fun ht => absurd ht.1.symm h⟩

@[simp] theorem after?_append (p rest : Text) : after? p (p ++ rest) = some rest :=
  after?_eq_some_iff.mpr rfl

theorem after?_of_ne {a b : CodePoint} (h : a ≠ b) (p t : Text) :
    after? (a :: p) (b :: t) = none := by
  rw [after?, if_neg h]

theorem startsWith_iff {t p : Text} : startsWith t p = true ↔ ∃ rest, t = p ++ rest := by
  rw [startsWith, List.isPrefixOf_iff_prefix]
  exact ⟨fun ⟨rest, h⟩ => ⟨rest, h.symm⟩, fun ⟨rest, h⟩ => ⟨rest, h.symm⟩⟩

@[simp] theorem startsWith_append (p rest : Text) : startsWith (p ++ rest) p = true :=
  startsWith_iff.mpr ⟨rest, rfl⟩

theorem startsWith_of_ne {a b : CodePoint} (h : a ≠ b) (p t : Text) :
    startsWith (b :: t) (a :: p) = false := by
  rw [startsWith, List.isPrefixOf, beq_eq_false_iff_ne.mpr h, Bool.false_and]

/-! ### Cutting at a mark -/

theorem cutGo_eq_some {p : Text} {t done front back : Text}
    (h : cut?.go p done t = some (front, back)) :
    ∃ t', front = done.reverse ++ t' ∧ t = t' ++ (p ++ back) := by
  induction t generalizing done with
  | nil =>
    rw [cut?.go] at h
    split at h
    · rename_i hp
      cases h
      rw [List.isEmpty_iff.mp hp]
      exact ⟨[], (List.append_nil _).symm, rfl⟩
    · cases h
  | cons c t ih =>
    rw [cut?.go] at h
    cases ha : after? p (c :: t) with
    | some rest =>
      have ht := after?_eq_some_iff.mp ha
      rw [ha] at h
      cases h
      exact ⟨[], (List.append_nil _).symm, ht⟩
    | none =>
      rw [ha] at h
      obtain ⟨t', rfl, rfl⟩ := ih h
      refine ⟨c :: t', ?_, rfl⟩
      rw [List.reverse_cons, List.append_assoc]
      rfl

theorem eq_of_cut? {p t front back : Text} (h : cut? p t = some (front, back)) :
    t = front ++ (p ++ back) := by
  obtain ⟨t', rfl, ht⟩ := cutGo_eq_some h
  exact ht

theorem eq_of_cutLast? {c : CodePoint} {t front back : Text}
    (h : cutLast? c t = some (front, back)) : t = front ++ c :: back := by
  have parts := List.takeWhile_append_dropWhile (p := (· != c)) (l := t.reverse)
  unfold cutLast? at h
  cases hd : t.reverse.dropWhile (· != c) with
  | nil =>
    simp only [hd] at h
    cases h
  | cons d r =>
    simp only [hd] at h
    cases h
    -- what the search stops at is the mark
    have stop : (d != c) = false := by
      have first := List.head?_dropWhile_not (· != c) t.reverse
      rw [hd] at first
      exact Bool.eq_false_iff.mpr fun hne => by simp [hne] at first
    obtain rfl : d = c := by simpa using stop
    rw [hd] at parts
    have whole := congrArg List.reverse parts
    rw [List.reverse_append, List.reverse_reverse, List.reverse_cons, List.append_assoc] at whole
    exact whole.symm

theorem cutGo_append {c : CodePoint} {front : Text} (h : c ∉ front) (p back done : Text) :
    cut?.go (c :: p) done (front ++ (c :: p ++ back)) = some (done.reverse ++ front, back) := by
  induction front generalizing done with
  | nil =>
    have here : after? (c :: p) (c :: (p ++ back)) = some back := after?_append (c :: p) back
    rw [List.nil_append, List.cons_append, cut?.go, here, List.append_nil]
  | cons d front ih =>
    rw [List.mem_cons, not_or] at h
    obtain ⟨hd, hfront⟩ := h
    have rest := ih hfront (d :: done)
    rw [List.reverse_cons, List.append_assoc] at rest
    rw [List.cons_append, cut?.go, List.cons_append, after?_of_ne hd]
    exact rest

theorem cut?_append {c : CodePoint} {front : Text} (h : c ∉ front) (p back : Text) :
    cut? (c :: p) (front ++ (c :: p ++ back)) = some (front, back) :=
  cutGo_append h p back []

theorem cut?_of_notMem {c : CodePoint} {t : Text} (h : c ∉ t) (p : Text) :
    cut? (c :: p) t = none := by
  cases hcut : cut? (c :: p) t with
  | none => rfl
  | some parts =>
    rw [eq_of_cut? hcut] at h
    exact absurd (List.mem_append_right _ List.mem_cons_self) h

theorem cutLast?_append {c : CodePoint} {back : Text} (h : c ∉ back) (front : Text) :
    cutLast? c (front ++ c :: back) = some (front, back) := by
  have other : ∀ d ∈ back.reverse, (d != c) = true := fun d hd =>
    bne_iff_ne.mpr fun e => h (e ▸ List.mem_reverse.mp hd)
  have text : (front ++ c :: back).reverse = back.reverse ++ c :: front.reverse := by simp
  have dropped : (front ++ c :: back).reverse.dropWhile (· != c) = c :: front.reverse := by
    rw [text, List.dropWhile_append_of_pos other, List.dropWhile_cons_of_neg (by simp)]
  have taken : (front ++ c :: back).reverse.takeWhile (· != c) = back.reverse := by
    rw [text, List.takeWhile_append_of_pos other, List.takeWhile_cons_of_neg (by simp),
      List.append_nil]
  simp only [cutLast?, dropped, taken, List.reverse_reverse]

theorem cutLast?_of_notMem {c : CodePoint} {t : Text} (h : c ∉ t) : cutLast? c t = none := by
  cases hcut : cutLast? c t with
  | none => rfl
  | some parts =>
    rw [eq_of_cutLast? hcut] at h
    exact absurd (List.mem_append_right _ List.mem_cons_self) h

theorem exists_last_of_mem {c : CodePoint} {t : Text} (h : c ∈ t) :
    ∃ front back, t = front ++ c :: back ∧ c ∉ back := by
  obtain ⟨back, front, ht, hback⟩ := List.eq_append_cons_of_mem (List.mem_reverse.mpr h)
  refine ⟨front.reverse, back.reverse, ?_, fun hc => hback (List.mem_reverse.mp hc)⟩
  rw [List.reverse_eq_iff.mp ht]
  simp

/-! ### Indices -/

theorem slice_zero {α : Type} (n : Nat) (xs : List α) : slice 0 (n : Int) xs = xs.take n := by
  have hstart : clampIndex xs.length 0 = 0 := by simp [clampIndex]
  have hstop : clampIndex xs.length (n : Int) = min n xs.length := by
    unfold clampIndex
    rw [if_neg (by omega), Int.toNat_natCast]
  simp only [slice, hstart, hstop, List.drop_zero, Nat.sub_zero]
  rw [List.take_eq_take_iff]
  omega

theorem slice_neg {α : Type} {n : Nat} (h : 0 < n) (xs : List α) :
    slice (-(n : Int)) (xs.length : Int) xs = xs.drop (xs.length - n) := by
  have hstart : clampIndex xs.length (-(n : Int)) = xs.length - n := by
    unfold clampIndex
    rw [if_pos (by omega)]
    omega
  have hstop : clampIndex xs.length (xs.length : Int) = xs.length := by
    unfold clampIndex
    rw [if_neg (by omega), Int.toNat_natCast, Nat.min_self]
  simp only [slice, hstart, hstop]
  exact List.take_of_length_le (by simp)

end Text

end RepoScan
