import RepoScan.Proofs.Text.Lines

/-!
# White space at the ends of texts

* `CodePoint.isSpace_of_isLineBoundary` : every line boundary is white space;
* `Text.strip_append_spaces` : what is between characters that are none is kept, and white space
  after it is taken off;
* `Text.last_of_strip_eq` : a text that is as it was stripped does not end with white space;
* `Text.strip_append_append` : white space is taken off only outside of a text that neither begins
  nor ends with it.
-/

namespace RepoScan

theorem CodePoint.isSpace_of_isLineBoundary {c : CodePoint} (h : c.isLineBoundary = true) :
    c.isSpace = true := by
  obtain ⟨n, hlt⟩ := c
  simp only [isLineBoundary, Bool.or_eq_true, Bool.and_eq_true, decide_eq_true_eq,
    beq_iff_eq] at h
  by_cases ascii : n < 128
  · have within : 9 ≤ n ∧ n ≤ 13 ∨ 28 ≤ n ∧ n ≤ 32 := by omega
    simp only [isSpace, isAscii, ascii, decide_true, if_true, Bool.or_eq_true, Bool.and_eq_true,
      decide_eq_true_eq]
    exact within
  · -- three boundaries are beyond ASCII
    have cases : n = 0x85 ∨ n = 0x2028 ∨ n = 0x2029 := by omega
    rcases cases with rfl | rfl | rfl <;> decide +kernel +revert

namespace Text

theorem isUnbroken_of_no_space {t : Text} (h : ∀ c ∈ t, c.isSpace = false) : IsUnbroken t := by
  intro c hc
  refine Bool.eq_false_iff.mpr fun hb => ?_
  have hs := CodePoint.isSpace_of_isLineBoundary hb
  rw [h c hc] at hs
  cases hs

theorem dropWhile_of_head {p : CodePoint → Bool} {t : Text}
    (h : ∀ c ∈ t.head?, p c = false) : t.dropWhile p = t := by
  cases t with
  | nil => rfl
  | cons c t =>
    have hc : p c = false := h c rfl
    simp only [List.dropWhile_cons, hc, Bool.false_eq_true, if_false]

theorem strip_append_spaces {t spaces : Text} (first : ∀ c ∈ t.head?, c.isSpace = false)
    (last : ∀ c ∈ t.getLast?, c.isSpace = false) (h : ∀ c ∈ spaces, c.isSpace = true) :
    strip (t ++ spaces) = t := by
  have back : (t ++ spaces).reverse.dropWhile CodePoint.isSpace = t.reverse := by
    rw [List.reverse_append, List.dropWhile_append_of_pos]
    · refine dropWhile_of_head fun c hc => last c ?_
      rwa [List.head?_reverse] at hc
    · intro c hc
      exact h c (List.mem_reverse.mp hc)
  cases t with
  | nil =>
    have front : (spaces ++ []).dropWhile CodePoint.isSpace = [] :=
      List.dropWhile_append_of_pos h
    rw [List.append_nil] at front
    rw [List.nil_append, strip, trim, trimLeft, front]
    rfl
  | cons c t =>
    have front : (c :: t ++ spaces).dropWhile CodePoint.isSpace = c :: t ++ spaces :=
      dropWhile_of_head fun d hd => first d hd
    rw [strip, trim, trimLeft, front, trimRight, back, List.reverse_reverse]

theorem strip_of_no_space {t : Text} (h : ∀ c ∈ t, c.isSpace = false) : strip t = t := by
  have whole : strip (t ++ []) = t := strip_append_spaces
    (fun c hc => h c (List.mem_of_mem_head? hc)) (fun c hc => h c (List.mem_of_getLast? hc)) nofun
  rwa [List.append_nil] at whole

theorem last_of_strip_eq {t : Text} (h : strip t = t) : ∀ c ∈ t.getLast?, c.isSpace = false := by
  intro c hc
  have kept := List.head?_dropWhile_not CodePoint.isSpace (trimLeft CodePoint.isSpace t).reverse
  rw [← h, strip, trim, trimRight, List.getLast?_reverse] at hc
  rw [Option.mem_def] at hc
  rw [hc] at kept
  exact kept

theorem dropWhile_append_of_head {p : CodePoint → Bool} {t : Text}
    (h : ∀ c ∈ t.head?, p c = false) (front : Text) :
    (front ++ t).dropWhile p = front.dropWhile p ++ t := by
  rw [List.dropWhile_append]
  split
  · rename_i hnil
    rw [List.isEmpty_iff.mp hnil, List.nil_append, dropWhile_of_head h]
  · rfl

theorem trimLeft_suffix (p : CodePoint → Bool) (t : Text) : trimLeft p t <:+ t :=
  List.dropWhile_suffix p

theorem trimRight_prefix (p : CodePoint → Bool) (t : Text) : trimRight p t <+: t := by
  rw [← List.reverse_suffix, trimRight, List.reverse_reverse]
  exact List.dropWhile_suffix p

/-- White space is taken off only in front of what begins without it and behind what ends without
it. -/
theorem strip_append_append {t : Text} (hne : t ≠ []) (first : ∀ c ∈ t.head?, c.isSpace = false)
    (last : ∀ c ∈ t.getLast?, c.isSpace = false) (front back : Text) :
    strip (front ++ (t ++ back)) =
      trimLeft CodePoint.isSpace front ++ (t ++ trimRight CodePoint.isSpace back) := by
  have left : trimLeft CodePoint.isSpace (front ++ (t ++ back)) =
      trimLeft CodePoint.isSpace front ++ t ++ back := by
    rw [trimLeft, List.append_assoc]
    refine dropWhile_append_of_head (fun c hc => first c ?_) front
    obtain ⟨d, t, rfl⟩ := List.exists_cons_of_ne_nil hne
    exact hc
  have right : trimRight CodePoint.isSpace (trimLeft CodePoint.isSpace front ++ t ++ back) =
      trimLeft CodePoint.isSpace front ++ t ++ trimRight CodePoint.isSpace back := by
    rw [trimRight, List.reverse_append, dropWhile_append_of_head, List.reverse_append,
      List.reverse_reverse, trimRight]
    intro c hc
    have hsome : t.getLast?.isSome = true := by simpa using hne
    rw [List.head?_reverse, List.getLast?_append, Option.or_of_isSome hsome] at hc
    exact last c hc
  rw [strip, trim, left, right, List.append_assoc]

end Text

end RepoScan
