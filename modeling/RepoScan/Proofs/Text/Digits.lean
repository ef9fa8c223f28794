import RepoScan.Diff
import RepoScan.Proofs.Text.Lines

/-!
# Numbers in texts

A number is written with decimal digits, and `Diff.numberOf` reads back what `Text.ofNat` writes, as
long as it is not too long.

* `Text.isDecimal_of_mem_ofNat` : only digits are written;
* `Diff.numberOf_ofNat` : the number is read back.
-/

namespace RepoScan

theorem toNat_of_isDigit {c : Char} (h : c.isDigit = true) : 48 ≤ c.toNat ∧ c.toNat ≤ 57 := by
  simp only [Char.isDigit, ge_iff_le, Bool.and_eq_true, decide_eq_true_eq,
    UInt32.le_iff_toNat_le] at h
  exact h

theorem CodePoint.decimalValue?_ofChar {c : Char} (h : c.isDigit = true) :
    (CodePoint.ofChar c).decimalValue? = some (c.toNat - '0'.toNat) := by
  have bounds := toNat_of_isDigit h
  have ascii : (CodePoint.ofChar c).isAscii = true := decide_eq_true (by
    rw [CodePoint.val_ofChar]
    omega)
  have digit : (CodePoint.ofChar c).isAsciiDigit = true := by
    rw [isAsciiDigit, between, Bool.and_eq_true_iff]
    exact ⟨decide_eq_true bounds.1, decide_eq_true bounds.2⟩
  rw [decimalValue?, if_pos ascii, if_pos digit]
  rfl

namespace Text

theorem ofNat_ne_nil (n : Nat) : ofNat n ≠ [] := by
  rw [ofNat, ne_eq, List.map_eq_nil_iff]
  exact Nat.toDigits_ne_nil

theorem exists_digit_of_mem_ofNat {n : Nat} {c : CodePoint} (h : c ∈ ofNat n) :
    ∃ d : Char, d.isDigit = true ∧ c = CodePoint.ofChar d := by
  obtain ⟨d, hd, rfl⟩ := List.mem_map.mp h
  exact ⟨d, Nat.isDigit_of_mem_toDigits (by decide) (by decide) hd, rfl⟩

theorem isDecimal_of_mem_ofNat {n : Nat} {c : CodePoint} (h : c ∈ ofNat n) :
    c.isDecimal = true := by
  obtain ⟨d, digit, rfl⟩ := exists_digit_of_mem_ofNat h
  rw [CodePoint.isDecimal, CodePoint.decimalValue?_ofChar digit]
  rfl

theorem isUnbroken_ofNat (n : Nat) : IsUnbroken (ofNat n) := by
  intro c hc
  obtain ⟨d, digit, rfl⟩ := exists_digit_of_mem_ofNat hc
  have bounds : 48 ≤ (CodePoint.ofChar d).val ∧ (CodePoint.ofChar d).val ≤ 57 :=
    toNat_of_isDigit digit
  refine Bool.eq_false_iff.mpr fun h => ?_
  simp only [CodePoint.isLineBoundary, Bool.or_eq_true, Bool.and_eq_true, decide_eq_true_eq,
    beq_iff_eq] at h
  omega

theorem length_ofNat_le_iff {n k : Nat} (h : 0 < k) :
    (ofNat n).length ≤ k ↔ n < Nat.pow 10 k := by
  rw [ofNat, List.length_map]
  exact Nat.length_toDigits_le_iff (by decide) h

end Text

theorem Diff.one_lt_pow {k : Nat} (h : 0 < k) : 1 < Nat.pow 10 k :=
  Nat.one_lt_pow (Nat.ne_of_gt h) (by decide)

/-- The digits of a number are read back, up to the greatest number of digits. -/
theorem Diff.numberOf_ofNat {n : Nat} (h : n < Nat.pow 10 Number.maxDigits) :
    numberOf (Text.ofNat n) = .ok n := by
  have short : ¬ Number.maxDigits < (Text.ofNat n).length := Nat.not_lt.mpr
    ((Text.length_ofNat_le_iff (by decide)).mpr h)
  have value (ds : List Char) (hds : ∀ d ∈ ds, d.isDigit = true) (k : Nat) :
      (ds.map CodePoint.ofChar).foldl (fun n c => n * 10 + c.decimalValue?.getD 0) k =
        Nat.ofDigitChars 10 ds k := by
    -- induction on the digits, with the number that was read so far
    induction ds generalizing k with
    | nil => rfl
    | cons d ds ih =>
      obtain ⟨hd, hds⟩ := List.forall_mem_cons.mp hds
      rw [List.map_cons, List.foldl_cons, ih hds, Nat.ofDigitChars_cons,
        CodePoint.decimalValue?_ofChar hd, Nat.mul_comm k]
      rfl
  rw [numberOf, if_neg short, Text.ofNat, value _ fun d hd =>
    Nat.isDigit_of_mem_toDigits (by decide) (by decide) hd, Nat.ofDigitChars_ten_toDigits]

end RepoScan
