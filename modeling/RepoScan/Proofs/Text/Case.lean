import Mathlib.Data.List.Forall2
import RepoScan.Proofs.Text.Basic
import RepoScan.Text.Case

/-!
# Letter case

Host names are compared in lower case.  For texts of ASCII characters that is one letter at a time.
In other texts the form of a letter may depend on its neighbours, but never across a character that
is neither cased nor passed over in the search for a cased one.

* `Text.lower_of_isAscii` : the lower-case form of a text, letter by letter;
* `Text.exists_lower_append_cons` : what follows such a character is put in lower case by itself;
* `Text.IsCaseOf` : a text with letters in upper and lower case as one likes;
* `Text.IsCaseOf.lower_eq` : its lower-case form.
-/

namespace RepoScan

namespace CodePoint

theorem isAsciiUpper_iff {c : CodePoint} : c.isAsciiUpper = true ↔ 65 ≤ c.val ∧ c.val ≤ 90 := by
  have bounds : 'A'.toNat = 65 ∧ 'Z'.toNat = 90 := by decide
  simp only [isAsciiUpper, between, Bool.and_eq_true, decide_eq_true_eq, bounds]

theorem isAsciiLower_iff {c : CodePoint} : c.isAsciiLower = true ↔ 97 ≤ c.val ∧ c.val ≤ 122 := by
  have bounds : 'a'.toNat = 97 ∧ 'z'.toNat = 122 := by decide
  simp only [isAsciiLower, between, Bool.and_eq_true, decide_eq_true_eq, bounds]

/-- An ASCII character with its letter in lower case. -/
def asciiLower (c : CodePoint) : CodePoint :=
  if c.isAsciiUpper then ofNat (c.val + 32) else c

end CodePoint

namespace Text

theorem lowerAt_of_isAscii {c : CodePoint} (h : c.isAscii = true) (before after : Text) :
    lowerAt before c after = [c.asciiLower] := by
  have small : c.val < 128 := of_decide_eq_true h
  have other : c.val ≠ 0x3A3 := by omega
  rw [lowerAt, if_neg other, CodePoint.lower, if_pos h, CodePoint.asciiLower]

theorem lowerGo_of_isAscii {t : Text} (h : ∀ c ∈ t, c.isAscii = true) (before done : Text) :
    lower.go before t done = done.reverse ++ t.map CodePoint.asciiLower := by
  induction t generalizing before done with
  | nil => rw [lower.go, List.map_nil, List.append_nil]
  | cons c t ih =>
    obtain ⟨hc, ht⟩ := List.forall_mem_cons.mp h
    rw [lower.go, lowerAt_of_isAscii hc, ih ht]
    simp

theorem lower_of_isAscii {t : Text} (h : ∀ c ∈ t, c.isAscii = true) :
    lower t = t.map CodePoint.asciiLower :=
  lowerGo_of_isAscii h [] []

/-! ### Neighbours -/

/-- What was passed before counts as far back as the last character that ends the search. -/
theorem meetsCased_append_cons {c : CodePoint} (hi : c.isCaseIgnorable = false)
    (hc : c.isCased = false) (w rest : Text) : meetsCased (w ++ c :: rest) = meetsCased w := by
  induction w with
  | nil => simp [meetsCased, hi, hc]
  | cons d w ih =>
    by_cases hd : d.isCaseIgnorable
    · simpa [meetsCased, List.dropWhile_cons_of_pos hd] using ih
    · simp [meetsCased, List.dropWhile_cons_of_neg hd]

theorem lowerGo_append_cons {c : CodePoint} (hi : c.isCaseIgnorable = false)
    (hc : c.isCased = false) (w rest t done : Text) :
    lower.go (w ++ c :: rest) t done = lower.go w t done := by
  induction t generalizing w done with
  | nil => rw [lower.go, lower.go]
  | cons d t ih =>
    have form : lowerAt (w ++ c :: rest) d t = lowerAt w d t := by
      rw [lowerAt, lowerAt, meetsCased_append_cons hi hc]
    rw [lower.go, lower.go, form, ← List.cons_append, ih]

theorem lowerGo_eq (before t done : Text) :
    lower.go before t done = done.reverse ++ lower.go before t [] := by
  induction t generalizing before done with
  | nil => simp [lower.go]
  | cons c t ih =>
    rw [lower.go, lower.go, ih, ih (c :: before) ((lowerAt before c t).reverseAux [])]
    simp [List.reverseAux_eq]

theorem exists_lowerGo_append (before u v : Text) :
    ∃ front, lower.go before (u ++ v) [] = front ++ lower.go (u.reverse ++ before) v [] := by
  induction u generalizing before with
  | nil => exact ⟨[], rfl⟩
  | cons c u ih =>
    obtain ⟨front, h⟩ := ih (c :: before)
    refine ⟨lowerAt before c (u ++ v) ++ front, ?_⟩
    rw [List.cons_append, lower.go, lowerGo_eq, h]
    simp [List.reverseAux_eq]

/-- **What follows a character without case is put in lower case by itself.** -/
theorem exists_lower_append_cons {c : CodePoint} (ha : c.isAscii = true)
    (hi : c.isCaseIgnorable = false) (hc : c.isCased = false) (u v : Text) :
    ∃ front, lower (u ++ c :: v) = front ++ c.asciiLower :: lower v := by
  obtain ⟨front, h⟩ := exists_lowerGo_append [] u (c :: v)
  have after : lower.go (c :: (u.reverse ++ [])) v [] = lower v :=
    lowerGo_append_cons hi hc [] _ v []
  refine ⟨front, ?_⟩
  rw [lower, h, lower.go, lowerAt_of_isAscii ha, lowerGo_eq, after]
  rfl

theorem getLast?_lower_concat (t : Text) {c : CodePoint} (h : c.isAscii = true) :
    (lower (t ++ [c])).getLast? = some c.asciiLower := by
  obtain ⟨front, hlower⟩ := exists_lowerGo_append [] t [c]
  rw [lower, hlower, lower.go, lowerAt_of_isAscii h]
  exact List.getLast?_concat

/-! ### Names in whatever case -/

/-- The text `t` is `name`, but each letter may be in upper case. -/
def IsCaseOf (name t : Text) : Prop :=
  List.Forall₂ (fun c d => d = c ∨ c.isAsciiLower = true ∧ d.val + 32 = c.val) name t

instance (name t : Text) : Decidable (IsCaseOf name t) :=
  inferInstanceAs (Decidable (List.Forall₂ ..))

theorem IsCaseOf.refl (name : Text) : IsCaseOf name name :=
  List.forall₂_same.mpr fun _ _ => .inl rfl

theorem IsCaseOf.mem_or_isAsciiUpper {name t : Text} (h : IsCaseOf name t) :
    ∀ d ∈ t, d ∈ name ∨ d.isAsciiUpper = true := by
  induction h with
  | nil => exact fun d hd => absurd hd List.not_mem_nil
  | @cons c d name t hcd _ ih =>
    refine List.forall_mem_cons.mpr ⟨?_, fun e he => (ih e he).imp_left (List.mem_cons_of_mem c)⟩
    rcases hcd with rfl | ⟨hc, hd⟩
    · exact .inl List.mem_cons_self
    · rw [CodePoint.isAsciiLower_iff] at hc
      exact .inr (CodePoint.isAsciiUpper_iff.mpr (by omega))

/-- The lower-case form of a name in whatever case, if the name itself is in lower case. -/
theorem IsCaseOf.lower_eq {name t : Text} (h : IsCaseOf name t)
    (hname : ∀ c ∈ name, c.isAscii = true ∧ c.isAsciiUpper = false) : lower t = name := by
  have ascii : ∀ d ∈ t, d.isAscii = true := by
    intro d hd
    rcases h.mem_or_isAsciiUpper d hd with hmem | hupper
    · exact (hname d hmem).1
    · rw [CodePoint.isAsciiUpper_iff] at hupper
      exact decide_eq_true (by omega)
  rw [lower_of_isAscii ascii]
  clear ascii
  induction h with
  | nil => rfl
  | @cons c d name t hcd _ ih =>
    obtain ⟨⟨-, hc⟩, hrest⟩ := List.forall_mem_cons.mp hname
    have first : d.asciiLower = c := by
      rcases hcd with rfl | ⟨hlower, hd⟩
      · rw [CodePoint.asciiLower, hc]
        rfl
      · rw [CodePoint.isAsciiLower_iff] at hlower
        have upper : d.isAsciiUpper = true := CodePoint.isAsciiUpper_iff.mpr (by omega)
        rw [CodePoint.asciiLower, if_pos upper, hd, CodePoint.ofNat_val]
    rw [List.map_cons, first, ih hrest]

end Text

end RepoScan
