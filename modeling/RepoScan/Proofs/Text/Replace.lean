import Mathlib.Data.List.Infix
import RepoScan.Proofs.Text.Basic

/-!
# Parts of texts and their replacement

A part of a text that lacks some character stands on one side of every such character, so a text can
be searched, and have its parts replaced, piece by piece.

* `Text.hasInfix_iff` : the search for a part finds every part;
* `Text.infix_append_cons_iff` : a part stands on one side of a character that it lacks;
* `Text.OccursOnlyIn` : all occurrences of a part are inside of a middle piece;
* `Text.Replaced`, `Text.replaced_iff` : `Text.replaceAll` as a relation, whose steps are those of a
  reader that goes through the text;
* `Text.replaceAll_append_cons` : the pieces around a character that is not replaced are replaced
  one by one.
-/

namespace RepoScan.Text

/-! ### Parts -/

theorem hasInfix_iff {p t : Text} : hasInfix p t = true ↔ p <:+: t := by
  induction t with
  | nil => simp [hasInfix]
  | cons c t ih =>
    rw [hasInfix, Bool.or_eq_true, List.isPrefixOf_iff_prefix, ih, List.infix_cons_iff]

theorem hasInfix_eq_false_iff {p t : Text} : hasInfix p t = false ↔ ¬ p <:+: t := by
  rw [← hasInfix_iff, Bool.not_eq_true]

section Seam

variable {w a b : Text} {c : CodePoint} (h : c ∉ w)

include h

theorem prefix_append_cons_iff : w <+: a ++ c :: b ↔ w <+: a := by
  refine ⟨fun hw => ?_, List.prefix_append_of_prefix⟩
  by_cases hlen : w.length ≤ a.length
  · exact List.prefix_of_prefix_length_le hw (List.prefix_append a (c :: b)) hlen
  · -- a longer beginning holds the character
    have hac : a ++ [c] <+: a ++ c :: b := ⟨b, by simp⟩
    have hin : a ++ [c] <+: w := List.prefix_of_prefix_length_le hac hw (by simp; omega)
    exact absurd (hin.subset (by simp)) h

/-- A part that lacks a character stands on one side of it. -/
theorem infix_append_cons_iff : w <:+: a ++ c :: b ↔ w <:+: a ∨ w <:+: b := by
  constructor
  · intro hw
    obtain hl | hr | ⟨x, y, rfl, hx, hy⟩ := List.infix_append_iff.mp hw
    · exact .inl hl
    · obtain hp | hr := List.infix_cons_iff.mp hr
      · -- what begins with the character is empty
        have hnil : w <+: [] := (prefix_append_cons_iff (a := []) h).mp hp
        rw [List.prefix_nil.mp hnil]
        exact .inl (List.nil_infix)
      · exact .inr hr
    · have hnil : y <+: [] := by
        refine (prefix_append_cons_iff (a := []) (c := c) ?_).mp hy
        exact fun hc => h (List.mem_append_right x hc)
      rw [List.prefix_nil.mp hnil, List.append_nil]
      exact .inl hx.isInfix
  · rintro (hl | hr)
    · exact hl.trans (List.prefix_append a (c :: b)).isInfix
    · exact hr.trans ((List.suffix_cons c b).trans (List.suffix_append a (c :: b))).isInfix

end Seam

/-- Every occurrence of `w` in the three pieces together is inside of the middle one. -/
def OccursOnlyIn (w a b c : Text) : Prop :=
  ∀ i < (a ++ b ++ c).length, w <+: (a ++ b ++ c).drop i →
    a.length ≤ i ∧ i + w.length ≤ a.length + b.length

instance (w a b c : Text) : Decidable (OccursOnlyIn w a b c) :=
  inferInstanceAs (Decidable (∀ i < (a ++ b ++ c).length, _ → _))

theorem OccursOnlyIn.outside {w a b c : Text} (h : OccursOnlyIn w a b c) (hw : w ≠ []) :
    ¬ w <:+: a ∧ ¬ w <:+: c := by
  have hpos : 0 < w.length := List.length_pos_iff.mpr hw
  constructor
  · rintro ⟨x, y, rfl⟩
    have hx := h x.length (by simp; omega) ⟨y ++ (b ++ c), by simp⟩
    simp only [List.length_append] at hx
    omega
  · rintro ⟨x, y, rfl⟩
    have hdrop : (a ++ b ++ (x ++ w ++ y)).drop (a ++ b ++ x).length = w ++ y := by
      rw [show a ++ b ++ (x ++ w ++ y) = a ++ b ++ x ++ (w ++ y) by simp, List.drop_left]
    have hx := h (a ++ b ++ x).length (by simp; omega) ⟨y, hdrop.symm⟩
    simp only [List.length_append] at hx
    omega

/-! ### Replacement -/

/-- A text and what becomes of it where `old` is replaced by `new`, as it is read from left to
right: wherever `old` stands it is taken as a whole. -/
inductive Replaced (old new : Text) : Text → Text → Prop
  | done : Replaced old new [] []
  | hit {t u : Text} (h : Replaced old new t u) : Replaced old new (old ++ t) (new ++ u)
  | pass {c : CodePoint} {t u : Text} (hc : ¬ old <+: c :: t) (h : Replaced old new t u) :
      Replaced old new (c :: t) (c :: u)

variable {old new : Text}

theorem replaceGo_eq (skip : Nat) (t done : Text) :
    replaceAll.go old new skip t done =
      done.reverse ++ replaceAll.go old new 0 (t.drop skip) [] := by
  induction t generalizing skip done with
  | nil => simp [replaceAll.go]
  | cons c t ih =>
    cases skip with
    | succ n => exact ih n done
    | zero =>
      rw [List.drop_zero, replaceAll.go, replaceAll.go]
      split
      · rw [ih, ih _ (new.reverseAux [])]
        simp [List.reverseAux_eq]
      · rw [ih, ih 0 [c]]
        simp

theorem replaceAll_nil : replaceAll old new [] = [] := by
  unfold replaceAll
  split <;> rfl

theorem replaceAll_append_old (h : old ≠ []) (t : Text) :
    replaceAll old new (old ++ t) = new ++ replaceAll old new t := by
  obtain ⟨c, rest, rfl⟩ := List.exists_cons_of_ne_nil h
  have hhit : (c :: rest).isPrefixOf (c :: rest ++ t) = true :=
    List.isPrefixOf_iff_prefix.mpr (List.prefix_append _ _)
  have hdrop : (rest ++ t).drop ((c :: rest).length - 1) = t := by simp
  simp only [replaceAll, List.isEmpty_cons, Bool.false_eq_true, if_false]
  rw [List.cons_append, replaceAll.go, ← List.cons_append, hhit, if_pos rfl, replaceGo_eq, hdrop]
  simp [List.reverseAux_eq]

theorem replaceAll_cons (h : old ≠ []) {c : CodePoint} {t : Text} (hc : ¬ old <+: c :: t) :
    replaceAll old new (c :: t) = c :: replaceAll old new t := by
  have hpass : old.isPrefixOf (c :: t) = false := by
    rw [← Bool.not_eq_true, List.isPrefixOf_iff_prefix]
    exact hc
  have hne : old.isEmpty = false := by simpa using h
  simp only [replaceAll, hne, Bool.false_eq_true, if_false]
  rw [replaceAll.go, hpass, if_neg Bool.false_ne_true, replaceGo_eq]
  simp

theorem replaceAll_singleton (a : CodePoint) (new t : Text) :
    replaceAll [a] new t = t.flatMap fun c => if c = a then new else [c] := by
  have one : ([a] : Text) ≠ [] := List.cons_ne_nil a []
  induction t with
  | nil => exact replaceAll_nil
  | cons c t ih =>
    rw [List.flatMap_cons, ← ih]
    by_cases hc : c = a
    · subst hc
      rw [if_pos rfl]
      exact replaceAll_append_old one t
    · rw [if_neg hc, replaceAll_cons one fun h => hc (List.cons_prefix_cons.mp h).1.symm]
      rfl

/-- The relation is what `Text.replaceAll` computes. -/
theorem replaced_iff (h : old ≠ []) {t u : Text} :
    Replaced old new t u ↔ u = replaceAll old new t := by
  constructor
  · intro hr
    induction hr with
    | done => exact replaceAll_nil.symm
    | hit _ ih => rw [replaceAll_append_old h, ih]
    | pass hc _ ih => rw [replaceAll_cons h hc, ih]
  · rintro rfl
    -- the text gets shorter by a whole occurrence or by one character
    induction hn : t.length using Nat.strongRecOn generalizing t with
    | ind n ih =>
      cases t with
      | nil =>
        rw [replaceAll_nil]
        exact .done
      | cons c t =>
        by_cases hc : old <+: c :: t
        · obtain ⟨rest, hrest⟩ := hc
          have hlen := congrArg List.length hrest
          have hpos := List.length_pos_iff.mpr h
          rw [List.length_append] at hlen
          rw [← hrest, replaceAll_append_old h]
          exact .hit (ih rest.length (by omega) rfl)
        · rw [replaceAll_cons h hc]
          exact .pass hc (ih t.length (by simp at hn; omega) rfl)

theorem replaceAll_of_absent {t : Text} (h : ¬ old <:+: t) : replaceAll old new t = t := by
  have hne : old ≠ [] := by
    rintro rfl
    exact h List.nil_infix
  induction t with
  | nil => exact replaceAll_nil
  | cons c t ih =>
    rw [List.infix_cons_iff, not_or] at h
    rw [replaceAll_cons hne h.1, ih h.2]

/-- Pieces on both sides of a character that is never replaced are replaced one by one. -/
theorem replaceAll_append_cons {c : CodePoint} (h : c ∉ old) (hne : old ≠ []) (a b : Text) :
    replaceAll old new (a ++ c :: b) = replaceAll old new a ++ c :: replaceAll old new b := by
  have ha : Replaced old new a (replaceAll old new a) := (replaced_iff hne).mpr rfl
  refine ((replaced_iff hne).mp ?_).symm
  generalize replaceAll old new a = a' at ha ⊢
  induction ha with
  | done =>
    refine .pass (fun hp => hne ?_) ((replaced_iff hne).mpr rfl)
    exact List.prefix_nil.mp ((prefix_append_cons_iff (a := []) h).mp hp)
  | hit _ ih =>
    rw [List.append_assoc, List.append_assoc]
    exact .hit ih
  | pass hp _ ih => exact .pass (fun hp' => hp ((prefix_append_cons_iff h).mp hp')) ih

end RepoScan.Text
