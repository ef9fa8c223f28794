import RepoScan.Proofs.Redaction

/-!
# Redaction of any width

A redacted secret is as long as the secret and shows of it what stands at its two ends; how much
that is, is given by two widths.  This file says so position by position, for all widths.

* `IsRedacted` : a text is a redacted form of a secret;
* `IsRedacted.eq_of_looksLike` : **secrets that look alike have the same redacted form**;
* `isRedacted_redactWith` : what redaction gives, unless the secret is given away;
* `redactWith_of_givesAway` : with nothing to show at the end, a secret that is longer than what is
  shown at its beginning follows the stars in full, since the last 0 characters are cut from the
  beginning of the secret;
* `isRedacted_redactWith_iff` : **redaction hides a secret exactly where it does not give it away**.
-/

namespace RepoScan

variable {head tail : Nat} {t u r s : Text}

/-! ### Positions -/

/-- Of `n` positions this is one of the first `head` or of the last `tail`. -/
def IsShownAt (head tail n i : Nat) : Prop := i < head ∨ n ≤ i + tail

instance (head tail n i : Nat) : Decidable (IsShownAt head tail n i) :=
  inferInstanceAs (Decidable (_ ∨ _))

/-- The text is the secret `t` with only its first `head` and last `tail` characters left, and
without any where these are all. -/
structure IsRedacted (head tail : Nat) (t r : Text) : Prop where
  length : r.length = t.length
  hidden : ∀ i < t.length, ¬ IsShownAt head tail t.length i → r[i]? = some ('*' : CodePoint)
  short : t.length ≤ head + tail → ∀ i < t.length, r[i]? = some ('*' : CodePoint)
  shown : head + tail < t.length → ∀ i < t.length, IsShownAt head tail t.length i → r[i]? = t[i]?

/-- The secrets are equally long and have the same characters where characters are shown. -/
structure LooksLike (head tail : Nat) (t u : Text) : Prop where
  length : t.length = u.length
  shown : ∀ i < t.length, IsShownAt head tail t.length i → t[i]? = u[i]?

/-- **Secrets that look alike have the same redacted form.** -/
theorem IsRedacted.eq_of_looksLike (hr : IsRedacted head tail t r) (hs : IsRedacted head tail u s)
    (h : LooksLike head tail t u) : r = s := by
  refine List.ext_getElem? fun i => ?_
  by_cases hi : i < t.length
  · have hi' : i < u.length := h.length ▸ hi
    by_cases hshort : t.length ≤ head + tail
    · rw [hr.short hshort i hi, hs.short (h.length ▸ hshort) i hi']
    · by_cases hshown : IsShownAt head tail t.length i
      · rw [hr.shown (by omega) i hi hshown, hs.shown (by rw [← h.length]; omega) i hi'
          (h.length ▸ hshown), h.shown i hi hshown]
      · rw [hr.hidden i hi hshown, hs.hidden i hi' (h.length ▸ hshown)]
  · have beyond : t.length ≤ i := Nat.le_of_not_lt hi
    rw [List.getElem?_eq_none (hr.length.trans_le beyond),
      List.getElem?_eq_none (hs.length.trans_le (h.length ▸ beyond))]

/-! ### What redaction gives -/

/-- Nothing is to be shown at the end, and the secret is longer than what is shown at its
beginning. -/
def GivesAway (head tail : Nat) (t : Text) : Prop := tail = 0 ∧ head < t.length

instance (head tail : Nat) (t : Text) : Decidable (GivesAway head tail t) :=
  inferInstanceAs (Decidable (_ ∧ _))

theorem getElem?_replicate_star {n i : Nat} (h : i < n) :
    (List.replicate n ('*' : CodePoint))[i]? = some ('*' : CodePoint) := by
  rw [List.getElem?_replicate, if_pos h]

theorem isRedacted_stars (h : t.length ≤ head + tail) :
    IsRedacted head tail t (List.replicate t.length ('*' : CodePoint)) where
  length := List.length_replicate
  hidden _ hi _ := getElem?_replicate_star hi
  short _ _ hi := getElem?_replicate_star hi
  shown hlong := absurd h (Nat.not_le_of_lt hlong)

theorem isRedacted_ends (h : head + tail < t.length) :
    IsRedacted head tail t (t.take head ++ (List.replicate (t.length - head - tail)
      ('*' : CodePoint) ++ t.drop (t.length - tail))) := by
  have front : (t.take head).length = head := List.length_take_of_le (by omega)
  have behind {i : Nat} (hi : head ≤ i) (m : Text) : (t.take head ++ m)[i]? = m[i - head]? := by
    rw [List.getElem?_append_right (front.trans_le hi), front]
  refine ⟨?_, fun i hi hhidden => ?_, fun hshort => absurd h (Nat.not_lt_of_le hshort), ?_⟩
  · simp only [List.length_append, front, List.length_replicate, List.length_drop]
    omega
  · rw [IsShownAt, not_or] at hhidden
    rw [behind (by omega), List.getElem?_append_left (by rw [List.length_replicate]; omega)]
    exact getElem?_replicate_star (by omega)
  · rintro - i hi (hfirst | hlast)
    · rw [List.getElem?_append_left (front.symm ▸ hfirst), List.getElem?_take_of_lt hfirst]
    · rw [behind (by omega),
        List.getElem?_append_right (by rw [List.length_replicate]; omega), List.getElem?_drop,
        List.length_replicate]
      congr 1
      omega

theorem isRedacted_redactWith (h : ¬ GivesAway head tail t) :
    IsRedacted head tail t (redactWith head tail t) := by
  by_cases hlong : head + tail < t.length
  · -- a secret with hidden characters is given away unless something is shown at its end
    have htail : 0 < tail := by
      rw [GivesAway] at h
      omega
    rw [redactWith_of_lt htail hlong]
    exact isRedacted_ends hlong
  · rw [redactWith_of_le (Nat.le_of_not_lt hlong)]
    exact isRedacted_stars (Nat.le_of_not_lt hlong)

/-- The last 0 characters of a secret are the whole of it. -/
theorem redactWith_of_givesAway (h : GivesAway head tail t) :
    redactWith head tail t =
      t.take head ++ (List.replicate (t.length - head) ('*' : CodePoint) ++ t) := by
  obtain ⟨rfl, h⟩ := h
  have hne : t.isEmpty = false := by
    cases t with
    | nil => simp at h
    | cons => rfl
  have hlong : ¬ (t.length : Int) ≤ (head : Int) + ((0 : Nat) : Int) := by omega
  have hstars : ((t.length : Int) - head - (0 : Nat)).toNat = t.length - head := by omega
  have whole : Text.slice (-((0 : Nat) : Int)) t.length t = t := by
    have stop : ¬ (t.length : Int) < 0 := by omega
    simp [Text.slice, Text.clampIndex, stop]
  simp only [redactWith, hne, Bool.false_eq_true, if_false, hlong, hstars]
  rw [Text.slice_zero, whole, List.append_assoc]

theorem length_redactWith_of_givesAway (h : GivesAway head tail t) :
    (redactWith head tail t).length = t.length + t.length := by
  rw [redactWith_of_givesAway h]
  simp only [List.length_append, List.length_take, List.length_replicate]
  have := h.2
  omega

/-- A secret that is given away can be told from all that look like it. -/
theorem redactWith_eq_iff_of_givesAway (ht : GivesAway head tail t) (h : LooksLike head tail t u) :
    redactWith head tail t = redactWith head tail u ↔ t = u := by
  refine ⟨fun heq => ?_, congrArg _⟩
  have hu : GivesAway head tail u := ⟨ht.1, h.length ▸ ht.2⟩
  rw [redactWith_of_givesAway ht, redactWith_of_givesAway hu, ← List.append_assoc,
    ← List.append_assoc] at heq
  exact (List.append_inj' heq h.length).2

/-- **Redaction hides a secret exactly where it does not give it away.**  It is then the same for
secrets that look alike, and otherwise the redacted text ends in the secret. -/
theorem isRedacted_redactWith_iff (head tail : Nat) (t : Text) :
    (IsRedacted head tail t (redactWith head tail t) ↔ ¬ GivesAway head tail t) ∧
      (∀ u, LooksLike head tail t u → (redactWith head tail t = redactWith head tail u ↔
        ¬ GivesAway head tail t ∨ t = u)) ∧
      (GivesAway head tail t → t <:+ redactWith head tail t) := by
  refine ⟨⟨fun hr hgives => ?_, isRedacted_redactWith⟩, fun u h => ?_, fun hgives => ?_⟩
  · have twice := length_redactWith_of_givesAway hgives
    have once := hr.length
    have := hgives.2
    omega
  · by_cases hgives : GivesAway head tail t
    · rw [redactWith_eq_iff_of_givesAway hgives h]
      exact (or_iff_right (not_not_intro hgives)).symm
    · have hgives' : ¬ GivesAway head tail u := fun hu => hgives ⟨hu.1, h.length ▸ hu.2⟩
      exact iff_of_true
        ((isRedacted_redactWith hgives).eq_of_looksLike (isRedacted_redactWith hgives') h)
        (.inl hgives)
  · rw [redactWith_of_givesAway hgives, ← List.append_assoc]
    exact List.suffix_append _ t

/-- Two tokens of the same kind, with the widths that are used for tokens. -/
theorem isRedacted_redactWith_token :
    let t : Text := "ghp_abcdefghijklmnop"
    let u : Text := "ghp_ABCDEFGHIJKLmnop"
    IsRedacted 4 4 t (redactWith (4 : Nat) (4 : Nat) t) ∧
      redactWith (4 : Nat) (4 : Nat) t = redactWith (4 : Nat) (4 : Nat) u := by
  intro t u
  have alike : LooksLike 4 4 t u := ⟨by decide, by decide⟩
  have kept : ¬ GivesAway 4 4 t := by decide
  obtain ⟨redacted, same, -⟩ := isRedacted_redactWith_iff 4 4 t
  exact ⟨redacted.mpr kept, (same u alike).mpr (.inl kept)⟩

/-- With nothing to be shown at its end, a password follows its stars. -/
theorem not_isRedacted_password :
    redactWith (2 : Nat) (0 : Nat) "hunter2" = "hu*****hunter2" ∧
      ¬ IsRedacted 2 0 "hunter2" (redactWith (2 : Nat) (0 : Nat) "hunter2") ∧
      LooksLike 2 0 "hunter2" "hunting" ∧
      redactWith (2 : Nat) (0 : Nat) "hunter2" ≠ redactWith (2 : Nat) (0 : Nat) "hunting" := by
  refine ⟨by decide, fun h => ?_, ⟨by decide, by decide⟩, by decide⟩
  have once := h.length
  revert once
  decide

end RepoScan
