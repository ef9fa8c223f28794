import RepoScan.Proofs.Repository

/-!
# Identifiers that are rejected

An identifier names a repository or is rejected as an identifier, whatever it is, so that whoever
asks for a repository has one kind of failure to expect.  There is one way around this: an address
is read before it is judged, and reading it fails in its own way where its authority is malformed.

* `Address.exists_ofText_iff` : an address can be read exactly where its authority is sound;
* `Repository.name_of_ofPlace` : what is wrong with a place is wrong with the identifier;
* `Repository.isAnswered_iff` : **an identifier is answered** exactly unless it is an address with a
  malformed authority.
-/

namespace RepoScan

/-! ### Authorities -/

namespace Address

variable {host authority t : Text} {e : Failure}

/-- The host is numeric, of version 6 or a later one. -/
def IsNumericHost (host : Text) : Prop :=
  isFuture host = true ∨
    (Text.startsWith host "v" = false ∧ isNumeric4 host = false ∧ isNumeric6 host = true)

/-- The authority has no brackets, or it has them around the whole host, which is numeric. -/
def HasSoundBrackets (authority : Text) : Prop :=
  (('[' : CodePoint) ∉ authority ∧ (']' : CodePoint) ∉ authority) ∨
    (('[' : CodePoint) ∈ authority ∧ (']' : CodePoint) ∈ authority ∧
      hasTightBrackets (placeOf authority) = true ∧ IsNumericHost (hostAt (placeOf authority)))

/-- The brackets of the authority are sound, and no character looks like a delimiter. -/
def IsSound (authority : Text) : Prop :=
  HasSoundBrackets authority ∧ ∀ c ∈ authority, c.val ∉ delimiterLike

/-- The authority of an address, as it is read. -/
def authorityIn (t : Text) : Text :=
  (takeAuthority (takeScheme
    ((t.dropWhile fun c => c.val ≤ 32).filter fun c => !c.isIn "\t\r\n")).2).1

theorem startsWith_of_isFuture (h : isFuture host = true) : Text.startsWith host "v" = true := by
  rw [isFuture] at h
  cases hafter : Text.after? "v" host with
  | none =>
    rw [hafter] at h
    cases h
  | some rest => exact Text.startsWith_iff.mpr ⟨rest, Text.after?_eq_some_iff.mp hafter⟩

theorem checkBracketed_eq_ok_iff : checkBracketed host = .ok () ↔ IsNumericHost host := by
  unfold checkBracketed IsNumericHost
  cases hv : Text.startsWith host "v" with
  | true => cases isFuture host <;> simp
  | false =>
    have none : isFuture host = false := by
      refine Bool.eq_false_iff.mpr fun hf => ?_
      rw [startsWith_of_isFuture hf] at hv
      cases hv
    rw [none]
    cases isNumeric4 host <;> cases isNumeric6 host <;> simp

theorem checkBrackets_eq_ok_iff :
    checkBrackets authority = .ok () ↔ HasSoundBrackets authority := by
  unfold checkBrackets HasSoundBrackets
  simp only [← List.contains_iff_mem]
  cases authority.contains '[' <;> cases authority.contains ']' <;>
    cases hasTightBrackets (placeOf authority) <;> simp [checkBracketed_eq_ok_iff]

theorem checkDelimiters_eq_ok_iff :
    checkDelimiters authority = .ok () ↔ ∀ c ∈ authority, c.val ∉ delimiterLike := by
  unfold checkDelimiters
  split
  · rename_i h
    obtain ⟨c, hc, hlike⟩ := List.any_eq_true.mp h
    exact iff_of_false nofun fun none => none c hc (List.contains_iff_mem.mp hlike)
  · rename_i h
    refine iff_of_true rfl fun c hc hlike => h ?_
    exact List.any_eq_true.mpr ⟨c, hc, List.contains_iff_mem.mpr hlike⟩

/-- An address can be read, if its authority is sound. -/
theorem exists_ofText_iff : (∃ a, ofText t = .ok a) ↔ IsSound (authorityIn t) := by
  rw [IsSound, ← checkBrackets_eq_ok_iff, ← checkDelimiters_eq_ok_iff]
  constructor
  · rintro ⟨a, h⟩
    obtain ⟨⟨⟩, hbrackets, h⟩ := exists_of_bind_eq_ok h
    obtain ⟨⟨⟩, hdelimiters, -⟩ := exists_of_bind_eq_ok h
    exact ⟨hbrackets, hdelimiters⟩
  · rintro ⟨hbrackets, hdelimiters⟩
    unfold ofText
    simp only [authorityIn] at hbrackets hdelimiters
    simp only [hbrackets, hdelimiters]
    exact ⟨_, rfl⟩

theorem name_of_checkBracketed (h : checkBracketed host = .error e) : e.name = "ValueError" := by
  unfold checkBracketed at h
  split at h
  · split at h <;> cases h
    rfl
  · split at h
    · cases h
      rfl
    · split at h <;> cases h
      rfl

theorem name_of_checkBrackets (h : checkBrackets authority = .error e) : e.name = "ValueError" := by
  unfold checkBrackets at h
  split at h
  · cases h
  · dsimp only at h
    split at h
    · exact name_of_checkBracketed h
    · cases h
      rfl
  · cases h
    rfl

theorem name_of_ofText (h : ofText t = .error e) : e.name = "ValueError" := by
  unfold ofText at h
  simp only [] at h
  generalize takeAuthority _ = parts at h
  cases hbrackets : checkBrackets parts.1 with
  | error e' =>
    rw [hbrackets] at h
    cases h
    exact name_of_checkBrackets hbrackets
  | ok _ =>
    cases hdelimiters : checkDelimiters parts.1 with
    | error e' =>
      rw [hbrackets, hdelimiters] at h
      cases h
      unfold checkDelimiters at hdelimiters
      split at hdelimiters <;> cases hdelimiters
      rfl
    | ok _ =>
      rw [hbrackets, hdelimiters] at h
      cases h

end Address

/-! ### Identifiers -/

namespace Repository

variable {given t : Text} {p : Place} {e : Failure}

/-- The failure says that an identifier is wrong. -/
def IsRejection (e : Failure) : Prop := e.name = "InvalidRepositoryError"

instance (e : Failure) : Decidable (IsRejection e) := inferInstanceAs (Decidable (_ = _))

/-- A value names a repository or is rejected as an identifier. -/
def IsAnswered (v : Value) : Prop :=
  (∃ r, ofValue v = .ok r) ∨ ∃ e, ofValue v = .error e ∧ IsRejection e

/-- The value is an address, not a remote with a login, and its authority is malformed. -/
def IsMisaddressed (v : Value) : Prop :=
  ∃ t, v = .text t ∧ ofRemote? (Text.strip t) = none ∧
    Text.hasInfix "://" (Text.strip t) = true ∧
    ¬ Address.IsSound (Address.authorityIn (Text.strip t))

theorem isRejection_of_ofAddress {a : Address} (h : ofAddress given a = .error e) :
    IsRejection e := by
  unfold ofAddress at h
  split at h
  · cases h
    rfl
  · split at h <;> cases h
    rfl

theorem isRejection_of_ofPlace (h : ofPlace given p = .error e) : IsRejection e := by
  unfold ofPlace at h
  split at h
  · cases h
    rfl
  · dsimp only at h
    split at h
    · split at h <;> cases h
      rfl
    · cases h
      rfl

/-- The place of an identifier is found or the identifier rejected, unless it is an address that
cannot be read. -/
theorem placeOf_error_cases (h : placeOf given t = .error e) :
    IsRejection e ∨ (ofRemote? t = none ∧ Text.hasInfix "://" t = true ∧
      Address.ofText t = .error e) := by
  unfold placeOf at h
  cases hremote : ofRemote? t with
  | some place =>
    rw [hremote] at h
    cases h
  | none =>
    rw [hremote] at h
    cases hmarked : Text.hasInfix "://" t with
    | false =>
      rw [hmarked] at h
      cases h
    | true =>
      rw [hmarked] at h
      cases ha : Address.ofText t with
      | error e' =>
        rw [ha] at h
        cases h
        exact .inr ⟨rfl, rfl, rfl⟩
      | ok a =>
        rw [ha] at h
        exact .inl (isRejection_of_ofAddress h)

theorem ofText_error_cases (h : ofText t = .error e) :
    IsRejection e ∨ placeOf t (Text.strip t) = .error e := by
  unfold ofText at h
  dsimp only at h
  split at h
  · cases h
    exact .inl rfl
  · cases hplace : placeOf t (Text.strip t) with
    | error e' =>
      rw [hplace] at h
      cases h
      exact .inr rfl
    | ok p =>
      rw [hplace] at h
      exact .inl (isRejection_of_ofPlace h)

theorem isAnswered_of_not_isMisaddressed {v : Value} (h : ¬ IsMisaddressed v) : IsAnswered v := by
  cases hv : ofValue v with
  | ok r => exact .inl ⟨r, hv⟩
  | error e =>
    refine .inr ⟨e, hv, ?_⟩
    cases v with
    | text t =>
      rcases ofText_error_cases hv with hrejected | hplace
      · exact hrejected
      · rcases placeOf_error_cases hplace with hrejected | ⟨hremote, hmarked, haddress⟩
        · exact hrejected
        · -- an address whose authority is sound could be read
          refine absurd ⟨t, rfl, hremote, hmarked, fun sound => ?_⟩ h
          obtain ⟨a, ha⟩ := Address.exists_ofText_iff.mpr sound
          rw [ha] at haddress
          cases haddress
    | _ =>
      cases hv
      rfl

theorem exists_name_of_isMisaddressed {v : Value} (h : IsMisaddressed v) :
    ∃ e, ofValue v = .error e ∧ e.name = "ValueError" := by
  obtain ⟨t, rfl, hremote, hmarked, hsound⟩ := h
  cases ha : Address.ofText (Text.strip t) with
  | ok a => exact absurd (Address.exists_ofText_iff.mp ⟨a, ha⟩) hsound
  | error e =>
    refine ⟨e, ?_, Address.name_of_ofText ha⟩
    have some : (Text.strip t).isEmpty = false := by
      refine List.isEmpty_eq_false_iff.mpr fun hnone => ?_
      rw [hnone] at hmarked
      cases hmarked
    have place : placeOf t (Text.strip t) = .error e := by
      rw [placeOf, hremote, hmarked, ha]
      rfl
    rw [ofValue, ofText, some, place]
    rfl

/-- **An identifier is answered**: whatever the value, it names a repository or is rejected as an
identifier, exactly unless it is an address, and no remote with a login, whose authority has
brackets that do not enclose a numeric host or holds a character that looks like a delimiter.  Such
an address is complained of in another way. -/
theorem isAnswered_iff (v : Value) :
    (IsAnswered v ↔ ¬ IsMisaddressed v) ∧
      (IsMisaddressed v → ∃ e, ofValue v = .error e ∧ e.name = "ValueError") := by
  refine ⟨⟨fun answered misaddressed => ?_, isAnswered_of_not_isMisaddressed⟩,
    exists_name_of_isMisaddressed⟩
  obtain ⟨e, he, hname⟩ := exists_name_of_isMisaddressed misaddressed
  rcases answered with ⟨r, hr⟩ | ⟨e', he', hrejected⟩
  · rw [he] at hr
    cases hr
  · rw [he] at he'
    cases he'
    rw [IsRejection, hname] at hrejected
    exact absurd hrejected (by decide)

/-- A bracket that is not closed is complained of as such. -/
theorem not_isAnswered_openBracket :
    ofValue (.text "https://[github.com/acme/shop") = .error .unbalancedBrackets ∧
      Failure.unbalancedBrackets.name = "ValueError" ∧
      ¬ IsAnswered (.text "https://[github.com/acme/shop") := by
  have failed : ofValue (.text "https://[github.com/acme/shop") = .error .unbalancedBrackets := rfl
  refine ⟨failed, rfl, ?_⟩
  rintro (⟨r, hr⟩ | ⟨e, he, hrejected⟩)
  · rw [failed] at hr
    cases hr
  · rw [failed] at he
    cases he
    exact absurd hrejected (by decide)

end Repository

end RepoScan
