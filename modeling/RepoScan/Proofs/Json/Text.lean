import RepoScan.Json.Reader
import RepoScan.Json.Writer
import RepoScan.Proofs.Text.Basic

/-!
# Strings of documents

A string is written in ASCII: a character beyond the first plane becomes the escapes of its two
surrogates.  So a document does not tell a character from its two surrogates side by side, and the
reader gives the character for both.

* `Json.paired` : the text with the characters for such pairs;
* `Json.takeString?_escaped` : **a string is read back**, up to its surrogate pairs;
* `Json.paired_of_noSurrogates` : a text without surrogates has none.
-/

namespace RepoScan

/-- No character of the text is a surrogate. -/
def Text.NoSurrogates (t : Text) : Prop := ∀ c ∈ t, c.isSurrogate = false

instance (t : Text) : Decidable t.NoSurrogates :=
  inferInstanceAs (Decidable (∀ c ∈ t, c.isSurrogate = false))

namespace Json

/-! ### Surrogates -/

/-- `n` is the second half of a surrogate pair. -/
def isLow (n : Nat) : Bool := 0xDC00 ≤ n && n ≤ 0xDFFF

/-- The character that two halves stand for. -/
def joined (high low : Nat) : CodePoint :=
  CodePoint.ofNat (0x10000 + (high - 0xD800) * 0x400 + (low - 0xDC00))

/-- The text where a surrogate pair has become the character that it stands for. -/
def paired : Text → Text
  | c :: d :: t =>
    if isHigh c.val && isLow d.val then joined c.val d.val :: paired t else c :: paired (d :: t)
  | t => t

theorem isHigh_iff {n : Nat} : isHigh n = true ↔ 0xD800 ≤ n ∧ n ≤ 0xDBFF := by
  simp [isHigh]

theorem isLow_iff {n : Nat} : isLow n = true ↔ 0xDC00 ≤ n ∧ n ≤ 0xDFFF := by
  simp [isLow]

theorem isHigh_eq_false_iff {n : Nat} : isHigh n = false ↔ n < 0xD800 ∨ 0xDBFF < n := by
  simp only [isHigh, Bool.and_eq_false_iff, decide_eq_false_iff_not, Nat.not_le]

theorem isLow_eq_false_iff {n : Nat} : isLow n = false ↔ n < 0xDC00 ∨ 0xDFFF < n := by
  simp only [isLow, Bool.and_eq_false_iff, decide_eq_false_iff_not, Nat.not_le]

theorem isHigh_of_isLow {n : Nat} (h : isLow n = true) : isHigh n = false := by
  rw [isLow_iff] at h
  rw [isHigh_eq_false_iff]
  omega

theorem ofNat_of_lt {n : Nat} (h : n < 0x110000) : CodePoint.ofNat n = ⟨n, h⟩ := dif_pos h

theorem ofNat_of_val {c : CodePoint} {n : Nat} (h : n = c.val) : CodePoint.ofNat n = c := by
  rw [h, c.ofNat_val]

theorem paired_cons_of_not_isHigh {c : CodePoint} (h : isHigh c.val = false) (t : Text) :
    paired (c :: t) = c :: paired t := by
  cases t with
  | nil => rfl
  | cons d t => simp [paired, h]

/-- Without surrogates there are no pairs. -/
theorem paired_of_noSurrogates {t : Text} (h : t.NoSurrogates) : paired t = t := by
  induction t with
  | nil => rfl
  | cons c t ih =>
    have hc : isHigh c.val = false := by
      have plain := CodePoint.isSurrogate_eq_false_iff.mp (h c List.mem_cons_self)
      rw [isHigh_eq_false_iff]
      omega
    rw [paired_cons_of_not_isHigh hc, ih fun d hd => h d (List.mem_cons_of_mem c hd)]

/-! ### Numeric escapes -/

/-- The digit with a value. -/
def hexDigit (d : Nat) : CodePoint := CodePoint.ofChar (Nat.digitChar d)

theorem hexValue?_hexDigit {d : Nat} (h : d < 16) : (hexDigit d).hexValue? = some d := by
  have all : ∀ d < 16, (hexDigit d).hexValue? = some d := by decide
  exact all d h

theorem pushUnit_of_not_isLow {n : Nat} (h : isLow n = false) (joins : Bool) (done : Text) :
    pushUnit joins n done = CodePoint.ofNat n :: done := by
  have low : (decide (0xDC00 ≤ n) && decide (n ≤ 0xDFFF)) = false := h
  cases done with
  | nil => rfl
  | cons d done =>
    rw [pushUnit, Bool.and_assoc, low, Bool.and_false]
    rfl

theorem pushUnit_false (n : Nat) (done : Text) :
    pushUnit false n done = CodePoint.ofNat n :: done := by
  cases done <;> rfl

theorem pushUnit_of_isLow {n : Nat} (h : isLow n = true) (high : CodePoint) (done : Text) :
    pushUnit true n (high :: done) = joined high.val n :: done := by
  have low : (decide (0xDC00 ≤ n) && decide (n ≤ 0xDFFF)) = true := h
  rw [pushUnit, Bool.and_assoc, low]
  rfl

theorem hex_four {n : Nat} (h : n < 0x10000) : Text.hex 4 n =
    [hexDigit (n / 0x1000), hexDigit (n / 0x100 % 16), hexDigit (n / 16 % 16),
      hexDigit (n % 16)] := by
  have more {m : Nat} (hm : 16 ≤ m) : Nat.toDigits 16 m =
      Nat.toDigits 16 (m / 16) ++ [Nat.digitChar (m % 16)] :=
    Nat.toDigits_of_base_le (by decide) hm
  have last {m : Nat} (hm : m < 16) : Nat.toDigits 16 m = [Nat.digitChar m] :=
    Nat.toDigits_of_lt_base hm
  -- by the number of digits without leading zeros
  by_cases h₁ : n < 16
  · have e₃ : n / 0x1000 = 0 := by omega
    have e₂ : n / 0x100 % 16 = 0 := by omega
    have e₁ : n / 16 % 16 = 0 := by omega
    have e₀ : n % 16 = n := by omega
    rw [e₃, e₂, e₁, e₀, Text.hex, last h₁]
    rfl
  · by_cases h₂ : n < 0x100
    · have e₃ : n / 0x1000 = 0 := by omega
      have e₂ : n / 0x100 % 16 = 0 := by omega
      have e₁ : n / 16 % 16 = n / 16 := by omega
      rw [e₃, e₂, e₁, Text.hex, more (by omega), last (by omega : n / 16 < 16)]
      rfl
    · by_cases h₃ : n < 0x1000
      · have e₃ : n / 0x1000 = 0 := by omega
        have e₂ : n / 0x100 % 16 = n / 16 / 16 := by omega
        rw [e₃, e₂, Text.hex, more (by omega), more (by omega : 16 ≤ n / 16),
          last (by omega : n / 16 / 16 < 16)]
        rfl
      · have e₃ : n / 0x1000 = n / 16 / 16 / 16 := by omega
        have e₂ : n / 0x100 % 16 = n / 16 / 16 % 16 := by omega
        rw [e₃, e₂, Text.hex, more (by omega), more (by omega : 16 ≤ n / 16),
          more (by omega : 16 ≤ n / 16 / 16), last (by omega : n / 16 / 16 / 16 < 16)]
        rfl

theorem takeString?_escapeUnit {n : Nat} (h : n < 0x10000) (joins : Bool) (t done : Text) :
    takeString? .plain joins (escapeUnit n ++ t) done =
      takeString? .plain (isHigh n) t (pushUnit joins n done) := by
  have value : (((0 * 16 + n / 0x1000) * 16 + n / 0x100 % 16) * 16 + n / 16 % 16) * 16 + n % 16 =
      n := by omega
  have high : (isHigh n && !(joins && decide (0xDC00 ≤ n))) = isHigh n := by
    by_cases hn : 0xDC00 ≤ n
    · have not : isHigh n = false := isHigh_eq_false_iff.mpr (by omega)
      rw [not]
      rfl
    · simp [hn]
  rw [escapeUnit, hex_four h]
  show takeString? .plain joins ('\\' :: 'u' :: hexDigit (n / 0x1000) ::
    hexDigit (n / 0x100 % 16) :: hexDigit (n / 16 % 16) :: hexDigit (n % 16) :: t) done = _
  simp only [takeString?, hexValue?_hexDigit (by omega : n / 0x1000 < 16),
    hexValue?_hexDigit (by omega : n / 0x100 % 16 < 16),
    hexValue?_hexDigit (by omega : n / 16 % 16 < 16), hexValue?_hexDigit (by omega : n % 16 < 16)]
  rw [value, high]
  rfl

/-! ### Characters -/

theorem takeString?_escapeLetter {c d : CodePoint} (hu : c ≠ 'u') (h : escapeLetter? c = some d)
    (joins : Bool) (t done : Text) :
    takeString? .plain joins ('\\' :: c :: t) done = takeString? .plain false t (d :: done) := by
  have quote : CodePoint.ofChar '\\' ≠ CodePoint.ofChar '"' := by decide
  simp only [takeString?, quote, hu, h, if_false, if_true]

/-- A character that is no half of a pair that began before is read back. -/
theorem takeString?_escapeChar {c : CodePoint} (hc : isLow c.val = false) (joins : Bool)
    (t done : Text) :
    takeString? .plain joins (escapeChar c ++ t) done =
      takeString? .plain (isHigh c.val) t (c :: done) := by
  have letter {d e : CodePoint} (hd : d ≠ 'u') (h : escapeLetter? d = some e)
      (he : isHigh e.val = false) :
      takeString? .plain joins ('\\' :: d :: t) done =
        takeString? .plain (isHigh e.val) t (e :: done) := by
    rw [he, takeString?_escapeLetter hd h]
  unfold escapeChar
  by_cases h₁ : c = '"'
  · subst h₁
    exact letter (d := '"') (by decide) (by decide) (by decide)
  by_cases h₂ : c = '\\'
  · subst h₂
    exact letter (d := '\\') (by decide) (by decide) (by decide)
  by_cases h₃ : c = '\n'
  · subst h₃
    exact letter (d := 'n') (by decide) (by decide) (by decide)
  by_cases h₄ : c = '\r'
  · subst h₄
    exact letter (d := 'r') (by decide) (by decide) (by decide)
  by_cases h₅ : c = '\t'
  · subst h₅
    exact letter (d := 't') (by decide) (by decide) (by decide)
  by_cases h₆ : c.val = 8
  · obtain rfl : c = CodePoint.ofNat 8 := (ofNat_of_val h₆.symm).symm
    exact letter (d := 'b') (by decide) (by decide) (by decide)
  by_cases h₇ : c.val = 12
  · obtain rfl : c = CodePoint.ofNat 12 := (ofNat_of_val h₇.symm).symm
    exact letter (d := 'f') (by decide) (by decide) (by decide)
  rw [if_neg h₁, if_neg h₂, if_neg h₃, if_neg h₄, if_neg h₅, if_neg h₆, if_neg h₇]
  by_cases h₈ : (32 ≤ c.val && c.val ≤ 126) = true
  · -- the character itself
    rw [if_pos h₈]
    simp only [Bool.and_eq_true, decide_eq_true_eq] at h₈
    have plain : isHigh c.val = false := isHigh_eq_false_iff.mpr (by omega)
    have visible : ¬ c.val < 32 := by omega
    rw [plain]
    simp only [List.singleton_append, takeString?, h₁, h₂, visible, if_false]
  · rw [if_neg h₈]
    by_cases h₉ : c.val < 0x10000
    · rw [if_pos h₉, takeString?_escapeUnit h₉]
      rw [pushUnit_of_not_isLow hc, ofNat_of_val rfl]
    · -- the escapes of two halves, which are joined
      have bound := c.lt
      have first : isHigh (0xD800 + (c.val - 0x10000) / 0x400) = true := by
        rw [isHigh_iff]
        omega
      have second : isHigh (0xDC00 + (c.val - 0x10000) % 0x400) = false :=
        isHigh_eq_false_iff.mpr (by omega)
      have plain : isHigh c.val = false := isHigh_eq_false_iff.mpr (by omega)
      have high : isLow (0xD800 + (c.val - 0x10000) / 0x400) = false :=
        isLow_eq_false_iff.mpr (by omega)
      have low : isLow (0xDC00 + (c.val - 0x10000) % 0x400) = true := by
        rw [isLow_iff]
        omega
      rw [if_neg h₉]
      show takeString? .plain joins (escapeUnit (0xD800 + (c.val - 0x10000) / 0x400) ++
        escapeUnit (0xDC00 + (c.val - 0x10000) % 0x400) ++ t) done = _
      rw [List.append_assoc, takeString?_escapeUnit (by omega), first,
        takeString?_escapeUnit (by omega), second, plain, pushUnit_of_not_isLow high,
        ofNat_of_lt (by omega), pushUnit_of_isLow low, joined, ofNat_of_val]
      show 0x10000 + (0xD800 + (c.val - 0x10000) / 0x400 - 0xD800) * 0x400 +
        (0xDC00 + (c.val - 0x10000) % 0x400 - 0xDC00) = c.val
      omega

theorem takeString?_escapeChar_of_isLow {c : CodePoint} (hc : isLow c.val = true) (joins : Bool)
    (t done : Text) :
    takeString? .plain joins (escapeChar c ++ t) done =
      takeString? .plain false t (pushUnit joins c.val done) := by
  have bounds := isLow_iff.mp hc
  have unit : escapeChar c = escapeUnit c.val := by
    have ne {d : CodePoint} (hd : d.val < 0xDC00) : c ≠ d := by
      rintro rfl
      omega
    unfold escapeChar
    rw [if_neg (ne (by decide)), if_neg (ne (by decide)), if_neg (ne (by decide)),
      if_neg (ne (by decide)), if_neg (ne (by decide)), if_neg (by omega), if_neg (by omega),
      if_neg (by simp; omega), if_pos (by omega)]
  rw [unit, takeString?_escapeUnit (by omega), isHigh_of_isLow hc]

/-! ### Strings -/

/-- **A string is read back**, up to its surrogate pairs. -/
theorem takeString?_escaped (t rest done : Text) :
    takeString? .plain false (t.flatMap escapeChar ++ ('"' : CodePoint) :: rest) done =
      some (done.reverse ++ paired t, rest) := by
  have last (joins : Bool) (done : Text) :
      takeString? .plain joins ('"' :: rest) done = some (done.reverse, rest) := rfl
  -- by cases of `paired`: a pair, a character before others, and the last character
  fun_induction paired t generalizing done with
  | case1 c d t pair ih =>
    rw [Bool.and_eq_true] at pair
    obtain ⟨hc, hd⟩ := pair
    have first : isLow c.val = false := by
      rw [Bool.eq_false_iff]
      intro hc'
      rw [isHigh_of_isLow hc'] at hc
      cases hc
    rw [List.flatMap_cons, List.flatMap_cons, List.append_assoc, List.append_assoc,
      takeString?_escapeChar first, hc, takeString?_escapeChar_of_isLow hd, pushUnit_of_isLow hd,
      ih]
    simp
  | case2 c d t single ih =>
    have step : takeString? .plain false
          ((c :: d :: t).flatMap escapeChar ++ ('"' : CodePoint) :: rest) done =
        takeString? .plain false
          ((d :: t).flatMap escapeChar ++ ('"' : CodePoint) :: rest) (c :: done) := by
      rw [List.flatMap_cons, List.append_assoc]
      by_cases hc : isLow c.val = true
      · rw [takeString?_escapeChar_of_isLow hc, pushUnit_false, ofNat_of_val rfl]
      · rw [takeString?_escapeChar (Bool.eq_false_iff.mpr hc)]
        by_cases high : isHigh c.val = true
        · -- the first half of no pair, so that it does not matter for the next character
          have hd : isLow d.val = false := by
            rw [Bool.eq_false_iff]
            intro hd
            exact single (by rw [high, hd]; rfl)
          rw [List.flatMap_cons, List.append_assoc, takeString?_escapeChar hd,
            takeString?_escapeChar hd]
        · rw [Bool.eq_false_iff.mpr high]
    rw [step, ih]
    simp
  | case3 t short =>
    cases t with
    | nil => simp [last]
    | cons c t =>
      cases t with
      | cons d t => exact absurd rfl (short c d t)
      | nil =>
        rw [List.flatMap_cons, List.append_assoc]
        by_cases hc : isLow c.val = true
        · rw [takeString?_escapeChar_of_isLow hc, pushUnit_false, ofNat_of_val rfl]
          simp [last]
        · rw [takeString?_escapeChar (Bool.eq_false_iff.mpr hc)]
          simp [last]

end Json

end RepoScan
