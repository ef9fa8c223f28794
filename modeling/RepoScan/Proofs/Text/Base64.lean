import RepoScan.Proofs.Text.Utf8
import RepoScan.Text.Base64

/-!
# Reading back what is encoded

Three bytes are written with four digits, and a last group of one or two bytes with a digit more
than it has bytes and with padding.  The decoder takes the groups one after the other, and
characters that are neither digits nor padding do not move it.

* `Base64.value?_digit` : the decoder reads the digits that are written;
* `Base64.encode_cons` : the encoded text, group by group;
* `Base64.decode?_encode` : **the bytes are read back**;
* `Base64.decode?_filter`, `Base64.decode?_of_encodes` : line breaks in the text do not matter.
-/

namespace RepoScan.Base64

/-! ### Digits -/

theorem value?_digit {n : Nat} (h : n < 64) : value? (digit n) = some n := by
  have all : ∀ n < 64, value? (digit n) = some n := by decide
  exact all n h

theorem digit_ne_padding {n : Nat} (h : n < 64) : digit n ≠ '=' := by
  have all : ∀ n < 64, digit n ≠ '=' := by decide
  exact all n h

/-! ### Groups -/

theorem encodeGo_eq : ∀ (bytes : Bytes) (done : Text),
    encode.go bytes done = done.reverse ++ encode bytes
  | [], done => (List.append_nil _).symm
  | [a], done => by
    rw [encode, encode.go, encode.go, List.reverse_append, List.reverse_append]
    simp only [List.reverse_cons, List.append_assoc, List.reverse_nil, List.nil_append]
  | [a, b], done => by
    rw [encode, encode.go, encode.go, List.reverse_append, List.reverse_append]
    simp only [List.reverse_cons, List.append_assoc, List.reverse_nil, List.nil_append]
  | a :: b :: c :: rest, done => by
    rw [encode, encode.go, encode.go, encodeGo_eq rest, encodeGo_eq rest (_ :: _)]
    simp only [List.reverse_cons, List.append_assoc, List.reverse_nil, List.nil_append]

/-- Three bytes more are a group more. -/
theorem encode_cons (a b c : UInt8) (rest : Bytes) :
    encode (a :: b :: c :: rest) =
      let n := (a.toNat * 256 + b.toNat) * 256 + c.toNat
      digit (n / 262144) :: digit (n / 4096 % 64) :: digit (n / 64 % 64) :: digit (n % 64) ::
        encode rest := by
  rw [encode, encode.go, encodeGo_eq]
  rfl

theorem decodeGo_digit {v : Nat} (h : v < 64) (t : Text) (held bits pads : Nat) (done : Bytes) :
    decode?.go (digit v :: t) held bits pads done =
      match held with
      | 0 => decode?.go t 1 v 0 done
      | 1 => decode?.go t 2 (v % 16) 0 (UInt8.ofNat (bits * 4 + v / 16) :: done)
      | 2 => decode?.go t 3 (v % 4) 0 (UInt8.ofNat (bits * 16 + v / 4) :: done)
      | _ => decode?.go t 0 0 0 (UInt8.ofNat (bits * 64 + v) :: done) := by
  rw [decode?.go, if_neg (digit_ne_padding h)]
  split
  · rename_i none
    rw [value?_digit h] at none
    cases none
  · rename_i some
    rw [value?_digit h] at some
    cases some
    rfl

theorem decodeGo_two {v w : Nat} (hv : v < 64) (hw : w < 64) (t : Text) (done : Bytes) :
    decode?.go (digit v :: digit w :: t) 0 0 0 done =
      decode?.go t 2 (w % 16) 0 (UInt8.ofNat (v * 4 + w / 16) :: done) :=
  (decodeGo_digit hv _ 0 0 0 done).trans (decodeGo_digit hw t 1 v 0 done)

theorem decodeGo_third {v : Nat} (h : v < 64) (t : Text) (bits : Nat) (done : Bytes) :
    decode?.go (digit v :: t) 2 bits 0 done =
      decode?.go t 3 (v % 4) 0 (UInt8.ofNat (bits * 16 + v / 4) :: done) :=
  decodeGo_digit h t 2 bits 0 done

theorem decodeGo_fourth {v : Nat} (h : v < 64) (t : Text) (bits : Nat) (done : Bytes) :
    decode?.go (digit v :: t) 3 bits 0 done =
      decode?.go t 0 0 0 (UInt8.ofNat (bits * 64 + v) :: done) :=
  decodeGo_digit h t 3 bits 0 done

theorem decodeGo_encode : ∀ (bytes done : Bytes),
    decode?.go (encode bytes) 0 0 0 done = some (done.reverse ++ bytes)
  | [], done => congrArg some (List.append_nil _).symm
  | [a], done => by
    have ha := a.toNat_lt
    have text : encode [a] = digit (a.toNat * 16 / 64) :: digit (a.toNat * 16 % 64) :: "==" := rfl
    have first : UInt8.ofNat (a.toNat * 16 / 64 * 4 + a.toNat * 16 % 64 / 16) = a :=
      ofNat_eq_of_toNat (by omega)
    rw [text, decodeGo_two (by omega) (by omega), first]
    exact congrArg some List.reverse_cons
  | [a, b], done => by
    have ha := a.toNat_lt
    have hb := b.toNat_lt
    let n := (a.toNat * 256 + b.toNat) * 4
    have text : encode [a, b] = digit (n / 4096) :: digit (n / 64 % 64) :: digit (n % 64) :: "=" :=
      rfl
    have first : UInt8.ofNat (n / 4096 * 4 + n / 64 % 64 / 16) = a := ofNat_eq_of_toNat (by omega)
    have second : UInt8.ofNat (n / 64 % 64 % 16 * 16 + n % 64 / 4) = b :=
      ofNat_eq_of_toNat (by omega)
    rw [text, decodeGo_two (by omega) (by omega), decodeGo_third (by omega), first, second]
    refine congrArg some ?_
    rw [List.reverse_cons, List.reverse_cons, List.append_assoc]
    rfl
  | a :: b :: c :: rest, done => by
    have ha := a.toNat_lt
    have hb := b.toNat_lt
    have hc := c.toNat_lt
    let n := (a.toNat * 256 + b.toNat) * 256 + c.toNat
    have first : UInt8.ofNat (n / 262144 * 4 + n / 4096 % 64 / 16) = a :=
      ofNat_eq_of_toNat (by omega)
    have second : UInt8.ofNat (n / 4096 % 64 % 16 * 16 + n / 64 % 64 / 4) = b :=
      ofNat_eq_of_toNat (by omega)
    have third : UInt8.ofNat (n / 64 % 64 % 4 * 64 + n % 64) = c := ofNat_eq_of_toNat (by omega)
    rw [encode_cons, decodeGo_two (by omega) (by omega), decodeGo_third (by omega),
      decodeGo_fourth (by omega), first, second, third, decodeGo_encode rest]
    simp only [List.reverse_cons, List.append_assoc, List.cons_append, List.nil_append]

/-- **What is encoded is read back.** -/
theorem decode?_encode (bytes : Bytes) : decode? (encode bytes) = some bytes :=
  decodeGo_encode bytes []

/-! ### Line breaks -/

theorem decodeGo_filter {p : CodePoint → Bool}
    (h : ∀ c, p c = false → c ≠ '=' ∧ value? c = none) (t : Text) (held bits pads : Nat)
    (done : Bytes) :
    decode?.go (t.filter p) held bits pads done = decode?.go t held bits pads done := by
  induction t generalizing held bits pads done with
  | nil => rfl
  | cons c t ih =>
    cases hp : p c with
    | false =>
      obtain ⟨pad, digit⟩ := h c hp
      have dropped : ¬ p c = true := Bool.eq_false_iff.mp hp
      rw [List.filter_cons_of_neg dropped, ih, decode?.go, if_neg pad, digit]
    | true =>
      rw [List.filter_cons_of_pos hp, decode?.go, decode?.go]
      simp only [ih]

/-- The decoder does not see whether characters that it passes over are there. -/
theorem decode?_filter {p : CodePoint → Bool} (h : ∀ c, p c = false → c ≠ '=' ∧ value? c = none)
    (t : Text) : decode? (t.filter p) = decode? t :=
  decodeGo_filter h t 0 0 0 []

/-- The character breaks a line. -/
def isBreak (c : CodePoint) : Bool := c == '\n' || c == '\r'

/-- The text is that of the bytes, with line breaks wherever they may be. -/
def Encodes (t : Text) (bytes : Bytes) : Prop := t.filter (!isBreak ·) = encode bytes

theorem passed_of_isBreak {c : CodePoint} (h : isBreak c = true) : c ≠ '=' ∧ value? c = none := by
  rw [isBreak, Bool.or_eq_true, beq_iff_eq, beq_iff_eq] at h
  rcases h with rfl | rfl
  · exact ⟨by decide, by decide⟩
  · exact ⟨by decide, by decide⟩

/-- **The bytes are read back from a text with line breaks.** -/
theorem decode?_of_encodes {t : Text} {bytes : Bytes} (h : Encodes t bytes) :
    decode? t = some bytes := by
  have passed (c : CodePoint) (hc : (!isBreak c) = false) : c ≠ '=' ∧ value? c = none :=
    passed_of_isBreak (by rwa [Bool.not_eq_false'] at hc)
  rw [← decode?_filter passed, h, decode?_encode]

end RepoScan.Base64
