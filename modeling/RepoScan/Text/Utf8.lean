import RepoScan.Text.Basic

/-!
# UTF-8

Decoding never fails.  The bytes of a malformed sequence are taken together up to the first byte
that cannot continue it, and the decoder either marks each such stretch or leaves it out.  A text
can be encoded exactly when it holds no unpaired surrogate.
-/

namespace RepoScan

/-- A sequence of bytes. -/
abbrev Bytes := List UInt8

namespace Utf8

/-- The bytes that may follow a lead byte: how many, the range of the first of them, and the bits
that the lead byte contributes.  `none` where no sequence begins with the byte. -/
def lead? (b : Nat) : Option (Nat × Nat × Nat × Nat) :=
  if 0xC2 ≤ b && b ≤ 0xDF then some (1, 0x80, 0xBF, b - 0xC0)
  else if b == 0xE0 then some (2, 0xA0, 0xBF, 0)
  else if b == 0xED then some (2, 0x80, 0x9F, 0xD)
  else if 0xE1 ≤ b && b ≤ 0xEF then some (2, 0x80, 0xBF, b - 0xE0)
  else if b == 0xF0 then some (3, 0x90, 0xBF, 0)
  else if 0xF1 ≤ b && b ≤ 0xF3 then some (3, 0x80, 0xBF, b - 0xF0)
  else if b == 0xF4 then some (3, 0x80, 0x8F, 4)
  else none

/-- Where the decoder stands between two bytes. -/
inductive State where
  /-- Between characters. -/
  | ready
  /-- `owed` more bytes belong to the character begun, the next one between `lo` and `hi`; `bits`
  is what the bytes so far contribute. -/
  | within (owed lo hi bits : Nat)

/-- One byte: the state after it and the code points that it completes, a malformed stretch
before it giving `bad`. -/
def step (bad : Text) (s : State) (byte : UInt8) : State × Text :=
  let b := byte.toNat
  let fresh : State × Text :=
    if b < 0x80 then (.ready, [CodePoint.ofNat b])
    else match lead? b with
      | some (owed, lo, hi, bits) => (.within owed lo hi bits, [])
      | none => (.ready, bad)
  match s with
  | .ready => fresh
  | .within owed lo hi bits =>
    if lo ≤ b && b ≤ hi then
      let bits := bits * 64 + (b - 0x80)
      if owed ≤ 1 then (.ready, [CodePoint.ofNat bits])
      else (.within (owed - 1) 0x80 0xBF bits, [])
    else (fresh.1, bad ++ fresh.2)

/-- The text of the bytes, with `bad` for each malformed stretch. -/
def decodeWith (bad : Text) (bytes : Bytes) : Text := go .ready bytes []
where
  /-- `done` is the output, reversed. -/
  go (s : State) : Bytes → Text → Text
    | [], done =>
      match s with
      | .ready => done.reverse
      | .within .. => (bad.reverseAux done).reverse
    | b :: bs, done =>
      let r := step bad s b
      go r.1 bs (r.2.reverseAux done)

/-- The text of the bytes, with a replacement mark for each malformed stretch. -/
def decode (bytes : Bytes) : Text := decodeWith [CodePoint.replacement] bytes

/-- The text of the well-formed parts of the bytes. -/
def decodeValid (bytes : Bytes) : Text := decodeWith [] bytes

/-- The bytes of one code point. -/
def encodePoint (c : CodePoint) : Bytes :=
  let n := c.val
  let tail (m : Nat) : UInt8 := UInt8.ofNat (0x80 + m % 64)
  if n < 0x80 then [UInt8.ofNat n]
  else if n < 0x800 then [UInt8.ofNat (0xC0 + n / 64), tail n]
  else if n < 0x10000 then [UInt8.ofNat (0xE0 + n / 4096), tail (n / 64), tail n]
  else [UInt8.ofNat (0xF0 + n / 262144), tail (n / 4096), tail (n / 64), tail n]

/-- The bytes of a text, unless it holds an unpaired surrogate. -/
def encode? (t : Text) : Option Bytes :=
  if t.any (·.isSurrogate) then none else some (t.flatMap encodePoint)

/-- The text of the bytes, if they are well-formed. -/
def decodeStrict? (bytes : Bytes) : Option Text :=
  let t := decodeValid bytes
  if encode? t = some bytes then some t else none

end Utf8

end RepoScan
