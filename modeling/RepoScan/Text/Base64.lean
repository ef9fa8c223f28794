import RepoScan.Text.Utf8

/-!
# Base 64

The encoding in which a repository host ships file bodies.  The decoder passes over characters
outside the alphabet, so that line breaks in the encoded text do not matter.
-/

namespace RepoScan.Base64

/-- The digit with value `n`. -/
def digit (n : Nat) : CodePoint :=
  if n < 26 then CodePoint.ofNat (65 + n)
  else if n < 52 then CodePoint.ofNat (71 + n)
  else if n < 62 then CodePoint.ofNat (n - 4)
  else if n = 62 then '+' else '/'

/-- The value of a digit. -/
def value? (c : CodePoint) : Option Nat :=
  if c.isAsciiUpper then some (c.val - 65)
  else if c.isAsciiLower then some (c.val - 71)
  else if c.isAsciiDigit then some (c.val + 4)
  else if c = '+' then some 62
  else if c = '/' then some 63
  else none

/-- The encoded text of the bytes, padded to a multiple of four characters. -/
def encode (bytes : Bytes) : Text := go bytes []
where
  /-- `done` is the output, reversed. -/
  go : Bytes → Text → Text
    | [], done => done.reverse
    | [a], done =>
      let n := a.toNat * 16
      (Text.ofString "==" ++ digit (n % 64) :: digit (n / 64) :: done).reverse
    | [a, b], done =>
      let n := (a.toNat * 256 + b.toNat) * 4
      (Text.ofString "=" ++ digit (n % 64) :: digit (n / 64 % 64) :: digit (n / 4096) :: done).reverse
    | a :: b :: c :: rest, done =>
      let n := (a.toNat * 256 + b.toNat) * 256 + c.toNat
      go rest (digit (n % 64) :: digit (n / 64 % 64) :: digit (n / 4096 % 64) ::
        digit (n / 262144) :: done)

/-- The bytes of an encoded text; `none` where it ends inside a group that is not padded.  A group
of two or three digits is padded by as many padding characters as it lacks digits, with no digit
among them; what follows such a group does not count.

`held` digits of the current group have the value `bits`, and `pads` padding characters follow
them. -/
def decode? (t : Text) : Option Bytes := go t 0 0 0 []
where
  /-- `done` is the output, reversed. -/
  go : Text → (held bits pads : Nat) → Bytes → Option Bytes
    | [], held, _, _, done => if held = 0 then some done.reverse else none
    | c :: t, held, bits, pads, done =>
      if c = '=' then
        if held < 2 then go t held bits pads done
        else if held + pads + 1 < 4 then go t held bits (pads + 1) done
        else some done.reverse
      else match value? c with
        | none => go t held bits pads done
        | some v =>
          match held with
          | 0 => go t 1 v 0 done
          | 1 => go t 2 (v % 16) 0 (UInt8.ofNat (bits * 4 + v / 16) :: done)
          | 2 => go t 3 (v % 4) 0 (UInt8.ofNat (bits * 16 + v / 4) :: done)
          | _ => go t 0 0 0 (UInt8.ofNat (bits * 64 + v) :: done)

end RepoScan.Base64
