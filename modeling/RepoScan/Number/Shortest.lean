import RepoScan.Number.Binary64
import RepoScan.Text.Basic

/-!
# Decimal text of floating-point numbers

The written form of a number is the one with the fewest digits that reads back as the number
itself, and of those the nearest to it.  `shortestDigits` finds it by trying the two neighbours of
the number on the decimal grids of one to seventeen digits.

Where the point stands is decided by the format: numbers from `0.0001` up to `10 ^ 16` are written
positionally and the others with an exponent.
-/

namespace RepoScan.Binary64

/-- The `k` with `10 ^ (k - 1) ≤ n / d < 10 ^ k`, for positive `n` and `d`. -/
def decimalExponent (n d : Nat) : Int :=
  let guess : Int := (((n.log2 : Int) - d.log2) * 30103) / 100000
  let below (k : Int) : Bool := if k < 0 then n * Nat.pow 10 (-k).toNat < d else n < d * Nat.pow 10 k.toNat
  if below (guess - 1) then guess - 1
  else if below guess then guess
  else if below (guess + 1) then guess + 1
  else guess + 2

/-- The neighbour of `n / d` on the grid of multiples of `10 ^ e` that reads back as the number
with the given mantissa and exponent, the nearer one where both do. -/
def gridDigits? (m : Nat) (q : Int) (n d : Nat) (e : Int) : Option Nat :=
  let (a, b) := if e < 0 then (n * Nat.pow 10 (-e).toNat, d) else (n, d * Nat.pow 10 e.toNat)
  let lo := a / b
  let reads (x : Nat) : Bool := ofDecimal false x e = .finite false m q
  let nearer := roundHalfEven a b
  let farther := if nearer = lo then lo + 1 else lo
  if reads nearer then some nearer else if reads farther then some farther else none

/-- The fewest significant digits that read back as the positive number with mantissa `m` and
exponent `q`, and the power of ten of the last of them. -/
def shortestDigits (m : Nat) (q : Int) : Nat × Int :=
  let (n, d) := ratio m q
  let k := decimalExponent n d
  let found := (List.range 17).findSome? fun (i : Nat) =>
    let e := k - ((i : Int) + 1)
    (gridDigits? m q n d e).map (·, e)
  found.getD (n / d, 0)

/-- The digits of a number without its trailing zeros, and how many there were. -/
def stripZeros (digits : Nat) (e : Int) : Nat × Int := go digits.log2 digits e
where
  /-- At most `fuel` zeros are taken off. -/
  go : Nat → Nat → Int → Nat × Int
    | 0, n, e => (n, e)
    | fuel + 1, n, e => if n % 10 = 0 && n != 0 then go fuel (n / 10) (e + 1) else (n, e)

/-- Digits `ds` with the point after the first `point` of them, positionally where the number is
neither very small nor very large. -/
def layout (ds : Text) (point : Int) : Text :=
  let zeros (n : Int) : Text := List.replicate n.toNat ('0' : CodePoint)
  if -4 < point && point ≤ 16 then
    if point ≤ 0 then ("0." : Text) ++ zeros (-point) ++ ds
    else
      let whole := ds.take point.toNat ++ zeros (point - ds.length)
      let fraction := ds.drop point.toNat
      whole ++ "." ++ (if fraction.isEmpty then ("0" : Text) else fraction)
  else
    let fraction := ds.drop 1
    let e := point - 1
    let size := Text.ofNat e.natAbs
    ds.take 1 ++ (if fraction.isEmpty then [] else ('.' : CodePoint) :: fraction)
      ++ (if e < 0 then ("e-" : Text) else ("e+" : Text))
      ++ (if size.length < 2 then ('0' : CodePoint) :: size else size)

/-- The written form of a number. -/
def toText : Binary64 → Text
  | .nan => "nan"
  | .infinite negative => if negative then "-inf" else "inf"
  | .finite negative m q =>
    let sign : Text := if negative then "-" else ""
    if m = 0 then sign ++ "0.0"
    else
      let (n, e) := shortestDigits m q
      let (n, e) := stripZeros n e
      let ds := Text.ofNat n
      sign ++ layout ds (ds.length + e)

/-- The number rounded to an integer, a tie going to the even one, as the digits of that integer. -/
def toWholeText : Binary64 → Text
  | .nan => "nan"
  | .infinite negative => if negative then "-inf" else "inf"
  | .finite negative m q =>
    let (n, d) := ratio m q
    (if negative then ("-" : Text) else []) ++ Text.ofNat (roundHalfEven n d)

end RepoScan.Binary64
