import RepoScan.Number.Binary64
import RepoScan.Text.Class

/-!
# Reading numbers

How the settings and reports spell numbers.  Digits may come from any script, single low lines may
stand between digits, and white space may surround the number.  Within ASCII the separators `0x1C`
to `0x1F` do not count as such white space.

* `readInteger` : an optional sign and digits, at most `maxDigits` of them;
* `readReal?` : a decimal number with optional fraction and exponent, or the words for infinity
  and for what is not a number.
-/

namespace RepoScan.Number

/-- White space that may surround a number. -/
def isPadding (c : CodePoint) : Bool :=
  if c.isAscii then (9 ≤ c.val && c.val ≤ 13) || c.val == 32 else c.isSpace

/-- The most digits that an integer may have. -/
def maxDigits : Nat := 4300

/-- Why a text is not an integer. -/
inductive IntegerFault where
  /-- The text does not spell an integer. -/
  | malformed
  /-- The integer has more than `maxDigits` digits. -/
  | tooLong (digits : Nat)
deriving DecidableEq

/-- The sign at the start of a text, true for a minus sign, and the rest. -/
def takeSign : Text → Bool × Text
  | [] => (false, [])
  | c :: t => if c = '-' then (true, t) else if c = '+' then (false, t) else (false, c :: t)

/-- The values of the digits at the start of a text, single low lines between them passed over,
and the rest. -/
def takeDigits (t : Text) : List Nat × Text := go t []
where
  /-- `done` holds the values read so far, reversed. -/
  go : Text → List Nat → List Nat × Text
    | [], done => (done.reverse, [])
    | c :: t, done =>
      match c.decimalValue? with
      | some v => go t (v :: done)
      | none =>
        if c = '_' && !done.isEmpty then
          match t with
          | d :: t' =>
            match d.decimalValue? with
            | some v => go t' (v :: done)
            | none => (done.reverse, c :: t)
          | [] => (done.reverse, c :: t)
        else (done.reverse, c :: t)

/-- The number that digits spell. -/
def ofDigits (base : Nat) (ds : List Nat) : Nat := ds.foldl (fun n d => n * base + d) 0

/-- The integer that a text spells.  Too many digits are told of before anything else that follows
them, but for a low line. -/
def readInteger (t : Text) : Except IntegerFault Int :=
  let (negative, body) := takeSign (Text.trim isPadding t)
  let (ds, rest) := takeDigits body
  if rest.head? = some ('_' : CodePoint) then .error .malformed
  else if maxDigits < ds.length then .error (.tooLong ds.length)
  else if ds.isEmpty || !rest.isEmpty then .error .malformed
  else
    let n : Int := ofDigits 10 ds
    .ok (if negative then -n else n)

/-- The number that digits, a fraction and a power of ten spell. -/
def assemble (negative : Bool) (whole fraction : List Nat) (e : Int) : Binary64 :=
  Binary64.ofDecimal negative (ofDigits 10 (whole ++ fraction)) (e - fraction.length)

/-- The exponent at the start of a text, if there is one, and the rest. -/
def takeExponent (t : Text) : Int × Text :=
  match t with
  | c :: t' =>
    if c = 'e' || c = 'E' then
      let (negative, body) := takeSign t'
      let (ds, rest) := takeDigits body
      if ds.isEmpty then (0, t)
      else
        let n : Int := ofDigits 10 ds
        (if negative then -n else n, rest)
    else (0, t)
  | [] => (0, [])

/-- The number that an unsigned text spells. -/
def readMagnitude? (negative : Bool) (t : Text) : Option Binary64 :=
  let word := t.map fun c => if c.isAsciiUpper then CodePoint.ofNat (c.val + 32) else c
  if word = "inf" || word = "infinity" then some (.infinite negative)
  else if word = "nan" then some .nan
  else
    let (whole, rest) := takeDigits t
    let (fraction, rest) := match rest with
      | c :: rest' => if c = '.' then takeDigits rest' else ([], rest)
      | [] => ([], [])
    let (e, rest) := takeExponent rest
    if (whole.isEmpty && fraction.isEmpty) || !rest.isEmpty then none
    else some (assemble negative whole fraction e)

/-- The number that a text spells. -/
def readReal? (t : Text) : Option Binary64 :=
  let (negative, body) := takeSign (Text.trim isPadding t)
  readMagnitude? negative body

end RepoScan.Number
