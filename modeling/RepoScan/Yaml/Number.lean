import RepoScan.Text.Case
import RepoScan.Value.Conversion
import RepoScan.Yaml.Tag

/-!
# Numbers and moments of documents

How the written form of a scalar becomes a number or a moment.  Where the form gave the type, little
can go wrong; a tag can ask for a type that the text does not spell, and the failures say so.
-/

namespace RepoScan.Yaml

/-- The text without low lines. -/
def withoutLines (t : Text) : Text := t.filter (· != '_')

/-- The sign at the start of a text, true for a minus sign, and the rest.  An empty text has no
first character to look at. -/
def takeSign (t : Text) : Except Failure (Bool × Text) :=
  if t.isEmpty then .error .emptyNumber else .ok (Number.takeSign t)

/-- The value of a digit below a base. -/
def digitBelow? (base : Nat) (c : CodePoint) : Option Nat :=
  match c.hexValue?.orElse fun _ => c.decimalValue? with
  | some n => if n < base then some n else none
  | none => none

/-- The mark that may stand before the digits of a base. -/
def baseMark (base : Nat) : CodePoint := if base = 2 then 'b' else if base = 8 then 'o' else 'x'

/-- The digits without the mark of their base. -/
def withoutMark (base : Nat) (t : Text) : Text :=
  match t with
  | z :: c :: rest => if z = '0' && Text.lower [c] = [baseMark base] then rest else t
  | _ => t

/-- The integer that digits of a base spell. -/
def readBase (base : Nat) (t : Text) : Except Failure Int :=
  let (negative, body) := Number.takeSign (Text.trim Number.isPadding t)
  match (withoutMark base body).mapM (digitBelow? base) with
  | some (d :: ds) =>
    let n : Int := Number.ofDigits base (d :: ds)
    .ok (if negative then -n else n)
  | _ => .error (.notInteger base t.quoted)

/-- The integer to base sixty whose places are given, the first one most significant. -/
def ofSixtieths (places : List Int) : Int := places.foldl (fun n p => n * 60 + p) 0

/-- The integer that a scalar spells. -/
def intOf (t : Text) : Except Failure Int := do
  let (negative, t) ← takeSign (withoutLines t)
  let n ←
    if t = "0" then pure 0
    else if Text.startsWith t "0b" then readBase 2 (t.drop 2)
    else if Text.startsWith t "0x" then readBase 16 (t.drop 2)
    else match t with
    | [] => throw .emptyNumber
    | c :: _ =>
      if c = '0' then readBase 8 t
      else if t.contains ':' then
        (ofSixtieths <$> (Text.splitOn ':' t).mapM fun p => Value.readInt p.quoted p)
      else Value.readInt t.quoted t
  pure (if negative then -n else n)

/-- The number to base sixty whose places are given, the least significant one first, beginning
with a sum and the power of sixty of the first place. -/
def addSixtieths : (sum : Binary64) → (power : Nat) → List Binary64 → Except Failure Binary64
  | sum, _, [] => .ok sum
  | sum, power, p :: ps => do
    let scale ← Value.realOfInt power
    addSixtieths (sum.add (p.mul scale)) (power * 60) ps

/-- The number that a scalar spells. -/
def realOf (t : Text) : Except Failure Binary64 := do
  let (negative, t) ← takeSign (Text.lower (withoutLines t))
  if t = ".nan" then return .nan
  let x ←
    if t = ".inf" then pure (Binary64.infinite false)
    else if t.contains ':' then do
      let places ← (Text.splitOn ':' t).mapM fun p => Value.readReal p.quoted p
      addSixtieths .zero 1 places.reverse
    else Value.readReal t.quoted t
  pure (if negative then x.negate else x)

/-- The number that ASCII digits spell. -/
def digits (t : Text) : Nat := t.foldl (fun n c => n * 10 + (c.val - 48)) 0

/-- A distance from universal time. -/
def distanceOf (negative : Bool) (hours minutes : Text) : Int :=
  let n : Int := (digits hours * 3600 + digits minutes * 60) * Moment.aSecond
  if negative then -n else n

/-- The day or moment that a scalar spells. -/
def momentOf (t : Text) : Except Failure Value :=
  match Tag.momentParts? (Tag.withoutBreak t) with
  | none => .error .notMoment
  | some p =>
    match p.time with
    | none =>
      match Date.make (digits p.year) (digits p.month) (digits p.day) with
      | .ok d => .ok (.date d)
      | .error e => .error (.calendar e)
    | some (hour, minute, second, fraction) =>
      let offset := p.offset.map fun (negative, hours, minutes) =>
        distanceOf negative hours minutes
      match Moment.make (digits p.year) (digits p.month) (digits p.day) (digits hour)
          (digits minute) (digits second) (Moment.fraction fraction) offset with
      | .ok m => .ok (.moment m)
      | .error e => .error (.calendar e)

end RepoScan.Yaml
