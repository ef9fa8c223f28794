import RepoScan.Failure
import RepoScan.Value

/-!
# Converting values

Documents are written by people and by other programs, so a value is often not of the type that is
wanted: a number may come as a text, a list as a single item.  These are the conversions that are
made, and how they fail.
-/

namespace RepoScan.Value

/-- The items of a value that has items: those of a list, the keys of a mapping, the characters of
a text. -/
def toItems : Value → Except Failure (List Value)
  | list items => .ok items
  | set items => .ok items
  | pair a b => .ok [a, b]
  | map es => .ok (es.map (·.1))
  | text t => .ok (t.map fun c => .text [c])
  | bytes b => .ok (b.map fun x => .int x.toNat)
  | v => .error (.notIterable v.typeName)

/-- Bytes as ASCII characters; a byte beyond them spells nothing. -/
def bytesText (b : Bytes) : Text :=
  b.map fun x => if x < 128 then CodePoint.ofNat x.toNat else CodePoint.replacement

/-- The integer that a text spells; `given` is the text as messages show it. -/
def readInt (given t : Text) : Except Failure Int :=
  match Number.readInteger t with
  | .ok i => .ok i
  | .error .malformed => .error (.notInteger 10 given)
  | .error (.tooLong n) => .error (.tooManyDigits n)

/-- The integer of a value: a truth value counts as zero or one, a number loses its fraction, and a
text is read. -/
def toInt : Value → Except Failure Int
  | bool b => .ok (if b then 1 else 0)
  | int i => .ok i
  | real .nan => .error .nanToInteger
  | real (.infinite _) => .error .infinityToInteger
  | real (.finite s m e) => .ok (Binary64.truncate s m e)
  | text t => readInt t.quoted t
  | bytes b => readInt (shownBytes b) (bytesText b)
  | v => .error (.noInteger v.typeName)

/-- The number nearest to an integer. -/
def realOfInt (i : Int) : Except Failure Binary64 :=
  match Binary64.ofInt? i with
  | some x => .ok x
  | none => .error .integerToInfinity

/-- The number that a text spells; `given` is the text as messages show it. -/
def readReal (given t : Text) : Except Failure Binary64 :=
  match Number.readReal? t with
  | some x => .ok x
  | none => .error (.notReal given)

/-- The number of a value: a truth value counts as zero or one, and a text is read. -/
def toReal : Value → Except Failure Binary64
  | bool b => realOfInt (if b then 1 else 0)
  | int i => realOfInt i
  | real x => .ok x
  | text t => readReal t.quoted t
  | bytes b => readReal (shownBytes b) (bytesText b)
  | v => .error (.noReal v.typeName)

end RepoScan.Value
