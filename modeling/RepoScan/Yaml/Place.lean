import RepoScan.Yaml.Document

/-!
# Places in documents

A `Place` is a document seen from one of its parts.  The values of a document are used through
places, since a part may be a part of itself: `Place.items?` and `Place.get` step to other places,
and `Place.value` is the value at the place, in which a collection around a part is not repeated.
-/

namespace RepoScan.Yaml

/-- A part of a document. -/
structure Place where
  parts : Array Part
  index : Nat
  /-- How many collections may lie around a part where a value is shown. -/
  room : Nat

/-- The place of the root, where there is room to show as many collections inside of each other. -/
def Document.top (d : Document) (room : Nat) : Place := ⟨d.parts, d.root, room⟩

namespace Place

/-- The part at the place. -/
def part (p : Place) : Part := p.parts.getD p.index (.scalar .null)

/-- The place of another part of the document. -/
def move (p : Place) (i : Nat) : Place := { p with index := i }

/-- A place that holds a value by itself. -/
def ofPart (k : Part) : Place := ⟨#[k], 0, 1⟩

/-- The scalar at the place, if it is one. -/
def scalar? (p : Place) : Option Value :=
  match p.part with
  | .scalar v => some v
  | _ => none

/-- The value counts as given: it is neither null nor false, zero or empty. -/
def isTruthy (p : Place) : Bool :=
  match p.part with
  | .scalar v => v.isTruthy
  | .list items | .set items => !items.isEmpty
  | .pair .. => true
  | .map es => !es.isEmpty

/-- The first of two places whose value counts as given, and the second where neither does. -/
def orElse (p q : Place) : Place := if p.isTruthy then p else q

/-- The name of the value's type, as messages give it. -/
def typeName (p : Place) : Text :=
  match p.part with
  | .scalar v => v.typeName
  | .list _ => "list"
  | .pair .. => "tuple"
  | .set _ => "set"
  | .map _ => "dict"

/-! ### Steps -/

/-- The items of a list. -/
def items? (p : Place) : Option (List Place) :=
  match p.part with
  | .list items => some (items.map p.move)
  | _ => none

/-- The items of a list, a set or a pair. -/
def members? (p : Place) : Option (List Place) :=
  match p.part with
  | .list items | .set items => some (items.map p.move)
  | .pair a b => some [p.move a, p.move b]
  | _ => none

/-- The keys and values of a mapping. -/
def entries? (p : Place) : Option (List (Value × Place)) :=
  match p.part with
  | .map es => some (es.map fun e => (((p.move e.1).scalar?).getD .null, p.move e.2))
  | _ => none

/-- The value at a text key of entries, null where there is none. -/
def get (key : Text) (es : List (Value × Place)) : Place :=
  match es.find? fun e => e.1.sameKey (.text key) with
  | some e => e.2
  | none => ofPart (.scalar .null)

/-! ### Values -/

mutual

/-- The value of the part `i`.  The parts in `around` are those that it lies in; one of them is not
repeated. -/
def valueIn (parts : Array Part) : (fuel : Nat) → (around : List Nat) → (i : Nat) →
    Except Failure Value
  | 0, _, _ => .error .tooDeep
  | fuel + 1, around, i =>
    let inside := i :: around
    match parts.getD i (.scalar .null), around.contains i with
    | .scalar v, _ => .ok v
    | .list _, true => .ok (.again .list)
    | .pair .., true => .ok (.again .pair)
    | .map _, true => .ok (.again .map)
    | .list items, false => (valuesIn parts fuel inside items).map .list
    | .set items, _ => (valuesIn parts fuel inside items).map .set
    | .pair a b, false => do
      pure (.pair (← valueIn parts fuel inside a) (← valueIn parts fuel inside b))
    | .map es, false => (entriesIn parts fuel inside es).map .map

/-- The values of parts. -/
def valuesIn (parts : Array Part) : (fuel : Nat) → (around : List Nat) → (items : List Nat) →
    Except Failure (List Value)
  | 0, _, _ => .error .tooDeep
  | fuel + 1, around, items => items.mapM fun i => valueIn parts fuel around i

/-- The keys and values of entries. -/
def entriesIn (parts : Array Part) : (fuel : Nat) → (around : List Nat) → (es : Entries) →
    Except Failure (List (Value × Value))
  | 0, _, _ => .error .tooDeep
  | fuel + 1, around, es => es.mapM fun e => do
    pure (← valueIn parts fuel around e.1, ← valueIn parts fuel around e.2)

end

/-- The value at the place, as it is shown. -/
def value (p : Place) : Except Failure Value := valueIn p.parts (2 * p.room) [] p.index

/-- The value at the place as text. -/
def toText (p : Place) : Except Failure Text := do (← p.value).write

/-- The integer at the place. -/
def toInt (p : Place) : Except Failure Int :=
  match p.part with
  | .scalar v => v.toInt
  | _ => .error (.noInteger p.typeName)

/-- The number at the place. -/
def toReal (p : Place) : Except Failure Binary64 :=
  match p.part with
  | .scalar v => v.toReal
  | _ => .error (.noReal p.typeName)

end Place

end RepoScan.Yaml
