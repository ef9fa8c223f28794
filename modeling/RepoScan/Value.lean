import RepoScan.Failure
import RepoScan.Number.Shortest
import RepoScan.Text.Utf8

/-!
# Values of documents

What a configuration file, an ignore file or a tool report holds: a `Value` is the common type of
the two document formats.  Mappings keep their entries in the order of the document.

* `Value.isTruthy` : the value counts as given, neither null nor empty nor zero;
* `Value.toText` : the value as text inside a message or a description, a text standing for itself;
* `Value.shown` : the value inside a list or mapping, where a text is quoted;
* `Value.write` : the value as text, unless it holds an integer that is too long to be written.
-/

namespace RepoScan

/-- The kinds of collections that can be parts of themselves. -/
inductive Container where
  | list
  | pair
  | map
deriving DecidableEq

/-- A value of a document. -/
inductive Value where
  | null
  | bool (b : Bool)
  | int (i : Int)
  | real (x : Binary64)
  | text (t : Text)
  | bytes (b : Bytes)
  | date (d : Date)
  | moment (m : Moment)
  | list (items : List Value)
  | pair (first second : Value)
  | set (items : List Value)
  | map (entries : List (Value × Value))
  /-- A collection that this value is a part of. -/
  | again (c : Container)

namespace Value

instance : Inhabited Value := ⟨null⟩

/-! ### Truth and types -/

/-- The value counts as given: it is neither null nor false, zero or empty. -/
def isTruthy : Value → Bool
  | null => false
  | bool b => b
  | int i => i != 0
  | real x => !x.isZero
  | text t => !t.isEmpty
  | bytes b => !b.isEmpty
  | date _ | moment _ | pair _ _ | again _ => true
  | list items => !items.isEmpty
  | set items => !items.isEmpty
  | map entries => !entries.isEmpty

/-- The name of the value's type, as messages give it. -/
def typeName : Value → Text
  | null => "NoneType"
  | bool _ => "bool"
  | int _ => "int"
  | real _ => "float"
  | text _ => "str"
  | bytes _ => "bytes"
  | date _ => "datetime.date"
  | moment _ => "datetime.datetime"
  | list _ | again .list => "list"
  | pair _ _ | again .pair => "tuple"
  | set _ => "set"
  | map _ | again .map => "dict"

/-- The first of two values that counts as given, and the second where neither does. -/
def orElse (a b : Value) : Value := if a.isTruthy then a else b

/-! ### Mappings -/

/-- The number that a truth value or an integer is. -/
def asInt? : Value → Option Int
  | bool b => some (if b then 1 else 0)
  | int i => some i
  | _ => none

/-- The two values are the same key of a mapping: equal scalars of one type, equal numbers, or
moments of one instant.  What is not a number is the same key as itself. -/
def sameKey : Value → Value → Bool
  | null, null => true
  | text s, text t => s == t
  | bytes a, bytes b => a == b
  | date a, date b => a == b
  | moment a, moment b => a.sameInstant b
  | real .nan, real .nan => true
  | real x, real y => x.same y
  | real x, v => match x.toInt?, v.asInt? with
    | some i, some j => i == j
    | _, _ => false
  | v, real y => match v.asInt?, y.toInt? with
    | some i, some j => i == j
    | _, _ => false
  | v, w => match v.asInt?, w.asInt? with
    | some i, some j => i == j
    | _, _ => false

/-- The value at a key. -/
def lookup (key : Value) (entries : List (Value × Value)) : Option Value :=
  (entries.find? fun e => e.1.sameKey key).map (·.2)

/-- The entries with one more.  A key that is there already keeps its place and gets the new
value. -/
def put (key value : Value) (entries : List (Value × Value)) : List (Value × Value) :=
  if entries.any fun e => e.1.sameKey key then
    entries.map fun e => if e.1.sameKey key then (e.1, value) else e
  else entries ++ [(key, value)]

/-- The mapping that the entries give, a later one overriding an earlier one with the same key. -/
def ofEntries (entries : List (Value × Value)) : Value :=
  map (entries.foldl (fun done e => put e.1 e.2 done) [])

/-- The value at a text key, null where there is none. -/
def get (key : Text) (entries : List (Value × Value)) : Value :=
  (lookup (text key) entries).getD null

/-! ### Values as text -/

/-- A byte between the quotes `quote`. -/
def shownByte (quote : CodePoint) (b : UInt8) : Text :=
  let c := CodePoint.ofNat b.toNat
  if c.isAscii then CodePoint.escaped quote c else "\\x" ++ Text.hex 2 b.toNat

/-- Bytes between quotes. -/
def shownBytes (b : Bytes) : Text :=
  let q := Text.quoteMark (b.map fun x => CodePoint.ofNat x.toNat)
  ('b' : CodePoint) :: q :: b.flatMap (shownByte q) ++ [q]

/-- A distance from universal time. -/
def shownOffset (s : Int) : Text :=
  if s = 0 then "datetime.timezone.utc"
  else "datetime.timezone(" ++ durationText s ++ ")"

/-- A moment inside a list or mapping. -/
def shownMoment (m : Moment) : Text :=
  let numbers := [m.date.year, m.date.month, m.date.day, m.hour, m.minute]
    ++ (if m.micro != 0 then [m.second, m.micro] else if m.second != 0 then [m.second] else [])
  let offset := match m.offset with
    | some s => ["tzinfo=" ++ shownOffset s]
    | none => []
  "datetime.datetime(" ++ Text.join ", " (numbers.map Text.ofNat ++ offset) ++ ")"

/-- A day inside a list or mapping. -/
def shownDate (d : Date) : Text :=
  "datetime.date(" ++ Text.join ", " ([d.year, d.month, d.day].map Text.ofNat) ++ ")"

mutual

/-- The value as it is shown inside a list or mapping. -/
def shown : Value → Text
  | null => "None"
  | bool b => if b then "True" else "False"
  | int i => Text.ofInt i
  | real x => x.toText
  | text t => t.quoted
  | bytes b => shownBytes b
  | date d => shownDate d
  | moment m => shownMoment m
  | list items => "[" ++ Text.join ", " (shownItems items) ++ "]"
  | pair a b => "(" ++ shown a ++ ", " ++ shown b ++ ")"
  | set items =>
    match shownItems items with
    | [] => "set()"
    | ts => "\x7b" ++ Text.join ", " ts ++ "\x7d"
  | map entries => "\x7b" ++ Text.join ", " (shownEntries entries) ++ "\x7d"
  | again .list => "[...]"
  | again .pair => "(...)"
  | again .map => "\x7b...\x7d"

/-- The items of a list as they are shown. -/
def shownItems : List Value → List Text
  | [] => []
  | v :: vs => shown v :: shownItems vs

/-- The entries of a mapping as they are shown. -/
def shownEntries : List (Value × Value) → List Text
  | [] => []
  | (k, v) :: es => (shown k ++ ": " ++ shown v) :: shownEntries es

end

/-- The value as text. -/
def toText : Value → Text
  | text t => t
  | date d => d.toIso
  | moment m => m.toIsoWith " "
  | v => v.shown

/-! ### Integers that are too long -/

/-- The integer has more digits than can be written. -/
def isTooLong (i : Int) : Bool := Nat.pow 10 Number.maxDigits ≤ i.natAbs

mutual

/-- Some integer in the value has more digits than can be written. -/
def hasTooLong : Value → Bool
  | int i => isTooLong i
  | list items | set items => itemsTooLong items
  | pair a b => hasTooLong a || hasTooLong b
  | map entries => entriesTooLong entries
  | _ => false

/-- Some integer in the items has more digits than can be written. -/
def itemsTooLong : List Value → Bool
  | [] => false
  | v :: vs => hasTooLong v || itemsTooLong vs

/-- Some integer in the entries has more digits than can be written. -/
def entriesTooLong : List (Value × Value) → Bool
  | [] => false
  | (k, v) :: es => hasTooLong k || hasTooLong v || entriesTooLong es

end

/-- The value as text, if all its integers can be written. -/
def write (v : Value) : Except Failure Text :=
  if v.hasTooLong then .error .tooLongToWrite else .ok v.toText

end Value

end RepoScan
