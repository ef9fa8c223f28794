import RepoScan.Value

/-!
# Writing JSON

Documents are written in ASCII: every other character is escaped, those beyond the first plane as
a surrogate pair.  `Json.write` puts everything on one line, and `Json.writeIndented` gives each
item and entry a line of its own.
-/

namespace RepoScan.Json

/-- A UTF-16 unit as an escape. -/
def escapeUnit (n : Nat) : Text := "\\u" ++ Text.hex 4 n

/-- A character inside a string. -/
def escapeChar (c : CodePoint) : Text :=
  if c = '"' then "\\\""
  else if c = '\\' then "\\\\"
  else if c = '\n' then "\\n"
  else if c = '\r' then "\\r"
  else if c = '\t' then "\\t"
  else if c.val = 8 then "\\b"
  else if c.val = 12 then "\\f"
  else if 32 ≤ c.val && c.val ≤ 126 then [c]
  else if c.val < 0x10000 then escapeUnit c.val
  else
    let n := c.val - 0x10000
    escapeUnit (0xD800 + n / 0x400) ++ escapeUnit (0xDC00 + n % 0x400)

/-- A string between its quotes. -/
def writeString (t : Text) : Text := "\"" ++ t.flatMap escapeChar ++ "\""

/-- A number that need not be an integer. -/
def writeReal : Binary64 → Text
  | .nan => "NaN"
  | .infinite negative => if negative then "-Infinity" else "Infinity"
  | x => x.toText

/-- The text of a value that is neither a list nor a mapping.  What the format does not know is
written as a string. -/
def writeScalar : Value → Text
  | .null => "null"
  | .bool b => if b then "true" else "false"
  | .int i => Text.ofInt i
  | .real x => writeReal x
  | .text t => writeString t
  | v => writeString v.toText

/-- A key of an object. -/
def writeKey : Value → Text
  | .text t => writeString t
  | v => "\"" ++ writeScalar v ++ "\""

/-- How the parts of a document are set apart. -/
structure Style where
  /-- What stands between an opening bracket and the first part at a depth. -/
  opening : Nat → Text
  /-- What stands between two parts at a depth. -/
  between : Nat → Text
  /-- What stands between the last part at a depth and the closing bracket. -/
  closing : Nat → Text

/-- Everything on one line. -/
def Style.line : Style := ⟨fun _ => [], fun _ => ", ", fun _ => []⟩

/-- Every part on a line of its own, two blanks deeper than what holds it. -/
def Style.indented : Style :=
  let margin (n : Nat) : Text := '\n' :: List.replicate (2 * n) (' ' : CodePoint)
  ⟨fun n => margin n, fun n => "," ++ margin n, fun n => margin (n - 1)⟩

mutual

/-- The text of a value whose parts stand at the given depth. -/
def writeAt (style : Style) (depth : Nat) : Value → Text
  | .list [] => "[]"
  | .list items =>
    "[" ++ style.opening depth ++ Text.join (style.between depth) (writeItems style depth items)
      ++ style.closing depth ++ "]"
  | .map [] => "\x7b\x7d"
  | .map entries =>
    "\x7b" ++ style.opening depth
      ++ Text.join (style.between depth) (writeEntries style depth entries)
      ++ style.closing depth ++ "\x7d"
  | v => writeScalar v

/-- The texts of the items of a list. -/
def writeItems (style : Style) (depth : Nat) : List Value → List Text
  | [] => []
  | v :: vs => writeAt style (depth + 1) v :: writeItems style depth vs

/-- The texts of the entries of a mapping. -/
def writeEntries (style : Style) (depth : Nat) : List (Value × Value) → List Text
  | [] => []
  | (k, v) :: es =>
    (writeKey k ++ ": " ++ writeAt style (depth + 1) v) :: writeEntries style depth es

end

/-- The document on one line. -/
def write (v : Value) : Text := writeAt .line 1 v

/-- The document with a line for each part. -/
def writeIndented (v : Value) : Text := writeAt .indented 1 v

end RepoScan.Json
