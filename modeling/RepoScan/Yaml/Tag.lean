import RepoScan.Text.Class

/-!
# Tags

The tag of a node says of what type its value is.  A plain scalar without a tag gets one from its
form; `Tag.ofPlain` holds the forms.
-/

namespace RepoScan.Yaml

/-- The type of a node. -/
inductive Tag where
  | null
  | bool
  | int
  | real
  | bytes
  | moment
  | text
  | sequence
  | mapping
  /-- A mapping whose values do not matter. -/
  | set
  /-- A sequence of mappings with one entry each. -/
  | pairs
  /-- The key of mappings that are merged into this one. -/
  | merge
  /-- The key of a default value. -/
  | default
  /-- A type that is not known. -/
  | other
deriving DecidableEq

namespace Tag

/-- What the full names of the known types begin with. -/
def namespaceName : Text := "tag:yaml.org,2002:"

/-- The known types by their names. -/
def table : List (Text × Tag) :=
  [("null", null), ("bool", bool), ("int", int), ("float", real), ("binary", bytes),
    ("timestamp", moment), ("str", text), ("seq", sequence), ("map", mapping), ("set", set),
    ("omap", pairs), ("pairs", pairs), ("merge", merge), ("value", default)]

/-- The type with a full name. -/
def ofName (name : Text) : Tag :=
  match Text.after? namespaceName name with
  | some name => (table.lookup name).getD other
  | none => other

/-! ### The forms of plain scalars -/

/-- The words for the two truth values. -/
def truths : List (Text × Bool) :=
  [("yes", true), ("no", false), ("true", true), ("false", false), ("on", true), ("off", false)]

/-- A word in upper case, an ASCII word. -/
def upper (t : Text) : Text := t.map fun c => if c.isAsciiLower then CodePoint.ofNat (c.val - 32) else c

/-- The three spellings of a word: in lower case, with a capital, in capitals. -/
def spellings (word : Text) : List Text := [word, upper (word.take 1) ++ word.drop 1, upper word]

/-- The text without a sign at its start. -/
def unsigned : Text → Text
  | [] => []
  | c :: t => if c.isIn "+-" then t else c :: t

/-- A truth value. -/
def isBool (t : Text) : Bool := truths.any fun w => (spellings w.1).contains t

/-- The null value in words. -/
def isNull (t : Text) : Bool := t = ("~" : Text) || (spellings "null").contains t

/-- A digit or a low line. -/
def isDigitOrLine (c : CodePoint) : Bool := c.isAsciiDigit || c == '_'

/-- The text begins with a digit and goes on with digits and low lines. -/
def isNumeral : Text → Bool
  | [] => false
  | c :: t => c.isAsciiDigit && t.all isDigitOrLine

/-- A part of a number to base sixty: one or two digits, the first of two below six. -/
def isSixtieth : Text → Bool
  | [c] => c.isAsciiDigit
  | [c, d] => c.between '0' '5' && d.isAsciiDigit
  | _ => false

/-- Binary digits after their mark. -/
def isBinary (t : Text) : Bool :=
  match Text.after? "0b" t with
  | some ds => !ds.isEmpty && ds.all fun c => c.isIn "01_"
  | none => false

/-- Hexadecimal digits after their mark. -/
def isHexadecimal (t : Text) : Bool :=
  match Text.after? "0x" t with
  | some ds => !ds.isEmpty && ds.all fun c => c.hexValue?.isSome || c == '_'
  | none => false

/-- Octal digits after a zero. -/
def isOctal (t : Text) : Bool :=
  match Text.after? "0" t with
  | some ds => !ds.isEmpty && ds.all fun c => c.between '0' '7' || c == '_'
  | none => false

/-- A decimal number without a leading zero. -/
def isDecimal (t : Text) : Bool := isNumeral t && (t.length = 1 || t.head? != some '0')

/-- A number to base sixty. -/
def isSexagesimal (t : Text) : Bool :=
  match Text.splitOn ':' t with
  | first :: rest => isDecimal first && first != "0" && !rest.isEmpty && rest.all isSixtieth
  | [] => false

/-- An integer, with an optional sign. -/
def isInt (t : Text) : Bool :=
  let t := unsigned t
  isBinary t || isOctal t || isDecimal t || isHexadecimal t || isSexagesimal t

/-- An exponent with its sign, or nothing. -/
def isExponent : Text → Bool
  | [] => true
  | c :: d :: t => c.isIn "eE" && d.isIn "+-" && !t.isEmpty && t.all (·.isAsciiDigit)
  | _ => false

/-- Digits and low lines and after them an exponent or nothing. -/
def isFraction (t : Text) : Bool := isExponent (t.dropWhile isDigitOrLine)

/-- A decimal fraction. -/
def isDecimalFraction (t : Text) : Bool :=
  match Text.cut? "." t with
  | some (whole, fraction) => isNumeral whole && isFraction fraction
  | none => false

/-- A fraction without a whole part. -/
def isBareFraction (t : Text) : Bool :=
  match t with
  | c :: d :: t => c = '.' && d.isAsciiDigit && isFraction t
  | _ => false

/-- A number to base sixty with a fraction. -/
def isSexagesimalFraction (t : Text) : Bool :=
  match Text.cut? "." t with
  | some (whole, fraction) =>
    fraction.all isDigitOrLine && match Text.splitOn ':' whole with
      | first :: rest => isNumeral first && !rest.isEmpty && rest.all isSixtieth
      | [] => false
  | none => false

/-- An infinity, without its sign. -/
def isInfinite (t : Text) : Bool := [(".inf" : Text), ".Inf", ".INF"].contains t

/-- What is not a number. -/
def isNan (t : Text) : Bool := [(".nan" : Text), ".NaN", ".NAN"].contains t

/-- A number with a fraction. -/
def isReal (t : Text) : Bool :=
  isBareFraction t || isNan t
    || (let t := unsigned t; isDecimalFraction t || isSexagesimalFraction t || isInfinite t)

/-- One or two digits at the start of a text, and the rest. -/
def takeOneOrTwo? : Text → Option (Text × Text)
  | c :: d :: t =>
    if !c.isAsciiDigit then none
    else if d.isAsciiDigit then some ([c, d], t) else some ([c], d :: t)
  | [c] => if c.isAsciiDigit then some ([c], []) else none
  | [] => none

/-- Digits at the start of a text, exactly `n`, and the rest. -/
def takeExactly? (n : Nat) (t : Text) : Option (Text × Text) :=
  let ds := t.take n
  if ds.length = n && ds.all (·.isAsciiDigit) then some (ds, t.drop n) else none

/-- The written parts of a moment. -/
structure MomentParts where
  year : Text
  month : Text
  day : Text
  /-- Hour, minute, second and the digits of the fraction. -/
  time : Option (Text × Text × Text × Text)
  /-- The distance from universal time: whether it is negative, its hours and its minutes. -/
  offset : Option (Bool × Text × Text)

/-- The distance from universal time at the end of a text: none, or after blanks a letter for
universal time itself or a sign with hours and perhaps minutes. -/
def takeOffset? (t : Text) : Option (Option (Bool × Text × Text)) :=
  if t.isEmpty then some none
  else match t.dropWhile fun c => c.val == 32 || c.val == 9 with
  | [] => none
  | c :: rest =>
    if c = 'Z' then (if rest.isEmpty then some (some (false, "0", "0")) else none)
    else if c.isIn "+-" then do
      let (hours, rest) ← takeOneOrTwo? rest
      if rest.isEmpty then pure (some (c == '-', hours, "0"))
      else
        let (minutes, rest) ← takeExactly? 2 (← Text.after? ":" rest)
        if rest.isEmpty then pure (some (c == '-', hours, minutes)) else none
    else none

/-- What stands between day and time at the start of a text: a letter or blanks. -/
def skipTimeMark? (t : Text) : Option Text :=
  match t with
  | [] => none
  | c :: rest =>
    if c.isIn "tT" then some rest
    else
      let rest := t.dropWhile fun c => c.val == 32 || c.val == 9
      if rest.length < t.length then some rest else none

/-- The parts of a day or of a moment.  Of a moment, month and day may have one digit. -/
def momentParts? (t : Text) : Option MomentParts := do
  let (year, t) ← takeExactly? 4 t
  let (month, t) ← takeOneOrTwo? (← Text.after? "-" t)
  let (day, t) ← takeOneOrTwo? (← Text.after? "-" t)
  if t.isEmpty then pure ⟨year, month, day, none, none⟩
  else
    let (hour, t) ← takeOneOrTwo? (← skipTimeMark? t)
    let (minute, t) ← takeExactly? 2 (← Text.after? ":" t)
    let (second, t) ← takeExactly? 2 (← Text.after? ":" t)
    let (fraction, t) := match Text.after? "." t with
      | some t => t.span (·.isAsciiDigit)
      | none => ([], t)
    pure ⟨year, month, day, some (hour, minute, second, fraction), ← takeOffset? t⟩

/-- A day or a moment; a day alone has all its digits. -/
def isMoment (t : Text) : Bool :=
  match momentParts? t with
  | none => false
  | some p => p.time.isSome || (p.month.length = 2 && p.day.length = 2)

/-- The text without the line feed that it may end with. -/
def withoutBreak (t : Text) : Text :=
  if t.getLast? = some ('\n' : CodePoint) then t.dropLast else t

/-- The type that the form of a text gives, a line feed at its end left out. -/
def ofForm (t : Text) : Tag :=
  if isBool t then bool
  else if isReal t then real
  else if isInt t then int
  else if t = ("<<" : Text) then merge
  else if isNull t then null
  else if isMoment t then moment
  else if t = ("=" : Text) then default
  else if [("!" : Text), "&", "*"].contains t then other
  else text

/-- The type of a plain scalar without a tag. -/
def ofPlain (t : Text) : Tag := if t.isEmpty then null else ofForm (withoutBreak t)

end Tag

end RepoScan.Yaml
