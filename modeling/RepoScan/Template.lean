import RepoScan.Failure
import RepoScan.Path
import RepoScan.Text.Class

/-!
# Command templates

The arguments of a tool's command line are templates.  A template is text with fields between
braces, and a brace that stands for itself is doubled.  A field names a value, may go on to its
attributes and elements, and may ask for a conversion and for a layout, in which further fields may
stand.

Templates are filled from left to right, so of two faults the first one is reported.  To that end
`Template.parts` gives the fault of a malformed template as its last part.
-/

namespace RepoScan.Template

/-! ### Parts -/

/-- A field as it is written. -/
structure Field where
  /-- The name of the value with the attributes and elements after it. -/
  name : Text
  /-- The letter of the conversion. -/
  conversion : Option CodePoint
  layout : Text
  /-- The layout holds fields of its own. -/
  nests : Bool
deriving DecidableEq

/-- A part of a template. -/
inductive Part where
  | literal (t : Text)
  | field (f : Field)
  /-- The template is malformed from here on. -/
  | fault (f : TemplateFault)
deriving DecidableEq

/-- Where the reader stands. -/
inductive Within where
  /-- Between fields. -/
  | literal
  /-- After an opening brace. -/
  | opening
  /-- After a closing brace outside a field. -/
  | closing
  /-- In the name of a field. -/
  | name
  /-- Between the brackets of a name. -/
  | element
  /-- After the exclamation mark. -/
  | mark
  /-- After the letter of a conversion. -/
  | letter
  /-- In a layout, inside `depth + 1` braces. -/
  | layout (depth : Nat)
deriving DecidableEq

/-- A field of which only the name is known; the name is reversed. -/
def named (name : Text) : Field := ⟨name.reverse, none, [], false⟩

/-- What the character `c` of a field's name does; `name` is the name so far, reversed. -/
def stepName (c : CodePoint) (name : Text) : Except Part (Within × Text × Field) :=
  if c = '\x7b' then .error (.fault .unexpectedOpening)
  else if c = '[' then .ok (.element, c :: name, named [])
  else if c = '\x7d' then .error (.field (named name))
  else if c = ':' then .ok (.layout 0, [], named name)
  else if c = '!' then .ok (.mark, [], named name)
  else .ok (.name, c :: name, named [])

/-- The parts of a template from a point on.  `seen` holds the characters of the current literal,
name or layout, reversed, and `f` what is known of the current field. -/
def partsFrom : Within → (seen : Text) → (f : Field) → Text → List Part
  | .literal, seen, _, [] => [.literal seen.reverse]
  | .opening, _, _, [] => [.fault .loneOpening]
  | .closing, _, _, [] => [.fault .loneClosing]
  | .name, _, _, [] | .element, _, _, [] => [.fault .unclosedName]
  | .mark, _, _, [] => [.fault .missingConversion]
  | .letter, _, _, [] | .layout _, _, _, [] => [.fault .unclosedLayout]
  | .literal, seen, f, c :: t =>
    if c = '\x7b' then partsFrom .opening seen f t
    else if c = '\x7d' then partsFrom .closing seen f t
    else partsFrom .literal (c :: seen) f t
  | .opening, seen, f, c :: t =>
    if c = '\x7b' then partsFrom .literal (c :: seen) f t
    else .literal seen.reverse ::
      match stepName c [] with
      | .ok (w, name, f) => partsFrom w name f t
      | .error (.fault e) => [.fault e]
      | .error p => p :: partsFrom .literal [] (named []) t
  | .closing, seen, f, c :: t =>
    if c = '\x7d' then partsFrom .literal (c :: seen) f t else [.fault .loneClosing]
  | .name, name, _, c :: t =>
    match stepName c name with
    | .ok (w, name, f) => partsFrom w name f t
    | .error (.fault e) => [.fault e]
    | .error p => p :: partsFrom .literal [] (named []) t
  | .element, name, f, c :: t =>
    partsFrom (if c = ']' then .name else .element) (c :: name) f t
  | .mark, _, f, c :: t => partsFrom .letter [] { f with conversion := some c } t
  | .letter, _, f, c :: t =>
    if c = '\x7d' then .field f :: partsFrom .literal [] (named []) t
    else if c = ':' then partsFrom (.layout 0) [] f t
    else [.fault .afterConversion]
  | .layout depth, layout, f, c :: t =>
    if c = '\x7b' then partsFrom (.layout (depth + 1)) (c :: layout) { f with nests := true } t
    else if c = '\x7d' then
      match depth with
      | 0 => .field { f with layout := layout.reverse } :: partsFrom .literal [] (named []) t
      | d + 1 => partsFrom (.layout d) (c :: layout) f t
    else partsFrom (.layout depth) (c :: layout) f t

/-- The parts of a template. -/
def parts (t : Text) : List Part := partsFrom .literal [] (named []) t

/-! ### Names -/

/-- A step from a value to one of its attributes or elements. -/
inductive Step where
  | property (name : Text)
  | element (name : Text)
  /-- Something else follows a closing bracket. -/
  | other
deriving DecidableEq

/-- The steps that a name spells from a point on; `current` is the current step with its name
reversed, if one is open. -/
def stepsFrom : (current : Option Step) → Text → List Step
  | none, [] => []
  | some (.property name), [] => [.property name.reverse]
  | some (.element name), [] => [.element name.reverse]
  | some .other, [] => [.other]
  | none, c :: t =>
    if c = '.' then stepsFrom (some (.property [])) t
    else if c = '[' then stepsFrom (some (.element [])) t
    else [.other]
  | some (.property name), c :: t =>
    if c = '.' then .property name.reverse :: stepsFrom (some (.property [])) t
    else if c = '[' then .property name.reverse :: stepsFrom (some (.element [])) t
    else stepsFrom (some (.property (c :: name))) t
  | some (.element name), c :: t =>
    if c = ']' then .element name.reverse :: stepsFrom none t
    else stepsFrom (some (.element (c :: name))) t
  | some .other, _ :: _ => [.other]

/-- A name begins its steps here. -/
def isStepMark (c : CodePoint) : Bool := c == '.' || c == '['

/-- The greatest number that a template may spell. -/
def maxNumber : Nat := Nat.pow 2 63 - 1

/-- The number that decimal digits of any script spell; `none` where the text is empty or holds
something else. -/
def numberOf? (t : Text) : Except TemplateFault (Option Nat) := if t.isEmpty then .ok none else go t 0
where
  /-- `n` is the number that the digits before spell. -/
  go : Text → (n : Nat) → Except TemplateFault (Option Nat)
    | [], n => .ok (some n)
    | c :: t, n =>
      match c.decimalValue? with
      | none => .ok none
      | some d =>
        if maxNumber < n * 10 + d then .error .tooManyDigits else go t (n * 10 + d)

/-! ### Values -/

/-- A value that a template may refer to. -/
inductive Argument where
  | text (t : Text)
  | path (p : Path)
  /-- The components of a path. -/
  | components (ts : List Text)
  /-- The endings of a path. -/
  | endings (ts : List Text)
  /-- The directories that a path lies in, the nearest one first. -/
  | ancestors (ps : List Path)
  /-- The type of a value, which is kept under a name in a module. -/
  | type (module name : Text)

namespace Argument

/-- The module of the types that need none in front of their names. -/
def builtin : Text := "builtins"

/-- The name of the value's type, as messages give it. -/
def typeName : Argument → Text
  | text _ => "str"
  | path _ => "PosixPath"
  | components _ => "tuple"
  | endings _ => "list"
  | ancestors _ => "_PathParents"
  | type .. => "type"

/-- The value between brackets, texts being quoted. -/
def shown : Argument → Text
  | text t => t.quoted
  | path p => "PosixPath(" ++ p.toText.quoted ++ ")"
  | components [t] => "(" ++ t.quoted ++ ",)"
  | components ts => "(" ++ Text.join ", " (ts.map Text.quoted) ++ ")"
  | endings ts => "[" ++ Text.join ", " (ts.map Text.quoted) ++ "]"
  | ancestors _ => "<PosixPath.parents>"
  | type module name =>
    "<class '" ++ (if module = builtin then name else module ++ "." ++ name) ++ "'>"

/-- The value as text. -/
def toText : Argument → Text
  | text t => t
  | path p => p.toText
  | v => v.shown

/-- The components of a path, its root being the first one. -/
def componentsOf (p : Path) : List Text := (if p.root.isEmpty then [] else [p.root]) ++ p.parts

/-- All endings of a file's name, each with its point. -/
def endingsOf (name : Text) : List Text :=
  if name.getLast? = some (CodePoint.ofChar '.') then []
  else ((Text.splitOn '.' (Text.trimLeft (fun c : CodePoint => c == '.') name)).drop 1).map fun t =>
    ('.' : CodePoint) :: t

/-- The directories that a path lies in, up to its root or the directory that it starts from. -/
def ancestorsOf (p : Path) : List Path :=
  (List.range p.parts.length).map fun n => ⟨p.root, p.parts.take (p.parts.length - 1 - n)⟩

/-- The attributes of a path. -/
def attributesOf (p : Path) : List (Text × Argument) :=
  [("name", text p.name), ("stem", text p.stem), ("suffix", text p.ending),
    ("suffixes", endings (endingsOf p.name)), ("parent", path p.parent), ("root", text p.root),
    ("anchor", text p.root), ("drive", text []), ("parts", components (componentsOf p)),
    ("parents", ancestors (ancestorsOf p))]

/-- The module of the value's type. -/
def home : Argument → Text
  | path _ | ancestors _ => "pathlib"
  | _ => builtin

/-- The attributes that all values have. -/
def commonAttributes (v : Argument) : List (Text × Argument) :=
  [("__class__", type v.home v.typeName), ("__module__", text v.home)]

/-- An attribute of a value. -/
def property (name : Text) (v : Argument) : Except TemplateFault Argument :=
  let known := match v with
    | path p => attributesOf p ++ commonAttributes v
    | ancestors _ => commonAttributes v
    | type module n =>
      [("__name__", text n), ("__qualname__", text n), ("__module__", text module),
        ("__class__", type builtin "type")]
    | v => (commonAttributes v).take 1
  match known.lookup name with
  | some w => .ok w
  | none => .error (.noAttribute v.typeName name)

/-- The elements of a value. -/
def elements? : Argument → Option (List Argument)
  | text t => some (t.map fun c => text [c])
  | path _ | type .. => none
  | components ts | endings ts => some (ts.map text)
  | ancestors ps => some (ps.map path)

/-- The element of a value with a number, or with a name where `number` is `none`. -/
def element (number : Option Nat) (v : Argument) : Except TemplateFault Argument :=
  match v.elements? with
  | none => .error (.noElements v.typeName)
  | some ts =>
    match number with
    | none => .error (.namedElement v.typeName)
    | some n =>
      match ts[n]? with
      | some w => .ok w
      | none => .error (.noElement v.typeName)

/-- One step from a value.  A step without a name is an error, but a number that is too long is
found first. -/
def step (v : Argument) : Step → Except TemplateFault Argument
  | .property name => if name.isEmpty then .error .emptyStep else v.property name
  | .element name =>
    match numberOf? name with
    | .error e => .error e
    | .ok number => if name.isEmpty then .error .emptyStep else v.element number
  | .other => .error .afterBracket

/-- The text of a value in ASCII characters: others are escaped. -/
def asciiOnly (t : Text) : Text :=
  t.flatMap fun c =>
    if c.isAscii then [c]
    else if c.val < 0x100 then "\\x" ++ Text.hex 2 c.val
    else if c.val < 0x10000 then "\\u" ++ Text.hex 4 c.val
    else "\\U" ++ Text.hex 8 c.val

/-- The value under a conversion. -/
def convert (v : Argument) : Option CodePoint → Except TemplateFault Argument
  | none => .ok v
  | some c =>
    if c = 's' then .ok (text v.toText)
    else if c = 'r' then .ok (text v.shown)
    else if c = 'a' then .ok (text (asciiOnly v.shown))
    else .error (.unknownConversion c)

end Argument

/-- The values that a template may refer to, with their names. -/
abbrev Arguments := List (Text × Argument)

/-- The value that a field refers to.  There are no numbered values, and a field without a name
asks for the first one. -/
def resolve (values : Arguments) (name : Text) : Except TemplateFault Argument :=
  let first := name.takeWhile fun c => !isStepMark c
  match numberOf? first with
  | .error e => .error e
  | .ok (some n) => .error (.noNumbered n)
  | .ok none =>
    if first.isEmpty then .error (.noNumbered 0)
    else match values.lookup first with
      | none => .error (.noNamed first)
      | some v => (stepsFrom none (name.drop first.length)).foldlM Argument.step v

end RepoScan.Template
