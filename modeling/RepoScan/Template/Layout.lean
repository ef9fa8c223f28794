import RepoScan.Template

/-!
# Layouts of fields

The layout of a field says how wide its text is at least, on which side it is filled up and with
what, and how much of the text is shown at most.  Layouts have further parts that are for numbers;
with texts they are errors, and this module says in which order they are found.
-/

namespace RepoScan.Template

/-- The side on which a text stands in its field. -/
inductive Side where
  | left
  | right
  | middle
  /-- Between sign and digits, which texts do not have. -/
  | inner
deriving DecidableEq

/-- The side that a character of a layout stands for. -/
def sideOf? (c : CodePoint) : Option Side :=
  if c = '<' then some .left
  else if c = '>' then some .right
  else if c = '^' then some .middle
  else if c = '=' then some .inner
  else none

/-- How the text of a field is laid out. -/
structure Layout where
  fill : CodePoint
  side : Side
  width : Nat
  /-- The most characters of the text that are shown. -/
  precision : Option Nat
deriving DecidableEq

namespace Layout

/-- The text in its field. -/
def apply (l : Layout) (t : Text) : Text :=
  let t := match l.precision with
    | some n => t.take n
    | none => t
  let gap := l.width - t.length
  let before := match l.side with
    | .right => gap
    | .middle => gap / 2
    | _ => 0
  List.replicate before l.fill ++ t ++ List.replicate (gap - before) l.fill

/-- The fill character and the side at the start of a layout, where given, and the rest. -/
def takeSide (t : Text) : (Option CodePoint × Option Side) × Text :=
  match t with
  | c :: d :: rest =>
    match sideOf? d with
    | some s => ((some c, some s), rest)
    | none => match sideOf? c with
      | some s => ((none, some s), d :: rest)
      | none => ((none, none), t)
  | [c] => match sideOf? c with
    | some s => ((none, some s), [])
    | none => ((none, none), t)
  | [] => ((none, none), [])

/-- The character at the start of a layout, if it is one of `cs`, and the rest. -/
def takeOne (cs : String) (t : Text) : Option CodePoint × Text :=
  match t with
  | c :: rest => if c.isIn cs then (some c, rest) else (none, t)
  | [] => (none, [])

/-- The number at the start of a layout, if there is one, and the rest. -/
def takeNumber (t : Text) : Except TemplateFault (Option Nat × Text) :=
  let ds := t.takeWhile (·.isDecimal)
  (numberOf? ds).map fun n => (n, t.drop ds.length)

/-- The mark for the grouping of digits at the start of a layout, and the rest.  Both marks
together are an error. -/
def takeSeparator (t : Text) : Except TemplateFault (Option CodePoint × Text) :=
  let (comma, t) := takeOne "," t
  let (line, t) := takeOne "_" t
  match comma, line with
  | some _, some _ => .error .bothSeparators
  | some c, none => .ok (some c, t)
  | none, none => .ok (none, t)
  | none, some c => if (takeOne "," t).1.isSome then .error .bothSeparators else .ok (some c, t)

/-- The precision at the start of a layout, and the rest. -/
def takePrecision (t : Text) : Except TemplateFault (Option Nat × Text) :=
  match takeOne "." t with
  | (none, t) => .ok (none, t)
  | (some _, t) => do
    match ← takeNumber t with
    | (none, _) => throw .missingPrecision
    | (some n, t) => pure (some n, t)

/-- The grouping of digits that `mark` asks for goes with the letter of the layout. -/
def admits (mark letter : CodePoint) : Bool :=
  letter.isIn "deEfFgG%" || (mark == '_' && letter.isIn "boxX")

/-- The first part of a layout that is not for texts. -/
def foreignPart? (sign zero alternate : Option CodePoint) (side : Option Side) : Option Text :=
  match sign with
  | some c => if c = ' ' then some "Space" else some "Sign"
  | none =>
    if zero.isSome then some "Negative zero coercion (z)"
    else if alternate.isSome then some "Alternate form (#)"
    else if side = some .inner then some "'=' alignment"
    else none

/-- The layout that a text spells. -/
def ofText (layout : Text) : Except TemplateFault Layout := do
  let ((fill, side), t) := takeSide layout
  let (sign, t) := takeOne " +-" t
  let (zero, t) := takeOne "z" t
  let (alternate, t) := takeOne "#" t
  let (padding, t) := if fill.isSome then (none, t) else takeOne "0" t
  let (width, t) ← takeNumber t
  let (mark, t) ← takeSeparator t
  let (precision, t) ← takePrecision t
  let letter ← match t with
    | [] => pure (CodePoint.ofChar 's')
    | [c] => pure c
    | _ => throw (.badLayout layout)
  match mark with
  | some m => if !admits m letter then throw (.separator m letter)
  | none => pure ()
  if letter != 's' then throw (.unknownCode letter)
  match foreignPart? sign zero alternate side with
  | some what => throw (.notForTexts what)
  | none => pure ()
  pure ⟨(fill.orElse fun _ => padding).getD ' ', side.getD .left, width.getD 0, precision⟩

end Layout

/-! ### Filling templates -/

/-- The value in the layout of its field; only texts have layouts. -/
def render (v : Argument) (layout : Text) : Except TemplateFault Text :=
  if layout.isEmpty then .ok v.toText
  else match v with
    | .text t => (Layout.ofText layout).map fun l => l.apply t
    | _ => .error (.layoutOf v.typeName)

/-- The text of the parts of a template.  `fillLayout` gives the layout of a field whose layout
holds fields. -/
def fillParts (values : Arguments) (fillLayout : Text → Except TemplateFault Text) :
    List Part → Except TemplateFault Text
  | [] => .ok []
  | .literal t :: ps => do
    let rest ← fillParts values fillLayout ps
    pure (t ++ rest)
  | .fault e :: _ => .error e
  | .field f :: ps => do
    let v ← resolve values f.name
    let v ← v.convert f.conversion
    let layout ← if f.nests then fillLayout f.layout else pure f.layout
    let t ← render v layout
    let rest ← fillParts values fillLayout ps
    pure (t ++ rest)

/-- The text of a template whose fields are nested at most `depth` levels deep. -/
def fillWithin (values : Arguments) : (depth : Nat) → Text → Except TemplateFault Text
  | 0, _ => .error .tooDeep
  | depth + 1, t => fillParts values (fillWithin values depth) (parts t)

/-- The text of a template: a layout may hold fields, but these have no fields in theirs. -/
def fill (values : Arguments) (t : Text) : Except TemplateFault Text := fillWithin values 2 t

/-- The arguments of a command, each from its template. -/
def fillAll (values : Arguments) (ts : List Text) : Except Failure (List Text) :=
  ts.mapM fun t => match fill values t with
    | .ok s => .ok s
    | .error e => .error (.template e)

end RepoScan.Template
