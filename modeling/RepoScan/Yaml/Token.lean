import RepoScan.Text.Utf8
import RepoScan.Yaml.Scalar.Block
import RepoScan.Yaml.Scalar.Plain
import RepoScan.Yaml.Scalar.Quoted

/-!
# Tokens

The tokens of a document.  Besides the marks that stand in the text there are the start and the end
of a block, which follow from the indentation.

This module also reads the names that tokens carry: anchors, tags and directives.
-/

namespace RepoScan.Yaml

/-- What a line with a percent sign sets. -/
inductive Directive where
  /-- The version of the format. -/
  | version (major : Nat)
  /-- A short form of tags. -/
  | tag (handle full : Text)
  | other
deriving DecidableEq

/-- A token. -/
inductive Token where
  | directive (d : Directive)
  | documentStart
  | documentEnd
  | blockSequence
  | blockMapping
  | blockEnd
  | openBracket
  | closeBracket
  | openBrace
  | closeBrace
  | comma
  /-- The hyphen before an item of a block sequence. -/
  | item
  | key
  | value
  | alias (name : Text)
  | anchor (name : Text)
  /-- A tag: its handle, where it has one, and the rest. -/
  | tag (handle : Option Text) (rest : Text)
  | scalar (plain : Bool) (t : Text)
deriving DecidableEq

/-! ### Anchors -/

/-- The name at the start of a text and the rest. -/
def takeName (t : Text) : Text × Text := t.span isNameCharacter

/-- What follows a name of an anchor is one of these or a gap. -/
def endsAnchor : Text → Bool
  | [] => true
  | c :: _ => isGap c || c.isIn "?:,]\x7d%@\x60"

/-- The name of an anchor or alias after its mark. -/
def takeAnchor? (t : Text) : Option Text :=
  let (name, rest) := takeName t
  if !name.isEmpty && endsAnchor rest then some name else none

/-! ### Tags -/

/-- A character of the text of a tag. -/
def isTagCharacter (c : CodePoint) : Bool := c.isAsciiAlnum || c.isIn "-;/?:@&=+$,_.!~*'()[]%"

/-- The bytes of the escapes at the start of a text and the rest. -/
def takeEscapes : Text → Option (Bytes × Text)
  | c :: d :: e :: t =>
    if c = '%' then
      match d.hexValue?, e.hexValue? with
      | some m, some n =>
        (takeEscapes t).map fun (bytes, rest) => (UInt8.ofNat (m * 16 + n) :: bytes, rest)
      | _, _ => none
    else some ([], c :: d :: e :: t)
  | t => if t.head? = some (CodePoint.ofChar '%') then none else some ([], t)

/-- The characters of a tag at the start of a text, with its escapes resolved, and the rest.
`fuel` bounds the number of characters. -/
def takeTagText : (fuel : Nat) → Text → Option (Text × Text)
  | 0, _ => none
  | _, [] => some ([], [])
  | fuel + 1, c :: t =>
    if c = '%' then do
      let (bytes, rest) ← takeEscapes (c :: t)
      let decoded ← Utf8.decodeStrict? bytes
      let (more, rest) ← takeTagText fuel rest
      pure (decoded ++ more, rest)
    else if isTagCharacter c then
      (takeTagText fuel t).map fun (more, rest) => (c :: more, rest)
    else some ([], c :: t)

/-- The text of a tag, which must not be empty, and the rest. -/
def takeTagRest? (t : Text) : Option (Text × Text) :=
  if (t.head?.map isTagCharacter).getD false then takeTagText (t.length + 1) t else none

/-- The handle at the start of a text, between two exclamation marks or one alone, and the rest. -/
def takeHandle? (t : Text) : Option (Text × Text) := do
  let t ← Text.after? "!" t
  if t.head? = some (CodePoint.ofChar ' ') then pure ("!", t)
  else
    let (name, rest) := takeName t
    let rest ← Text.after? "!" rest
    pure (("!" : Text) ++ name ++ "!", rest)

/-- The characters up to a space or a line break. -/
def wordOf (t : Text) : Text := t.takeWhile fun c => !isBreak c && c.val != 32

/-- The tag after its exclamation mark.  It takes the whole word. -/
def takeTag? (t : Text) : Option Token := do
  let (tag, rest) ← (do
    match Text.after? "<" t with
    | some t =>
      let (full, rest) ← takeTagRest? t
      let rest ← Text.after? ">" rest
      pure (Token.tag none full, rest)
    | none =>
      if atGap t then pure (Token.tag none "!", t)
      else if (wordOf t).contains '!' then
        let (handle, rest) ← takeHandle? ("!" ++ t)
        let (more, rest) ← takeTagRest? rest
        pure (Token.tag (some handle) more, rest)
      else
        let (more, rest) ← takeTagRest? t
        pure (Token.tag (some "!") more, rest))
  if atWordEnd rest then pure tag else none

/-! ### Directives -/

/-- What a malformed part of a document is reported as. -/
def orMalformed {α : Type} : Option α → Except Failure α
  | some a => .ok a
  | none => .error .malformedYaml

/-- The digits at the start of a text, of which there is one at least, and the rest. -/
def takeDigits (t : Text) : Except Failure (Nat × Text) :=
  let (ds, rest) := t.span (·.isAsciiDigit)
  if ds.isEmpty then .error .malformedYaml
  else if Number.maxDigits < ds.length then .error (.tooManyDigits ds.length)
  else .ok (ds.foldl (fun n c => n * 10 + (c.val - 48)) 0, rest)

/-- The version at the start of a text, and the rest. -/
def takeVersion (t : Text) : Except Failure (Directive × Text) := do
  let (major, t) ← takeDigits (skipSpaces t)
  let t ← orMalformed (Text.after? "." t)
  let (_, t) ← takeDigits t
  if atWordEnd t then pure (.version major, t) else throw .malformedYaml

/-- The short form of tags at the start of a text, and the rest. -/
def takeShortForm? (t : Text) : Option (Directive × Text) := do
  let (handle, t) ← takeHandle? (skipSpaces t)
  if t.head? != some (CodePoint.ofChar ' ') then none
  let (full, t) ← takeTagRest? (skipSpaces t)
  if atWordEnd t then pure (.tag handle full, t) else none

/-- The directive after its percent sign.  It takes the whole line. -/
def takeDirective (t : Text) : Except Failure Directive := do
  let (name, t) := takeName t
  if name.isEmpty || !atWordEnd t then throw .malformedYaml
  let (d, t) ←
    if name = "YAML" then takeVersion t
    else if name = "TAG" then orMalformed (takeShortForm? t)
    else pure (Directive.other, t.dropWhile fun c => !isBreak c)
  let _ ← orMalformed (skipLine? t)
  pure d

end RepoScan.Yaml
