import RepoScan.Yaml.Token

/-!
# The tokens of a text

The reader goes through the text once and keeps the tokens so far.  A scalar, an anchor or a
bracket may turn out to be the key of a mapping only when the colon after it is found; until then
its place is kept, and the tokens for the key are put in there.  A token whose place is kept cannot
be used yet, nor can those behind it: where the text has a fault, `tokensOf` gives the tokens that
could be used before the fault was met.

Such a key has to be on one line and at most `maxKeyLength` characters long.  A key is required
where a line of a block begins that is not indented any deeper.
-/

namespace RepoScan.Yaml

/-- A place in the text. -/
structure Cursor where
  rest : Text
  line : Nat
  column : Nat
  index : Nat

namespace Cursor

/-- The cursor after the next character. -/
def step (c : Cursor) : Cursor :=
  match c.rest with
  | [] => c
  | d :: rest =>
    if isBreak d then ⟨rest, c.line + 1, 0, c.index + 1⟩
    else ⟨rest, c.line, if d = byteOrderMark then c.column else c.column + 1, c.index + 1⟩

/-- The cursor after the next `n` characters. -/
def advance : (n : Nat) → Cursor → Cursor
  | 0, c => c
  | n + 1, c => advance n c.step

end Cursor

/-- A place at which a key may have begun. -/
structure KeyPlace where
  /-- The number of tokens before the key. -/
  count : Nat
  /-- A colon has to follow. -/
  isRequired : Bool
  line : Nat
  column : Nat
  index : Nat

/-- The greatest length of a key without a mark of its own. -/
def maxKeyLength : Nat := 1024

/-- What the reader knows between two tokens. -/
structure Reader where
  cursor : Cursor
  /-- The number of brackets and braces around the cursor. -/
  flow : Nat
  /-- The column of the current block, negative outside of blocks. -/
  indent : Int
  /-- The columns of the blocks around the current one. -/
  outer : List Int
  /-- A key may begin here. -/
  keyAllowed : Bool
  /-- The places of possible keys, each with the number of brackets and braces around it. -/
  places : List (Nat × KeyPlace)
  /-- The number of tokens so far. -/
  count : Nat
  /-- The tokens so far, the last one first. -/
  tokens : List Token

namespace Reader

/-- Before the first token. -/
def initial (t : Text) : Reader := ⟨⟨t, 0, 0, 0⟩, 0, -1, [], true, [], 0, []⟩

/-- The reader stands inside brackets or braces. -/
def inFlow (r : Reader) : Bool := r.flow != 0

/-- One more token. -/
def push (k : Token) (r : Reader) : Reader := { r with count := r.count + 1, tokens := k :: r.tokens }

/-- One more token at an earlier place. -/
def insert (count : Nat) (k : Token) (r : Reader) : Reader :=
  { r with count := r.count + 1, tokens := r.tokens.insertIdx (r.count - count) k }

/-- The reader after the next `n` characters. -/
def advance (n : Nat) (r : Reader) : Reader := { r with cursor := r.cursor.advance n }

/-! ### Possible keys -/

/-- The place can no longer be that of a key. -/
def isStale (r : Reader) (p : KeyPlace) : Bool :=
  p.line != r.cursor.line || maxKeyLength < r.cursor.index - p.index

/-- The places that can no longer be those of keys are dropped; a required one is missed. -/
def dropStale (r : Reader) : Except Failure Reader :=
  if r.places.any fun e => r.isStale e.2 && e.2.isRequired then .error .malformedYaml
  else .ok { r with places := r.places.filter fun e => !r.isStale e.2 }

/-- The place of a possible key between the current brackets or braces. -/
def place? (r : Reader) : Option KeyPlace := r.places.lookup r.flow

/-- The current place is dropped; a required one is missed. -/
def dropPlace (r : Reader) : Except Failure Reader :=
  match r.place? with
  | none => .ok r
  | some p =>
    if p.isRequired then .error .malformedYaml
    else .ok { r with places := r.places.filter fun e => e.1 != r.flow }

/-- A key may begin with the next token, if one is allowed here. -/
def savePlace (r : Reader) : Except Failure Reader :=
  if !r.keyAllowed then .ok r
  else do
    let r ← r.dropPlace
    let required := !r.inFlow && r.indent == r.cursor.column
    let p : KeyPlace :=
      ⟨r.count, required, r.cursor.line, r.cursor.column, r.cursor.index⟩
    pure { r with places := (r.flow, p) :: r.places }

/-! ### Indentation -/

/-- The blocks that are indented deeper than a column end. -/
def unwind (column : Int) (r : Reader) : Reader :=
  if r.inFlow then r
  else
    let blocks := r.indent :: r.outer
    let ended := (blocks.takeWhile (column < ·)).length
    match blocks.drop ended with
    | [] => r
    | indent :: outer =>
      { r with
        indent := indent
        outer := outer
        count := r.count + ended
        tokens := List.replicate ended Token.blockEnd ++ r.tokens }

/-- A block begins at a column, unless one has begun there already; true where one begins. -/
def indentTo (column : Nat) (r : Reader) : Bool × Reader :=
  if r.indent < column then (true, { r with indent := column, outer := r.indent :: r.outer })
  else (false, r)

/-- A block begins at the cursor with a token, unless one has begun there already. -/
def openBlock (k : Token) (r : Reader) : Reader :=
  match r.indentTo r.cursor.column with
  | (true, r) => r.push k
  | (false, r) => r

/-! ### Blanks and comments -/

/-- The number of spaces, characters of comments and line breaks at the start of a text, and whether
there is a line break among them.  `used` of them are behind the reader. -/
def skipBlanks : (comment passed : Bool) → (used : Nat) → Text → Nat × Bool
  | _, passed, used, [] => (used, passed)
  | comment, passed, used, c :: t =>
    if isBreak c then skipBlanks false true (used + 1) t
    else if comment || c.val == 32 then skipBlanks comment passed (used + 1) t
    else if c = '#' then skipBlanks true passed (used + 1) t
    else (used, passed)

/-- The reader at the next token.  A new line of a block may begin with a key. -/
def toToken (r : Reader) : Reader :=
  let (used, passed) := skipBlanks false false 0 r.cursor.rest
  { r.advance used with keyAllowed := r.keyAllowed || (passed && !r.inFlow) }

/-! ### Tokens -/

/-- Past a mark of `n` characters, which gives a token. -/
def mark (n : Nat) (k : Token) (r : Reader) : Reader := (r.push k).advance n

/-- A token of `n` characters for the document as a whole. -/
def documentToken (n : Nat) (k : Token) (r : Reader) : Except Failure Reader := do
  let r ← (r.unwind (-1)).dropPlace
  pure ({ r with keyAllowed := false }.mark n k)

/-- A directive after its percent sign. -/
def directive (t : Text) (r : Reader) : Except Failure Reader := do
  let r ← (r.unwind (-1)).dropPlace
  let d ← takeDirective t
  let line := (t.takeWhile fun c => !isBreak c).length
  pure ({ r with keyAllowed := false }.mark (line + 2) (.directive d))

/-- More brackets and braces around one another than a document can have. -/
def maxFlow : Nat := 2000

/-- A bracket or brace opens. -/
def opening (k : Token) (r : Reader) : Except Failure Reader := do
  if maxFlow < r.flow then throw .tooDeep
  let r ← r.savePlace
  pure ({ r with flow := r.flow + 1, keyAllowed := true }.mark 1 k)

/-- A bracket or brace closes. -/
def closing (k : Token) (r : Reader) : Except Failure Reader := do
  if !r.inFlow then throw .malformedYaml
  let r ← r.dropPlace
  pure ({ r with flow := r.flow - 1, keyAllowed := false }.mark 1 k)

/-- A comma between brackets or braces. -/
def comma (r : Reader) : Except Failure Reader := do
  let r ← r.dropPlace
  pure ({ r with keyAllowed := true }.mark 1 .comma)

/-- The hyphen before an item. -/
def item (r : Reader) : Except Failure Reader := do
  if !r.inFlow && !r.keyAllowed then throw .malformedYaml
  let r := if r.inFlow then r else r.openBlock .blockSequence
  let r ← r.dropPlace
  pure ({ r with keyAllowed := true }.mark 1 .item)

/-- The question mark before a key. -/
def keyMark (r : Reader) : Except Failure Reader := do
  if !r.inFlow && !r.keyAllowed then throw .malformedYaml
  let r := if r.inFlow then r else r.openBlock .blockMapping
  let r ← r.dropPlace
  pure ({ r with keyAllowed := !r.inFlow }.mark 1 .key)

/-- The colon after a key.  If a key may have begun on this line, it has. -/
def valueMark (r : Reader) : Except Failure Reader :=
  match r.place? with
  | some p =>
    let r := { r with places := r.places.filter fun e => e.1 != r.flow, keyAllowed := false }
    let r := r.insert p.count .key
    let r := if r.inFlow then r else match r.indentTo p.column with
      | (true, r) => r.insert p.count .blockMapping
      | (false, r) => r
    .ok (r.mark 1 .value)
  | none => do
    if !r.inFlow && !r.keyAllowed then throw .malformedYaml
    let r := if r.inFlow then r else r.openBlock .blockMapping
    pure ({ r with keyAllowed := !r.inFlow }.mark 1 .value)

/-- A token that may begin a key.  `read` gives the token and the number of its characters after the
first one. -/
def keyToken (read : Except Failure (Token × Nat)) (r : Reader) : Except Failure Reader := do
  let r ← r.savePlace
  let (k, n) ← read
  pure ({ r with keyAllowed := false }.mark (n + 1) k)

/-- A block scalar after its mark. -/
def blockScalar (folded : Bool) (t : Text) (r : Reader) : Except Failure Reader := do
  let r ← r.dropPlace
  let (s, n) ← orMalformed (takeBlock? folded r.indent t)
  pure ({ r with keyAllowed := true }.mark (n + 1) (.scalar false s))

/-- A plain scalar. -/
def plainScalar (r : Reader) : Except Failure Reader := do
  let r ← r.savePlace
  let e := takePlain r.inFlow (r.indent + 1) r.cursor.rest
  pure ({ r with keyAllowed := e.isFolded }.mark e.used (.scalar true e.text))

/-- The name of an anchor after its mark, as the token that `f` makes of it. -/
def named (f : Text → Token) (t : Text) : Except Failure (Token × Nat) :=
  (orMalformed (takeAnchor? t)).map fun name => (f name, name.length)

/-- A quoted scalar after its mark. -/
def quotedScalar (double : Bool) (t : Text) : Except Failure (Token × Nat) :=
  (takeQuoted double t).map fun (s, n) => (.scalar false s, n)

/-- The token that begins with the character `c`, which `t` follows. -/
def token (c : CodePoint) (t : Text) (r : Reader) : Except Failure Reader :=
  let atStart := r.cursor.column = 0
  let marks := r.inFlow || atGap t
  if c = '%' && atStart then r.directive t
  else if c = '-' && atStart && atMarker (c :: t) then r.documentToken 3 .documentStart
  else if c = '.' && atStart && atMarker (c :: t) then r.documentToken 3 .documentEnd
  else if c = '[' then r.opening .openBracket
  else if c = '\x7b' then r.opening .openBrace
  else if c = ']' then r.closing .closeBracket
  else if c = '\x7d' then r.closing .closeBrace
  else if c = ',' then r.comma
  else if c = '-' && atGap t then r.item
  else if c = '?' && marks then r.keyMark
  else if c = ':' && marks then r.valueMark
  else if c = '*' then r.keyToken (named .alias t)
  else if c = '&' then r.keyToken (named .anchor t)
  else if c = '!' then r.keyToken ((orMalformed (takeTag? t)).map fun k => (k, (wordOf t).length))
  else if c = '|' && !r.inFlow then r.blockScalar false t
  else if c = '>' && !r.inFlow then r.blockScalar true t
  else if c = '\'' || c = '"' then r.keyToken (quotedScalar (c == '"') t)
  else if startsPlain r.inFlow c t then r.plainScalar
  else .error .malformedYaml

/-- One more token, or the end of the text, which ends all blocks. -/
def next (r : Reader) : Except Failure Reader := do
  let r ← r.toToken.dropStale
  let r := r.unwind r.cursor.column
  match r.cursor.rest with
  | [] => (r.unwind (-1)).dropPlace
  | c :: t => r.token c t

/-- The number of tokens that can be used: those before the first one that may begin a key. -/
def usable (r : Reader) : Nat := r.places.foldl (fun n e => min n e.2.count) r.count

/-- The tokens of the text up to its end or its first fault; `fuel` bounds their number. -/
def run : (fuel : Nat) → Reader → List Token × Option Failure
  | 0, r => (r.tokens.reverse, none)
  | fuel + 1, r =>
    match r.dropStale with
    | .error e => ((r.tokens.drop (r.count - r.usable)).reverse, some e)
    | .ok r =>
      match r.next with
      | .error e => ((r.tokens.drop (r.count - r.usable)).reverse, some e)
      | .ok r' => if r.cursor.rest.isEmpty then (r'.tokens.reverse, none) else run fuel r'

end Reader

/-- The tokens of a prepared text, and its first fault. -/
def tokensOf (t : Text) : List Token × Option Failure := (Reader.initial t).run (t.length + 2)

end RepoScan.Yaml
