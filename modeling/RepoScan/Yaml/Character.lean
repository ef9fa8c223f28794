import RepoScan.Text.Lines

/-!
# Characters of documents

The configuration and the ignore file are YAML documents.  This module says which characters they
may hold, and which of them separate lines and words.

The reader works on a text in which every line break is one character: a line feed, or one of the
line and paragraph separators, which unlike the others are kept as they are when lines are joined.
-/

namespace RepoScan.Yaml

/-- A character that may stand in a document. -/
def isAllowed (c : CodePoint) : Bool :=
  c.val == 9 || c.val == 10 || c.val == 13 || (0x20 ≤ c.val && c.val ≤ 0x7E) || c.val == 0x85
    || (0xA0 ≤ c.val && c.val ≤ 0xD7FF) || (0xE000 ≤ c.val && c.val ≤ 0xFFFD) || 0x10000 ≤ c.val

/-- The mark for the order of bytes, which may stand before a document. -/
def byteOrderMark : CodePoint := '\uFEFF'

/-- The text with single characters as line breaks and without a mark before it. -/
def prepare (t : Text) : Text :=
  let t := (Text.unifyBreaks t).map fun c => if c.val == 0x85 then ('\n' : CodePoint) else c
  match t with
  | c :: rest => if c = byteOrderMark then rest else t
  | [] => []

/-- A line break, in prepared text. -/
def isBreak (c : CodePoint) : Bool := c.val == 10 || c.val == 0x2028 || c.val == 0x2029

/-- A blank inside a line. -/
def isBlank (c : CodePoint) : Bool := c.val == 32 || c.val == 9

/-- A blank or a line break. -/
def isGap (c : CodePoint) : Bool := isBlank c || isBreak c

/-- The text is at its end or at a gap. -/
def atGap : Text → Bool
  | [] => true
  | c :: _ => isGap c

/-- The text is at its end, a line break or a space. -/
def atWordEnd : Text → Bool
  | [] => true
  | c :: _ => isBreak c || c.val == 32

/-- The text is at a mark that starts or ends a document. -/
def atMarker (t : Text) : Bool :=
  match Text.after? "---" t, Text.after? "..." t with
  | some rest, _ => atGap rest
  | none, some rest => atGap rest
  | none, none => false

/-- The text without the spaces at its start. -/
def skipSpaces (t : Text) : Text := t.dropWhile fun c => c.val == 32

/-- The text without a comment at its start, up to the line break. -/
def skipComment (t : Text) : Text :=
  match t with
  | c :: _ => if c = '#' then t.dropWhile fun c => !isBreak c else t
  | [] => []

/-- The text after the rest of a line that holds no more than a comment; `none` where it holds
anything else. -/
def skipLine? (t : Text) : Option Text :=
  match skipComment (skipSpaces t) with
  | [] => some []
  | c :: rest => if isBreak c then some rest else none

/-- A character of a name of an anchor, a directive or a handle. -/
def isNameCharacter (c : CodePoint) : Bool := c.isAsciiAlnum || c.isIn "-_"

/-- What a line break and the empty lines after it become when the lines around them are joined.
A single line feed becomes a space, and of several the first one is dropped. -/
def joint (first : CodePoint) (more : Text) : Text :=
  if first != '\n' then first :: more else if more.isEmpty then [' '] else more

end RepoScan.Yaml
