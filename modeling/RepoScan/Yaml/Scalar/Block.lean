import RepoScan.Yaml.Character

/-!
# Block scalars

A block scalar is a run of indented lines.  Its header says whether lines are joined, how deep the
lines are indented, and what becomes of the line breaks at the end.  Without a depth in the header
the deepest line up to the first one with content gives it.
-/

namespace RepoScan.Yaml

/-- What becomes of the line breaks at the end of a block scalar. -/
inductive Chomping where
  /-- None is kept. -/
  | strip
  /-- The first one is kept. -/
  | clip
  /-- All are kept. -/
  | keep

/-- What the header of a block scalar says. -/
structure BlockHeader where
  folded : Bool
  chomping : Chomping
  /-- How much deeper than its surroundings the scalar is indented. -/
  depth : Option Nat

/-- The sign for the line breaks at the end of a scalar. -/
def chompingOf? (c : CodePoint) : Option Chomping :=
  if c = '+' then some .keep else if c = '-' then some .strip else none

/-- The indentation that a digit of a header stands for; zero is none. -/
def depthOf? (c : CodePoint) : Option Nat :=
  if c.isAsciiDigit && c != '0' then some (c.val - 48) else none

/-- The signs of a header, in either order, and the rest. -/
def takeSigns (t : Text) : (Option Chomping × Option Nat) × Text :=
  match t with
  | [] => ((none, none), [])
  | c :: rest =>
    match chompingOf? c, depthOf? c with
    | some k, _ =>
      match rest with
      | d :: rest' => match depthOf? d with
        | some n => ((some k, some n), rest')
        | none => ((some k, none), rest)
      | [] => ((some k, none), [])
    | none, some n =>
      match rest with
      | d :: rest' => match chompingOf? d with
        | some k => ((some k, some n), rest')
        | none => ((none, some n), rest)
      | [] => ((none, some n), [])
    | none, none => ((none, none), t)

/-- The header of a block scalar up to the end of its line, and the rest. -/
def takeHeader? (folded : Bool) (t : Text) : Option (BlockHeader × Text) :=
  let ((chomping, depth), rest) := takeSigns t
  if atWordEnd rest then
    (skipLine? rest).map fun rest => (⟨folded, chomping.getD .clip, depth⟩, rest)
  else none

/-- What stands before the first line with content: the line breaks of empty lines, the column that
the spaces after them reach, the greatest column that spaces reach, the number of characters, and
the rest. -/
structure Leading where
  breaks : Text
  column : Nat
  deepest : Nat
  used : Nat
  rest : Text

/-- The empty lines at the start of a text.  `breaks` holds the line breaks so far, reversed. -/
def takeLeading : (breaks : Text) → (column deepest used : Nat) → Text → Leading
  | breaks, column, deepest, used, [] => ⟨breaks.reverse, column, deepest, used, []⟩
  | breaks, column, deepest, used, c :: t =>
    if c.val == 32 then takeLeading breaks (column + 1) (max deepest (column + 1)) (used + 1) t
    else if isBreak c then takeLeading (c :: breaks) 0 deepest (used + 1) t
    else ⟨breaks.reverse, column, deepest, used, c :: t⟩

/-- The empty lines at the start of a text, no more than `indent` spaces being taken from a line.
`breaks` holds the line breaks so far, reversed. -/
def takeEmpty (indent : Nat) : (breaks : Text) → (column used : Nat) → Text → Leading
  | breaks, column, used, [] => ⟨breaks.reverse, column, indent, used, []⟩
  | breaks, column, used, c :: t =>
    if c.val == 32 && column < indent then takeEmpty indent breaks (column + 1) (used + 1) t
    else if isBreak c then takeEmpty indent (c :: breaks) 0 (used + 1) t
    else ⟨breaks.reverse, column, indent, used, c :: t⟩

/-- Where the reader stands inside a block scalar.  `flush` tells that the last line with content
begins with its first character at the indentation. -/
inductive WithinBlock where
  | line (flush : Bool)
  /-- After the line break of a line with content, the reversed ones of empty lines, and spaces. -/
  | gap (flush : Bool) (first : CodePoint) (more : Text) (column : Nat)

/-- What stands between two lines with content, the second of which begins with `c`. -/
def between (folded flush : Bool) (first : CodePoint) (more : Text) (c : CodePoint) : Text :=
  if folded && first == '\n' && flush && !isBlank c then joint first more else first :: more

/-- The line breaks at the end of a scalar that are kept. -/
def Chomping.apply (k : Chomping) (first : Option CodePoint) (more : Text) : Text :=
  match k with
  | .strip => []
  | .clip => first.toList
  | .keep => first.toList ++ more

/-- The rest of a block scalar, and how far it reaches: `used` characters are behind the reader.
`done` is the scalar so far, reversed. -/
def takeBlockFrom (h : BlockHeader) (indent : Nat) : WithinBlock → Text → (used : Nat) →
    (done : Text) → Text × Nat
  | .line _, [], used, done => (done.reverse, used)
  | .gap _ first more _, [], used, done =>
    (done.reverse ++ h.chomping.apply (some first) more.reverse, used)
  | .line flush, c :: t, used, done =>
    if isBreak c then takeBlockFrom h indent (.gap flush c [] 0) t (used + 1) done
    else takeBlockFrom h indent (.line flush) t (used + 1) (c :: done)
  | .gap flush first more column, c :: t, used, done =>
    if c.val == 32 && column < indent then
      takeBlockFrom h indent (.gap flush first more (column + 1)) t (used + 1) done
    else if isBreak c then
      takeBlockFrom h indent (.gap flush first (c :: more) 0) t (used + 1) done
    else if column = indent then
      takeBlockFrom h indent (.line (!isBlank c)) t (used + 1)
        (c :: (between h.folded flush first more.reverse c).reverseAux done)
    else (done.reverse ++ h.chomping.apply (some first) more.reverse, used)

/-- The block scalar after its mark, and the number of characters that it takes.  The lines around it
are indented by `outer`, which is negative at the top of a document. -/
def takeBlock? (folded : Bool) (outer : Int) (t : Text) : Option (Text × Nat) :=
  (takeHeader? folded t).map fun (h, rest) =>
    let least := max 1 (outer + 1).toNat
    let line := (t.takeWhile fun c => !isBreak c).length + 1
    let (indent, e) := match h.depth with
      | some n => (least + n - 1, takeEmpty (least + n - 1) [] 0 line rest)
      | none =>
        let e := takeLeading [] 0 0 line rest
        (max least e.deepest, e)
    match e.rest with
    | c :: _ =>
      if e.column = indent then
        takeBlockFrom h indent (.line (!isBlank c)) e.rest e.used e.breaks.reverse
      else (h.chomping.apply none e.breaks, e.used)
    | [] => (h.chomping.apply none e.breaks, e.used)

end RepoScan.Yaml
