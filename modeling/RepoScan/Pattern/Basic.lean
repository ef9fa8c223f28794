import RepoScan.Text.Class

/-!
# Patterns

The detection rules look for patterns in a line.  A pattern is built from characters and runs
of a character class by sequence and choice, with marks for the edge of a word and for either
end of the text.  Only whether a pattern occurs is ever asked, so there are no captures.

`Pattern.Spans` says what a pattern matches.  Since the marks look at the neighbours of a match,
it relates the character before the match, the match and the text after it.  `Pattern.Occurs` is
the question that the rules ask; `Pattern/Search` answers it.
-/

namespace RepoScan

/-- A set of characters. -/
abbrev CharClass := CodePoint → Bool

/-- What to look for in a text. -/
inductive Pattern where
  /-- Nothing: matches everywhere. -/
  | empty
  /-- The character itself. -/
  | char (d : CodePoint)
  /-- A letter in lower case, with case ignored. -/
  | letter (d : CodePoint)
  /-- One character of a class. -/
  | one (s : CharClass)
  /-- At least `least` characters of a class, and at most `most` of them where that is given. -/
  | run (s : CharClass) (least : Nat) (most : Option Nat)
  /-- One pattern and another right after it. -/
  | seq (p q : Pattern)
  /-- Either of two patterns. -/
  | alt (p q : Pattern)
  /-- Between a word character and something else. -/
  | edge
  /-- The start of the text. -/
  | start
  /-- The end of the text, or just before a line feed that ends it. -/
  | stop

namespace Pattern

instance : Append Pattern := ⟨seq⟩

instance : OrOp Pattern := ⟨alt⟩

/-! ### Case -/

/-- The ASCII letter that a character counts as where case is ignored: beside the two cases of
the letter, the long s, the Kelvin sign, and the dotted capital and the dotless small i. -/
def foldCase (c : CodePoint) : CodePoint :=
  if c.isAsciiUpper then CodePoint.ofNat (c.val + 32)
  else if c.isAscii then c
  else if c.val = 0x17F then 's'
  else if c.val = 0x212A then 'k'
  else if c.val = 0x130 || c.val = 0x131 then 'i'
  else c

/-- A class of lower-case letters and other characters, with case ignored. -/
def anyCase (s : CharClass) : CharClass := fun c => s (foldCase c)

/-! ### What a pattern matches -/

/-- A word character is there. -/
def isWordAt : Option CodePoint → Bool
  | some c => c.isWord
  | none => false

/-- The last character of `w` where it has one, and `before` otherwise. -/
def lastOf (before : Option CodePoint) (w : Text) : Option CodePoint :=
  w.getLast?.or before

/-- The pattern matches `w` where `before` is the character in front of it, if any, and `after`
the text behind it. -/
def Spans : Pattern → (before : Option CodePoint) → (w after : Text) → Prop
  | empty, _, w, _ => w = []
  | char d, _, w, _ => w = [d]
  | letter d, _, w, _ => ∃ c, w = [c] ∧ foldCase c = d
  | one s, _, w, _ => ∃ c, w = [c] ∧ s c = true
  | run s least most, _, w, _ =>
    (∀ c ∈ w, s c = true) ∧ least ≤ w.length ∧ ∀ n ∈ most, w.length ≤ n
  | seq p q, before, w, after =>
    ∃ u v, w = u ++ v ∧ p.Spans before u (v ++ after) ∧ q.Spans (lastOf before u) v after
  | alt p q, before, w, after => p.Spans before w after ∨ q.Spans before w after
  | edge, before, w, after => w = [] ∧ isWordAt before ≠ isWordAt after.head?
  | start, before, w, _ => w = [] ∧ before = none
  | stop, _, w, after => w = [] ∧ (after = [] ∨ after = [('\n' : CodePoint)])

/-- The pattern matches somewhere in the text. -/
def Occurs (p : Pattern) (t : Text) : Prop :=
  ∃ u w v, t = u ++ w ++ v ∧ p.Spans u.getLast? w v

/-! ### Building patterns -/

/-- The characters of a literal, in their order. -/
def literal (s : String) : Pattern :=
  (Text.ofString s).foldr (fun c p => seq (char c) p) empty

/-- The characters of a literal in lower case, with case ignored. -/
def word (s : String) : Pattern :=
  (Text.ofString s).foldr (fun c p => seq (letter c) p) empty

/-- One of the characters of a literal. -/
def oneOf (s : String) : Pattern :=
  let cs := Text.ofString s
  one fun c => cs.contains c

/-- The pattern, or nothing. -/
def opt (p : Pattern) : Pattern := alt p empty

/-- Any number of characters of a class. -/
def many (s : CharClass) : Pattern := run s 0 none

/-- At least one character of a class. -/
def some1 (s : CharClass) : Pattern := run s 1 none

/-- At least `n` characters of a class. -/
def atLeast (n : Nat) (s : CharClass) : Pattern := run s n none

/-- Exactly `n` characters of a class. -/
def exactly (n : Nat) (s : CharClass) : Pattern := run s n (some n)

/-- One of several patterns. -/
def oneFrom : List Pattern → Pattern
  | [] => one fun _ => false
  | [p] => p
  | p :: q :: ps => alt p (oneFrom (q :: ps))

/-- One of several literals. -/
def literals (ss : List String) : Pattern := oneFrom (ss.map literal)

/-- One of several lower-case literals, with case ignored. -/
def wordsOf (ss : List String) : Pattern := oneFrom (ss.map word)

/-- White space, if any. -/
def blanks : Pattern := many CodePoint.isSpace

/-- White space, at least one character of it. -/
def gap : Pattern := some1 CodePoint.isSpace

end Pattern

end RepoScan
