import RepoScan.Yaml.Character

/-!
# Plain scalars

A plain scalar goes on to a character that has a meaning where it stands, or to a line that is not
indented enough.  Its lines are joined, and blanks at its end do not belong to it.  Tabs end it.
-/

namespace RepoScan.Yaml

/-- A character that has a meaning inside brackets and braces. -/
def isFlowMark (c : CodePoint) : Bool := c.isIn ",[]\x7b\x7d"

/-- A plain scalar ends before the character `c`, which `t` follows.  `flow` tells that it stands
inside brackets or braces. -/
def endsPlain (flow : Bool) (c : CodePoint) (t : Text) : Bool :=
  isGap c
    || (c == ':' && (atGap t || (flow && (t.head?.map isFlowMark).getD true)))
    || (flow && (isFlowMark c || c == '?'))

/-- Where the reader stands inside a plain scalar. -/
inductive WithinPlain where
  /-- After a character. -/
  | word
  /-- After a number of spaces. -/
  | spaces (n : Nat)
  /-- After a line break, the reversed ones of empty lines, and the spaces of the current line. -/
  | folds (first : CodePoint) (more : Text) (column : Nat)

/-- The state adds this before the next character. -/
def WithinPlain.settle : WithinPlain → Text
  | .word => []
  | .spaces n => List.replicate n ' '
  | .folds first more _ => joint first more.reverse

/-- The reader has passed a line break since the last character. -/
def WithinPlain.isFolding : WithinPlain → Bool
  | .folds .. => true
  | _ => false

/-- What a plain scalar ends with: its text, the number of characters that it takes with the blanks
and breaks after it, and whether a line break was passed at its end. -/
structure PlainEnd where
  text : Text
  used : Nat
  isFolded : Bool

/-- The scalar may go on with the character `c`, which `t` follows. -/
def goesOn (flow : Bool) (indent : Int) (w : WithinPlain) (c : CodePoint) (t : Text) : Bool :=
  !endsPlain flow c t &&
    match w with
    | .word => true
    | .spaces _ => c != '#'
    | .folds _ _ column => c != '#' && (flow || indent ≤ column)

/-- The rest of a plain scalar.  `used` characters are behind the reader, and `done` is the scalar so
far, reversed. -/
def takePlainFrom (flow : Bool) (indent : Int) : WithinPlain → Text → (used : Nat) →
    (done : Text) → PlainEnd
  | w, [], used, done => ⟨done.reverse, used, w.isFolding⟩
  | w, c :: t, used, done =>
    if c.val == 32 then
      takePlainFrom flow indent (match w with
        | .word => .spaces 1
        | .spaces n => .spaces (n + 1)
        | .folds first more column => .folds first more (column + 1)) t (used + 1) done
    else if isBreak c then
      if atMarker t then ⟨done.reverse, used + 1, true⟩
      else takePlainFrom flow indent (match w with
        | .folds first more _ => .folds first (c :: more) 0
        | _ => .folds c [] 0) t (used + 1) done
    else if goesOn flow indent w c t then
      takePlainFrom flow indent .word t (used + 1) (c :: w.settle.reverseAux done)
    else ⟨done.reverse, used, w.isFolding⟩

/-- The plain scalar at the start of a text.  Its lines are indented by `indent` at least, unless it
stands inside brackets or braces. -/
def takePlain (flow : Bool) (indent : Int) (t : Text) : PlainEnd :=
  takePlainFrom flow indent .word t 0 []

/-- A character that cannot start a plain scalar by itself. -/
def isIndicator (c : CodePoint) : Bool := c.isIn "-?:,[]\x7b\x7d#&*!|>'\"%@\x60"

/-- A plain scalar starts with the character `c`, which `t` follows. -/
def startsPlain (flow : Bool) (c : CodePoint) (t : Text) : Bool :=
  (!isGap c && !isIndicator c) || (!atGap t && (c == '-' || (!flow && (c == '?' || c == ':'))))

end RepoScan.Yaml
