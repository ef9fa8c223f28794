import RepoScan.Failure
import RepoScan.Yaml.Character

/-!
# Quoted scalars

Between single quotes only the quote itself is special: it is doubled.  Between double quotes there
are escapes.  In both, lines are joined with the blanks around the line breaks dropped.

`takeQuoted` reads a scalar whose opening quote is behind it.
-/

namespace RepoScan.Yaml

/-- The character that a letter after a backslash stands for. -/
def escaped? (c : CodePoint) : Option CodePoint :=
  let table : List (CodePoint × Nat) := [('0', 0), ('a', 7), ('b', 8), ('t', 9), ('\t', 9), ('n', 10),
    ('v', 11), ('f', 12), ('r', 13), ('e', 27), (' ', 32), ('"', 34), ('\\', 92), ('/', 47),
    ('N', 0x85), ('_', 0xA0), ('L', 0x2028), ('P', 0x2029)]
  (table.lookup c).map CodePoint.ofNat

/-- The number of digits that a letter after a backslash asks for. -/
def escapeLength? (c : CodePoint) : Option Nat :=
  if c = 'x' then some 2 else if c = 'u' then some 4 else if c = 'U' then some 8 else none

/-- Where the reader stands inside a quoted scalar. -/
inductive WithinQuotes where
  /-- After a character. -/
  | plain
  /-- After blanks, which are reversed. -/
  | blanks (run : Text)
  /-- After a line break and the reversed ones of empty lines. -/
  | folds (first : CodePoint) (more : Text)
  /-- After an escaped line break and the reversed ones of empty lines. -/
  | joined (more : Text)
  /-- After a backslash. -/
  | escape
  /-- In an escape with `left + 1` digits to come. -/
  | hex (left value : Nat)
  /-- After a single quote, which may be the first of two. -/
  | quote

/-- What the state adds before the next character; the text so far is reversed. -/
def WithinQuotes.settle (w : WithinQuotes) (done : Text) : Text :=
  match w with
  | .blanks run => run ++ done
  | .folds first more => (joint first more.reverse).reverseAux done
  | .joined more => more ++ done
  | _ => done

/-- The rest of a quoted scalar, and how far it reaches: `used` characters are behind the reader.
`done` is the scalar so far, reversed. -/
def takeQuotedFrom (double : Bool) : WithinQuotes → Text → (used : Nat) → (done : Text) →
    Except Failure (Text × Nat)
  | .quote, [], used, done => .ok (done.reverse, used)
  | _, [], _, _ => .error .malformedYaml
  | .escape, c :: t, used, done =>
    match escaped? c, escapeLength? c with
    | some d, _ => takeQuotedFrom double .plain t (used + 1) (d :: done)
    | none, some n => takeQuotedFrom double (.hex (n - 1) 0) t (used + 1) done
    | none, none =>
      if isBreak c && !atMarker t then takeQuotedFrom double (.joined []) t (used + 1) done
      else .error .malformedYaml
  | .hex left value, c :: t, used, done =>
    match c.hexValue? with
    | none => .error .malformedYaml
    | some d =>
      let n := value * 16 + d
      match left with
      | left + 1 => takeQuotedFrom double (.hex left n) t (used + 1) done
      | 0 =>
        if n < 0x110000 then
          takeQuotedFrom double .plain t (used + 1) (CodePoint.ofNat n :: done)
        else .error (.noSuchCharacter n)
  | .quote, c :: t, used, done =>
    if c = '\'' then takeQuotedFrom double .plain t (used + 1) (c :: done)
    else .ok (done.reverse, used)
  | w, c :: t, used, done =>
    if isBreak c then
      if atMarker t then .error .malformedYaml
      else match w with
        | .folds first more => takeQuotedFrom double (.folds first (c :: more)) t (used + 1) done
        | .joined more => takeQuotedFrom double (.joined (c :: more)) t (used + 1) done
        | _ => takeQuotedFrom double (.folds c []) t (used + 1) done
    else if isBlank c then
      match w with
      | .folds .. | .joined _ => takeQuotedFrom double w t (used + 1) done
      | .blanks run => takeQuotedFrom double (.blanks (c :: run)) t (used + 1) done
      | _ => takeQuotedFrom double (.blanks [c]) t (used + 1) done
    else
      let done := w.settle done
      if double then
        if c = '"' then .ok (done.reverse, used + 1)
        else if c = '\\' then takeQuotedFrom double .escape t (used + 1) done
        else takeQuotedFrom double .plain t (used + 1) (c :: done)
      else if c = '\'' then takeQuotedFrom double .quote t (used + 1) done
      else takeQuotedFrom double .plain t (used + 1) (c :: done)

/-- The quoted scalar whose opening quote is behind the text, and the number of characters that it
takes, closing quote included. -/
def takeQuoted (double : Bool) (t : Text) : Except Failure (Text × Nat) :=
  takeQuotedFrom double .plain t 0 []

end RepoScan.Yaml
