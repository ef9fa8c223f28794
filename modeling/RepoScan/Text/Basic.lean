/-!
# Text

The scanner reads file bodies, tool output and reports as sequences of Unicode code points.  A
report may hold the escape of an unpaired surrogate, so a `CodePoint` is any number below
`0x110000`, and a `Text` is a list of them.

Searching, cutting and joining are defined here.  Functions that meet whole file bodies are folds
or tail recursive, so that a body of two million characters is no special case.
-/

namespace RepoScan

/-- A Unicode code point, unpaired surrogates included. -/
structure CodePoint where
  /-- The number of the code point. -/
  val : Nat
  /-- Code points end at `0x10FFFF`. -/
  lt : val < 0x110000 := by decide
deriving DecidableEq

namespace CodePoint

/-- The code point of a character. -/
def ofChar (c : Char) : CodePoint := ⟨c.toNat, by
  have h := c.valid
  simp only [UInt32.isValidChar, Nat.isValidChar] at h
  simp only [Char.toNat]
  omega⟩

instance : Coe Char CodePoint := ⟨ofChar⟩

instance : Inhabited CodePoint := ⟨'?'⟩

instance : LT CodePoint := ⟨fun a b => a.val < b.val⟩

instance (a b : CodePoint) : Decidable (a < b) := inferInstanceAs (Decidable (a.val < b.val))

/-- The mark that stands for undecodable input. -/
def replacement : CodePoint := '\uFFFD'

/-- The code point with number `n`; numbers beyond the last code point give the replacement mark. -/
def ofNat (n : Nat) : CodePoint := if h : n < 0x110000 then ⟨n, h⟩ else replacement

/-- Half of a surrogate pair, which no encoding form admits on its own. -/
def isSurrogate (c : CodePoint) : Bool := 0xD800 ≤ c.val && c.val ≤ 0xDFFF

/-- A surrogate that stands for a byte that is no text, in what the operating system is given. -/
def isHiddenByte (c : CodePoint) : Bool := 0xDC80 ≤ c.val && c.val ≤ 0xDCFF

/-- The character of a code point; an unpaired surrogate gives the replacement mark. -/
def toChar (c : CodePoint) : Char := if c.isSurrogate then '\uFFFD' else Char.ofNat c.val

/-- Below 128. -/
def isAscii (c : CodePoint) : Bool := c.val < 128

/-- `lo` to `hi`, both included. -/
def between (lo hi : Char) (c : CodePoint) : Bool := lo.toNat ≤ c.val && c.val ≤ hi.toNat

/-- `0` to `9`. -/
def isAsciiDigit (c : CodePoint) : Bool := c.between '0' '9'

/-- `A` to `Z`. -/
def isAsciiUpper (c : CodePoint) : Bool := c.between 'A' 'Z'

/-- `a` to `z`. -/
def isAsciiLower (c : CodePoint) : Bool := c.between 'a' 'z'

/-- An ASCII letter. -/
def isAsciiLetter (c : CodePoint) : Bool := c.isAsciiUpper || c.isAsciiLower

/-- An ASCII letter or digit. -/
def isAsciiAlnum (c : CodePoint) : Bool := c.isAsciiLetter || c.isAsciiDigit

/-- The value of a hexadecimal digit. -/
def hexValue? (c : CodePoint) : Option Nat :=
  if c.isAsciiDigit then some (c.val - 48)
  else if c.between 'a' 'f' then some (c.val - 87)
  else if c.between 'A' 'F' then some (c.val - 55)
  else none

/-- Membership in the characters of a short literal. -/
def isIn (c : CodePoint) (s : String) : Bool := s.toList.any fun d => c == d

@[simp] theorem val_ofChar (c : Char) : (ofChar c).val = c.toNat := rfl

end CodePoint

/-- A sequence of code points. -/
abbrev Text := List CodePoint

namespace Text

/-- The text of a literal. -/
def ofString (s : String) : Text := s.toList.map CodePoint.ofChar

instance : Coe String Text := ⟨ofString⟩

/-- The characters of a text, for a terminal. -/
def toString (t : Text) : String := String.ofList (t.map CodePoint.toChar)

/-- The decimal digits of a number. -/
def ofNat (n : Nat) : Text := (Nat.toDigits 10 n).map CodePoint.ofChar

/-- The decimal digits of an integer, with a leading minus sign where it is negative. -/
def ofInt : Int → Text
  | .ofNat n => ofNat n
  | .negSucc n => ('-' : CodePoint) :: ofNat (n + 1)

/-- The digits of a number in lower-case hexadecimal, at least `width` of them. -/
def hex (width n : Nat) : Text :=
  let ds := (Nat.toDigits 16 n).map CodePoint.ofChar
  List.replicate (width - ds.length) ('0' : CodePoint) ++ ds

/-! ### Searching -/

/-- `t` begins with `p`. -/
def startsWith (t p : Text) : Bool := p.isPrefixOf t

/-- `t` ends with `p`. -/
def endsWith (t p : Text) : Bool := p.isSuffixOf t

/-- What follows `p` at the start of the text, if it begins so. -/
def after? : (p t : Text) → Option Text
  | [], t => some t
  | _ :: _, [] => none
  | a :: p, b :: t => if a = b then after? p t else none

/-- `p` occurs somewhere in the text. -/
def hasInfix (p : Text) : Text → Bool
  | [] => p.isEmpty
  | c :: t => p.isPrefixOf (c :: t) || hasInfix p t

/-- The text before the first occurrence of `p` and the text after it. -/
def cut? (p : Text) (t : Text) : Option (Text × Text) := go [] t
where
  /-- `done` holds the characters passed so far, last one first. -/
  go (done : Text) : Text → Option (Text × Text)
    | [] => if p.isEmpty then some (done.reverse, []) else none
    | c :: t =>
      match after? p (c :: t) with
      | some rest => some (done.reverse, rest)
      | none => go (c :: done) t

/-- The text before the last occurrence of `c` and the text after it. -/
def cutLast? (c : CodePoint) (t : Text) : Option (Text × Text) :=
  let r := t.reverse
  match r.dropWhile (· != c) with
  | [] => none
  | _ :: front => some (front.reverse, (r.takeWhile (· != c)).reverse)

/-! ### Cutting and joining -/

/-- The pieces between the occurrences of `sep`: one more than there are occurrences. -/
def splitOn (sep : CodePoint) (t : Text) : List Text :=
  t.foldr (fun c pieces =>
    if c = sep then [] :: pieces
    else match pieces with
      | [] => [[c]]
      | p :: ps => (c :: p) :: ps) [[]]

/-- The maximal runs of characters outside `sep`. -/
def splitRuns (sep : CodePoint → Bool) (t : Text) : List Text :=
  let flush (word : Text) (words : List Text) := if word.isEmpty then words else word :: words
  let (word, words) := t.foldr (fun c (acc : Text × List Text) =>
    if sep c then ([], flush acc.1 acc.2) else (c :: acc.1, acc.2)) ([], [])
  flush word words

/-- Pieces joined by a separator. -/
def join (sep : Text) (pieces : List Text) : Text := sep.intercalate pieces

/-- The text without the leading characters that satisfy `p`. -/
def trimLeft (p : CodePoint → Bool) (t : Text) : Text := t.dropWhile p

/-- The text without the trailing characters that satisfy `p`. -/
def trimRight (p : CodePoint → Bool) (t : Text) : Text := (t.reverse.dropWhile p).reverse

/-- The text without the leading and trailing characters that satisfy `p`. -/
def trim (p : CodePoint → Bool) (t : Text) : Text := trimRight p (trimLeft p t)

/-- Every occurrence of `old`, from left to right and without overlaps, becomes `new`.  An empty
`old` leaves the text as it is. -/
def replaceAll (old new : Text) (t : Text) : Text :=
  if old.isEmpty then t else go 0 t []
where
  /-- `skip` characters of an occurrence are still to be dropped; `done` is the output, reversed. -/
  go (skip : Nat) : Text → Text → Text
    | [], done => done.reverse
    | c :: t, done =>
      match skip with
      | n + 1 => go n t done
      | 0 =>
        if old.isPrefixOf (c :: t) then go (old.length - 1) t (new.reverseAux done)
        else go 0 t (c :: done)

/-- Every `a` becomes `b`. -/
def replaceChar (a b : CodePoint) (t : Text) : Text := t.map fun c => if c = a then b else c

/-- The index that an offset means in a sequence of length `n`: a negative one counts from the
end, and all are clamped to the sequence. -/
def clampIndex (n : Nat) (i : Int) : Nat :=
  if i < 0 then (n + i).toNat else min i.toNat n

/-- The items from index `start` up to index `stop`, each counted as in `clampIndex`. -/
def slice {α : Type} (start stop : Int) (xs : List α) : List α :=
  let a := clampIndex xs.length start
  let b := clampIndex xs.length stop
  (xs.drop a).take (b - a)

/-- Order by code points, a proper beginning first. -/
def le : Text → Text → Bool
  | [], _ => true
  | _ :: _, [] => false
  | a :: s, b :: t => a.val < b.val || (a = b && le s t)

/-- `n` copies of a text. -/
def repeated (n : Nat) (t : Text) : Text := (List.replicate n t).flatten

end Text

end RepoScan
