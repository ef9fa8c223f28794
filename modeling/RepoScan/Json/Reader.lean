import RepoScan.Failure
import RepoScan.Value

/-!
# Reading JSON

The reports of external tools are JSON.  The reader keeps what the reports rely on: integers of any
size up to the digit limit stay exact, `NaN` and the infinities are numbers, an object keeps the
order of its keys and a repeated key has its last value, and the escape of an unpaired surrogate is
a character.

`Json.read` reads a document.  The functions below it each take the longest form at the start of a
text and give the rest.
-/

namespace RepoScan.Json

/-- White space between the parts of a document. -/
def isBlank (c : CodePoint) : Bool := c.val == 32 || c.val == 9 || c.val == 10 || c.val == 13

/-- The text without leading blanks. -/
def skipBlanks (t : Text) : Text := t.dropWhile isBlank

/-! ### Strings -/

/-- Where the reader stands inside a string. -/
inductive Within where
  /-- Between characters. -/
  | plain
  /-- After a backslash. -/
  | escape
  /-- Inside a numeric escape: `left` digits are to come after the ones with value `value`. -/
  | hex (left value : Nat)

/-- The character that a letter after a backslash stands for. -/
def escapeLetter? (c : CodePoint) : Option CodePoint :=
  if c = '"' || c = '\\' || c = '/' then some c
  else if c = 'n' then some '\n'
  else if c = 't' then some '\t'
  else if c = 'r' then some '\r'
  else if c = 'b' then some (CodePoint.ofNat 8)
  else if c = 'f' then some (CodePoint.ofNat 12)
  else none

/-- The output after the numeric escape `n`.  A low surrogate joins a high one whose escape stands
right before it, which `joins` tells. -/
def pushUnit (joins : Bool) (n : Nat) (done : Text) : Text :=
  match done with
  | high :: rest =>
    if joins && 0xDC00 ≤ n && n ≤ 0xDFFF then
      CodePoint.ofNat (0x10000 + (high.val - 0xD800) * 0x400 + (n - 0xDC00)) :: rest
    else CodePoint.ofNat n :: done
  | [] => [CodePoint.ofNat n]

/-- `n` is the first half of a surrogate pair. -/
def isHigh (n : Nat) : Bool := 0xD800 ≤ n && n ≤ 0xDBFF

/-- The rest of a string whose opening quote is read, and what follows it.  `joins` tells that the
last character came from the escape of a high surrogate, and `done` is the string so far,
reversed. -/
def takeString? (at_ : Within) (joins : Bool) : Text → (done : Text) → Option (Text × Text)
  | [], _ => none
  | c :: t, done =>
    match at_ with
    | .plain =>
      if c = '"' then some (done.reverse, t)
      else if c = '\\' then takeString? .escape joins t done
      else if c.val < 32 then none
      else takeString? .plain false t (c :: done)
    | .escape =>
      if c = 'u' then takeString? (.hex 3 0) joins t done
      else match escapeLetter? c with
        | some d => takeString? .plain false t (d :: done)
        | none => none
    | .hex left value =>
      match c.hexValue? with
      | none => none
      | some d =>
        let n := value * 16 + d
        match left with
        | 0 => takeString? .plain (isHigh n && !(joins && 0xDC00 ≤ n)) t (pushUnit joins n done)
        | left + 1 => takeString? (.hex left n) joins t done

/-! ### Numbers -/

/-- The ASCII digits at the start of a text and the rest. -/
def takeDigits (t : Text) : Text × Text :=
  (t.takeWhile (·.isAsciiDigit), t.dropWhile (·.isAsciiDigit))

/-- The number that ASCII digits spell. -/
def digitsValue (ds : Text) : Nat := ds.foldl (fun n c => n * 10 + (c.val - 48)) 0

/-- The digits of a fraction, if there is one, and the rest. -/
def takeFraction (t : Text) : Text × Text :=
  match t with
  | c :: t' =>
    let (ds, rest) := takeDigits t'
    if c = '.' && !ds.isEmpty then (ds, rest) else ([], t)
  | [] => ([], [])

/-- The exponent, if there is one, and the rest. -/
def takeExponent (t : Text) : Option Int × Text :=
  match t with
  | c :: t' =>
    if c = 'e' || c = 'E' then
      let (negative, body) := Number.takeSign t'
      let (ds, rest) := takeDigits body
      let n : Int := digitsValue ds
      if ds.isEmpty then (none, t) else (some (if negative then -n else n), rest)
    else (none, t)
  | [] => (none, [])

/-- The number at the start of a text, an optional minus sign already read, and the rest. -/
def takeNumber (negative : Bool) (t : Text) : Except Failure (Value × Text) :=
  let (whole, rest) := match t with
    | c :: t' => if c = '0' then ([c], t') else takeDigits t
    | [] => ([], [])
  let (fraction, rest) := takeFraction rest
  let (e, rest) := takeExponent rest
  if whole.isEmpty then .error .malformedJson
  else if fraction.isEmpty && e.isNone then
    if Number.maxDigits < whole.length then .error (.tooManyDigits whole.length)
    else
      let n : Int := digitsValue whole
      .ok (.int (if negative then -n else n), rest)
  else
    .ok (.real (Binary64.ofDecimal negative (digitsValue (whole ++ fraction))
      (e.getD 0 - fraction.length)), rest)

/-! ### Values -/

/-- The words that stand for values. -/
def keywords : List (Text × Value) :=
  [("null", .null), ("true", .bool true), ("false", .bool false), ("NaN", .real .nan),
    ("Infinity", .real (.infinite false)), ("-Infinity", .real (.infinite true))]

/-- The word at the start of a text and the rest. -/
def takeKeyword? (t : Text) : Option (Value × Text) :=
  keywords.findSome? fun (w, v) => (Text.after? w t).map (v, ·)

/-- How deep arrays and objects may be nested. -/
def maxNesting : Nat := 985

mutual

/-- The value at the start of a text, and the rest.  `fuel` bounds the number of values and
separators that may be read, and `depth` is how deep arrays and objects may still be nested. -/
def takeValue : (fuel depth : Nat) → Text → Except Failure (Value × Text)
  | 0, _, _ => .error .malformedJson
  | _, _, [] => .error .malformedJson
  | fuel + 1, depth, c :: t =>
    if c = '"' then
      match takeString? .plain false t [] with
      | some (s, rest) => .ok (.text s, rest)
      | none => .error .malformedJson
    else if c = '[' then
      match depth, skipBlanks t with
      | 0, _ => .error .tooDeep
      | depth + 1, d :: rest =>
        if d = ']' then .ok (.list [], rest) else takeItems fuel depth (d :: rest) []
      | _, [] => .error .malformedJson
    else if c = '\x7b' then
      match depth, skipBlanks t with
      | 0, _ => .error .tooDeep
      | depth + 1, d :: rest =>
        if d = '\x7d' then .ok (.map [], rest) else takeEntries fuel depth (d :: rest) []
      | _, [] => .error .malformedJson
    else match takeKeyword? (c :: t) with
      | some r => .ok r
      | none => if c = '-' then takeNumber true t else takeNumber false (c :: t)

/-- The items of an array from the next one on, and what follows the array.  `done` holds the items
so far, reversed. -/
def takeItems : (fuel depth : Nat) → Text → (done : List Value) → Except Failure (Value × Text)
  | 0, _, _, _ => .error .malformedJson
  | fuel + 1, depth, t, done =>
    match takeValue fuel depth t with
    | .error e => .error e
    | .ok (v, rest) =>
      match skipBlanks rest with
      | c :: rest =>
        if c = ']' then .ok (.list (v :: done).reverse, rest)
        else if c = ',' then takeItems fuel depth (skipBlanks rest) (v :: done)
        else .error .malformedJson
      | [] => .error .malformedJson

/-- The entries of an object from the next one on, and what follows the object.  `done` holds the
entries so far, reversed. -/
def takeEntries : (fuel depth : Nat) → Text → (done : List (Value × Value)) →
    Except Failure (Value × Text)
  | 0, _, _, _ => .error .malformedJson
  | fuel + 1, depth, t, done =>
    match t with
    | [] => .error .malformedJson
    | q :: t =>
      if q = '"' then
        match takeString? .plain false t [] with
        | none => .error .malformedJson
        | some (key, rest) =>
          match skipBlanks rest with
          | [] => .error .malformedJson
          | c :: rest =>
            if c = ':' then
              match takeValue fuel depth (skipBlanks rest) with
              | .error e => .error e
              | .ok (v, rest) =>
                let done := (Value.text key, v) :: done
                match skipBlanks rest with
                | c :: rest =>
                  if c = '\x7d' then .ok (.ofEntries done.reverse, rest)
                  else if c = ',' then takeEntries fuel depth (skipBlanks rest) done
                  else .error .malformedJson
                | [] => .error .malformedJson
            else .error .malformedJson
      else .error .malformedJson

end

/-- The value of a document. -/
def read (t : Text) : Except Failure Value :=
  match takeValue (t.length + 1) maxNesting (skipBlanks t) with
  | .error e => .error e
  | .ok (v, rest) => if (skipBlanks rest).isEmpty then .ok v else .error .malformedJson

end RepoScan.Json
