import RepoScan.Value

/-!
# The order of members

A set of a document has no order of its own.  Its members are listed by their places in a table
whose size is a power of two: each member, in the order of the document, takes the first free one of
the places that its residue leads to, and the table is then read from its start.

Only numbers have a residue.  A set with any other member is listed as the document has it.
-/

namespace RepoScan.Value

/-- The prime that residues of numbers are taken by. -/
def residuePrime : Nat := Nat.pow 2 61 - 1

/-- A residue with a sign; minus one is left out. -/
def signed (negative : Bool) (n : Nat) : Int :=
  if negative then if n = 1 then -2 else -(n : Int) else n

/-- The residue of a number: equal numbers have the same one.  Since two to the power of 61 leaves
one, a power of two can be taken with the rest of its exponent. -/
def residue? : Value → Option Int
  | bool b => some (if b then 1 else 0)
  | int i => some (signed (i < 0) (i.natAbs % residuePrime))
  | real (.infinite negative) => some (if negative then -314159 else 314159)
  | real (.finite negative m e) =>
    some (signed negative (m * Nat.pow 2 (e % 61).toNat % residuePrime))
  | _ => none

/-- The last place of the table for `n` members: the table has eight places or more, and more than
twice as many as members from five members on. -/
def lastPlace (n : Nat) : Nat := if n < 5 then 7 else Nat.pow 2 (2 * n).log2 * 2 - 1

/-- How many places after the first one are tried before a jump. -/
def probes : Nat := 9

/-- The places from `i` on that are tried before a jump; near the end of the table only `i`. -/
def run (last i : Nat) : List Nat :=
  if i + probes ≤ last then (List.range (probes + 1)).map (i + ·) else [i]

/-- The free place that a member takes which is at place `i`; `rest` is what is left of its residue.
`fuel` bounds the number of jumps. -/
def placeFrom (last : Nat) (taken : List Nat) : (fuel rest i : Nat) → Nat
  | 0, _, i => i
  | fuel + 1, rest, i =>
    match (run last i).find? fun p => !taken.contains p with
    | some p => p
    | none =>
      let rest := rest / 32
      placeFrom last taken fuel rest ((i * 5 + 1 + rest) % (last + 1))

/-- The free place that a member with a residue takes. -/
def placeOf (last : Nat) (taken : List Nat) (residue : Int) : Nat :=
  let h := (residue % Int.ofNat (Nat.pow 2 64)).toNat
  placeFrom last taken (last + 16) h (h % (last + 1))

/-- The places of members with the given residues, one after the other; those of the members before
are `taken`. -/
def placesFrom (last : Nat) : (taken : List Nat) → (residues : List Int) → List Nat
  | _, [] => []
  | taken, r :: rs =>
    let p := placeOf last taken r
    p :: placesFrom last (p :: taken) rs

/-- The members of a set, given with their values, in the order in which they are listed. -/
def listed {α : Type} (members : List (α × Value)) : List α :=
  match members.mapM fun m => m.2.residue? with
  | none => members.map (·.1)
  | some residues =>
    let places := placesFrom (lastPlace members.length) [] residues
    ((members.zip places).mergeSort fun a b => a.2 ≤ b.2).map (·.1.1)

end RepoScan.Value
