import RepoScan.Pattern.Basic

/-!
# Path patterns

The patterns of ignore rules match whole paths.  A star stands for any text, slashes included, a
question mark for any character, and brackets for one character of a set, or outside it where the
set begins with an exclamation mark.  A bracket that is not closed stands for itself, and so does
everything else.

A hyphen between two characters of a set makes a range.  A range whose end lies before its start is
empty, and its two ends are no members.

`Glob.parse` reads a pattern as a list of items, `Glob.Fits` says which texts the items make up, and
`Glob.fit` decides it (`fit_eq_whole_iff`) in a number of steps bounded by the product of both lengths.
-/

namespace RepoScan.Glob

/-- Any character. -/
def anyChar : CharClass := fun _ => true

/-! ### Sets -/

/-- The pieces of a set between the hyphens that make ranges.  A hyphen that stands first, last or
right after the end of a range is a member; `wait` characters cannot be such a hyphen. -/
def chunks (wait : Nat) : Text → (current : Text) → List Text
  | [], current => [current.reverse]
  | c :: t, current =>
    match wait with
    | n + 1 => chunks n t (c :: current)
    | 0 =>
      if c = '-' then
        if t.isEmpty then [(c :: current).reverse] else current.reverse :: chunks 2 t []
      else chunks 0 t (c :: current)

/-- The pieces without the ends of empty ranges: two pieces around such a range become one. -/
def dropEmptyRanges : List Text → List Text
  | [] => []
  | p :: ps =>
    match dropEmptyRanges ps with
    | [] => [p]
    | q :: qs =>
      match p.getLast?, q.head? with
      | some a, some b => if b < a then (p.dropLast ++ q.drop 1) :: qs else p :: q :: qs
      | _, _ => p :: q :: qs

/-- Membership in the set with the given pieces. -/
def memberOf : List Text → CharClass
  | [], _ => false
  | [p], c => p.contains c
  | p :: q :: ps, c =>
    p.contains c
      || (match p.getLast?, q.head? with
        | some a, some b => a.val ≤ c.val && c.val ≤ b.val
        | _, _ => c == '-')
      || memberOf (q :: ps) c

/-- The set between two brackets. -/
def setOf (inside : Text) : CharClass :=
  let first := if inside.head? = some ('!' : CodePoint) then 2 else 1
  match dropEmptyRanges (chunks first inside []) with
  | [] => fun _ => false
  | [] :: ps => if ps.isEmpty then fun _ => false else memberOf ([] :: ps)
  | (c :: rest) :: ps =>
    if c = '!' then
      if rest.isEmpty && ps.isEmpty then anyChar else fun d => !memberOf (rest :: ps) d
    else memberOf ((c :: rest) :: ps)

/-- The inside of the set whose opening bracket has just been read, and what follows it.  A closing
bracket that stands first in the set is a member. -/
def takeSet? (t : Text) : Option (Text × Text) :=
  let sign := (t.take 1).filter fun c : CodePoint => c == '!'
  let t' := t.drop sign.length
  let first := (t'.take 1).filter fun c : CodePoint => c == ']'
  let t' := t'.drop first.length
  let body := t'.takeWhile fun c : CodePoint => c != ']'
  match t'.drop body.length with
  | [] => none
  | _ :: rest => some (sign ++ first ++ body, rest)

/-! ### Items -/

/-- A piece of a pattern. -/
inductive Item where
  /-- Any text. -/
  | star
  /-- One character of a class. -/
  | one (s : CharClass)

/-- The items that a text spells.  `fuel` is at least the length of the text. -/
def parseFrom : (fuel : Nat) → Text → List Item
  | 0, _ => []
  | _, [] => []
  | fuel + 1, c :: t =>
    if c = '*' then .star :: parseFrom fuel (t.dropWhile fun d => d == c)
    else if c = '?' then .one anyChar :: parseFrom fuel t
    else if c = '[' then
      match takeSet? t with
      | some (inside, rest) => .one (setOf inside) :: parseFrom fuel rest
      | none => .one (· == c) :: parseFrom fuel t
    else .one (· == c) :: parseFrom fuel t

/-- The items that a text spells. -/
def parse (t : Text) : List Item := parseFrom t.length t

/-! ### Matching -/

/-- The items make up the text. -/
def Fits : List Item → Text → Prop
  | [], t => t = []
  | .one s :: is, t => ∃ c u, t = c :: u ∧ s c = true ∧ Fits is u
  | .star :: is, t => ∃ u v, t = u ++ v ∧ Fits is v

/-- How items meet a text. -/
inductive Fit where
  /-- They make up the text. -/
  | whole
  /-- They do not make up the text. -/
  | no
  /-- They make up neither the text nor what is left of it after any number of characters. -/
  | short
deriving DecidableEq

/-- How items meet what is left of a text after some characters, given how they meet each text.
The fewest characters are tried first. -/
def seek (f : Text → Fit) : Text → Fit
  | [] => f []
  | c :: t =>
    match f (c :: t) with
    | .no => seek f t
    | r => r

/-- How items meet a text. -/
def fit : List Item → Text → Fit
  | [], [] => .whole
  | [], _ :: _ => .no
  | .one _ :: _, [] => .short
  | .one s :: is, c :: t => if s c then fit is t else .no
  | .star :: is, t => seek (fit is) t

/-! ### Matching is exact -/

/-- What `fit` means for items: that it finds all fits, and that where it says `short` no end of the
text fits. -/
def IsExact (is : List Item) : Prop :=
  ∀ t, (fit is t = .whole ↔ Fits is t) ∧ (fit is t = .short → ∀ u v, t = u ++ v → ¬ Fits is v)

theorem isExact_nil : IsExact [] := by
  intro t
  cases t <;> simp [fit, Fits]

theorem isExact_one (s : CharClass) {is : List Item} (h : IsExact is) : IsExact (.one s :: is) := by
  rintro (_ | ⟨c, t⟩)
  · simp only [fit, Fits]
    refine ⟨⟨by simp, by simp⟩, ?_⟩
    rintro - u v huv ⟨c, w, rfl, -⟩
    simp at huv
  · by_cases hc : s c = true
    · simp only [fit, hc, if_true]
      refine ⟨⟨fun hw => ⟨c, t, rfl, hc, (h t).1.1 hw⟩, ?_⟩, ?_⟩
      · rintro ⟨d, u, hdu, -, hu⟩
        obtain ⟨-, rfl⟩ := List.cons.inj hdu
        exact (h t).1.2 hu
      · rintro hs u v huv ⟨d, w, rfl, -, hw⟩
        cases u with
        | nil =>
          obtain ⟨-, rfl⟩ := List.cons.inj huv
          exact (h t).2 hs [] t rfl hw
        | cons e u =>
          obtain ⟨-, rfl⟩ := List.cons.inj huv
          exact (h _).2 hs (u ++ [d]) w (by simp) hw
    · have hc' : s c = false := by simpa using hc
      simp only [fit, hc']
      refine ⟨⟨by simp, ?_⟩, by simp⟩
      rintro ⟨d, u, hdu, hd, -⟩
      obtain ⟨rfl, -⟩ := List.cons.inj hdu
      exact absurd hd hc

theorem isExact_star {is : List Item} (h : IsExact is) : IsExact (.star :: is) := by
  intro t
  simp only [fit]
  induction t with
  | nil =>
    simp only [seek]
    refine ⟨⟨fun hw => ⟨[], [], rfl, (h []).1.1 hw⟩, ?_⟩, ?_⟩
    · rintro ⟨u, v, huv, hv⟩
      obtain ⟨rfl, rfl⟩ := List.append_eq_nil_iff.1 huv.symm
      exact (h []).1.2 hv
    · rintro hs u v huv ⟨u', v', rfl, hv⟩
      exact (h []).2 hs (u ++ u') v' (by simpa using huv) hv
  | cons c t ih =>
    rw [seek]
    cases hf : fit is (c :: t) with
    | whole =>
      exact ⟨⟨fun _ => ⟨[], c :: t, rfl, (h _).1.1 hf⟩, fun _ => rfl⟩, by simp⟩
    | short =>
      refine ⟨⟨by simp, ?_⟩, ?_⟩
      · rintro ⟨u, v, huv, hv⟩
        exact absurd hv ((h _).2 hf u v huv)
      · rintro - u v huv ⟨u', v', rfl, hv⟩
        exact (h _).2 hf (u ++ u') v' (by simpa using huv) hv
    | no =>
      have hno : ¬ Fits is (c :: t) := fun hv => by
        rw [(h _).1.2 hv] at hf
        cases hf
      refine ⟨⟨fun hw => ?_, ?_⟩, ?_⟩
      · obtain ⟨u, v, rfl, hv⟩ := ih.1.1 hw
        exact ⟨c :: u, v, rfl, hv⟩
      · rintro ⟨u, v, huv, hv⟩
        cases u with
        | nil => exact absurd (show Fits is (c :: t) by rw [huv]; exact hv) hno
        | cons d u =>
          obtain ⟨-, rfl⟩ := List.cons.inj huv
          exact ih.1.2 ⟨u, v, rfl, hv⟩
      · rintro hs u v huv ⟨u', v', rfl, hv⟩
        cases u with
        | nil =>
          cases u' with
          | nil => exact hno (show Fits is (c :: t) by rw [huv]; exact hv)
          | cons d u' =>
            obtain ⟨-, rfl⟩ := List.cons.inj huv
            exact ih.2 hs u' v' rfl ⟨[], v', rfl, hv⟩
        | cons d u =>
          obtain ⟨-, rfl⟩ := List.cons.inj huv
          exact ih.2 hs u (u' ++ v') rfl ⟨u', v', rfl, hv⟩

theorem isExact (is : List Item) : IsExact is := by
  induction is with
  | nil => exact isExact_nil
  | cons i is ih =>
    cases i with
    | star => exact isExact_star ih
    | one s => exact isExact_one s ih

/-- **Matching**: the items meet the whole text where they make it up. -/
theorem fit_eq_whole_iff (is : List Item) (t : Text) : fit is t = .whole ↔ Fits is t :=
  (isExact is t).1

/-- The path pattern matches the whole path. -/
def covers (glob path : Text) : Bool := fit (parse glob) path = .whole

end RepoScan.Glob
