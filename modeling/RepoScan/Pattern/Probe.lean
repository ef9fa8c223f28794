import RepoScan.Pattern.Search

/-!
# Probes

A body of two million characters is searched for every rule at every position, and at almost all of
them the pattern cannot even begin.  A `Probe` is a pattern with a table of the ASCII characters
that a match can begin with and, where they are few, a list of the others.  The search consults them
before it tries the pattern.

`Probe.occursIn_eq` says that nothing is lost by that.
-/

namespace RepoScan

namespace Pattern

/-- The pattern may match the empty text. -/
def nullable : Pattern → Bool
  | empty | edge | start | stop => true
  | char _ | letter _ | one _ => false
  | run _ least _ => least == 0
  | seq p q => p.nullable && q.nullable
  | alt p q => p.nullable || q.nullable

/-- A match may begin with the character. -/
def takes : Pattern → CodePoint → Bool
  | empty, _ | edge, _ | start, _ | stop, _ => false
  | char d, c => c == d
  | letter d, c => foldCase c == d
  | one s, c => s c
  | run s _ _, c => s c
  | seq p q, c => p.takes c || (p.nullable && q.takes c)
  | alt p q, c => p.takes c || q.takes c

theorem nullable_of_spans_nil (p : Pattern) (before : Option CodePoint) (after : Text)
    (h : p.Spans before [] after) : p.nullable = true := by
  induction p generalizing before after with
  | empty | edge | start | stop => rfl
  | char d => simp [Spans] at h
  | letter d => simp [Spans] at h
  | one s => simp [Spans] at h
  | run s least most =>
    obtain ⟨_, hl, _⟩ := h
    simpa [nullable] using hl
  | seq p q ihp ihq =>
    obtain ⟨u, v, hw, hu, hv⟩ := h
    obtain ⟨rfl, rfl⟩ := List.append_eq_nil_iff.1 hw.symm
    simp [nullable, ihp _ _ hu, ihq _ _ hv]
  | alt p q ihp ihq =>
    rcases h with h | h
    · simp [nullable, ihp _ _ h]
    · simp [nullable, ihq _ _ h]

theorem takes_of_spans_cons (p : Pattern) (before : Option CodePoint) (c : CodePoint)
    (w after : Text) (h : p.Spans before (c :: w) after) : p.takes c = true := by
  induction p generalizing before c w after with
  | empty => simp [Spans] at h
  | edge | start | stop => simp [Spans] at h
  | char d =>
    obtain ⟨rfl, _⟩ : c = d ∧ w = [] := by simpa [Spans] using h
    simp [takes]
  | letter e =>
    obtain ⟨d, hd, hs⟩ := h
    obtain ⟨rfl, _⟩ : c = d ∧ w = [] := by simpa using hd
    simpa [takes] using hs
  | one s =>
    obtain ⟨d, hd, hs⟩ := h
    obtain ⟨rfl, _⟩ : c = d ∧ w = [] := by simpa using hd
    exact hs
  | run s least most => exact h.1 c (by simp)
  | seq p q ihp ihq =>
    obtain ⟨u, v, hw, hu, hv⟩ := h
    cases u with
    | nil =>
      obtain rfl : c :: w = v := hw
      simp [takes, nullable_of_spans_nil p _ _ hu, ihq _ _ _ _ hv]
    | cons d u =>
      obtain ⟨rfl, _⟩ : c = d ∧ w = u ++ v := by simpa using hw
      simp [takes, ihp _ _ _ _ hu]
  | alt p q ihp ihq =>
    rcases h with h | h
    · simp [takes, ihp _ _ _ _ h]
    · simp [takes, ihq _ _ _ _ h]

/-- A match may begin in front of the character. -/
def mayStart (p : Pattern) (c : CodePoint) : Bool := p.nullable || p.takes c

theorem mayStart_of_spans_cons {p : Pattern} {before : Option CodePoint} {c : CodePoint}
    {w v after : Text} (hw : w ++ v = c :: after) (h : p.Spans before w v) : p.mayStart c = true := by
  cases w with
  | nil => simp [mayStart, nullable_of_spans_nil p _ _ h]
  | cons d w =>
    obtain ⟨rfl, _⟩ : d = c ∧ w ++ v = after := by simpa using hw
    simp [mayStart, takes_of_spans_cons p _ _ _ _ h]

/-- The characters beyond ASCII that count as the letter `d` where case is ignored. -/
def wideForms (d : CodePoint) : List CodePoint :=
  [d, CodePoint.ofNat 0x17F, CodePoint.ofNat 0x212A, CodePoint.ofNat 0x130,
    CodePoint.ofNat 0x131].filter fun c => !c.isAscii && foldCase c == d

/-- The characters beyond ASCII that a match may begin with, where a short list of them is known. -/
def wideFirsts? : Pattern → Option (List CodePoint)
  | empty | edge | start | stop => some []
  | char d => some (if d.isAscii then [] else [d])
  | letter d => some (wideForms d)
  | one _ | run _ _ _ => none
  | seq p q =>
    if p.nullable then do
      let a ← p.wideFirsts?
      let b ← q.wideFirsts?
      some (a ++ b)
    else p.wideFirsts?
  | alt p q => do
    let a ← p.wideFirsts?
    let b ← q.wideFirsts?
    some (a ++ b)

theorem mem_wideForms {c : CodePoint} (h : c.isAscii = false) : c ∈ wideForms (foldCase c) := by
  have hu : c.isAsciiUpper = false := by
    simp only [CodePoint.isAscii, decide_eq_false_iff_not] at h
    simp [CodePoint.isAsciiUpper, CodePoint.between]
    omega
  simp only [wideForms, List.mem_filter, h, Bool.not_false, Bool.true_and, beq_self_eq_true, and_true]
  unfold foldCase
  simp only [hu, h, Bool.false_eq_true, if_false]
  have key (n : Nat) (hn : c.val = n) : c = CodePoint.ofNat n := by
    subst hn
    simp [CodePoint.ofNat, c.lt]
  split
  · next h1 => simp [key _ h1]
  · split
    · next h2 => simp [key _ h2]
    · split
      · next h3 =>
        rcases (by simpa using h3 : c.val = 0x130 ∨ c.val = 0x131) with h3 | h3 <;> simp [key _ h3]
      · simp

theorem mem_wideFirsts {p : Pattern} {l : List CodePoint} (hp : p.wideFirsts? = some l)
    {c : CodePoint} (hc : c.isAscii = false) (ht : p.takes c = true) : c ∈ l := by
  induction p generalizing l with
  | empty | edge | start | stop => simp [takes] at ht
  | char d =>
    obtain rfl : c = d := by simpa [takes] using ht
    obtain rfl : [c] = l := by simpa [wideFirsts?, hc] using hp
    simp
  | letter d =>
    obtain rfl : foldCase c = d := by simpa [takes] using ht
    obtain rfl : wideForms (foldCase c) = l := by simpa [wideFirsts?] using hp
    exact mem_wideForms hc
  | one s => simp [wideFirsts?] at hp
  | run s least most => simp [wideFirsts?] at hp
  | seq p q ihp ihq =>
    simp only [wideFirsts?] at hp
    simp only [takes, Bool.or_eq_true, Bool.and_eq_true] at ht
    split at hp
    · simp only [Option.bind_eq_bind, Option.bind_eq_some_iff, Option.some.injEq] at hp
      obtain ⟨a, ha, b, hb, rfl⟩ := hp
      rcases ht with ht | ⟨_, ht⟩
      · exact List.mem_append_left _ (ihp ha ht)
      · exact List.mem_append_right _ (ihq hb ht)
    · next hn =>
      rcases ht with ht | ⟨hn', _⟩
      · exact ihp hp ht
      · exact absurd hn' hn
  | alt p q ihp ihq =>
    simp only [wideFirsts?, Option.bind_eq_bind, Option.bind_eq_some_iff, Option.some.injEq] at hp
    obtain ⟨a, ha, b, hb, rfl⟩ := hp
    simp only [takes, Bool.or_eq_true] at ht
    rcases ht with ht | ht
    · exact List.mem_append_left _ (ihp ha ht)
    · exact List.mem_append_right _ (ihq hb ht)

/-- For each ASCII character, whether a match may begin in front of it. -/
def firstTable (p : Pattern) : Array Bool :=
  Array.ofFn fun i : Fin 128 => p.mayStart (CodePoint.ofNat i.val)

end Pattern

/-- A pattern with what its matches may begin with. -/
structure Probe where
  pattern : Pattern
  /-- For each ASCII character, whether a match may begin in front of it. -/
  table : Array Bool
  /-- The other characters that a match may begin with, where they are few. -/
  wide : Option (List CodePoint)
  /-- The table is that of the pattern. -/
  table_eq : table = pattern.firstTable
  /-- The list is complete, and there is none where the pattern may match the empty text. -/
  wide_eq : wide = if pattern.nullable then none else pattern.wideFirsts?

namespace Probe

/-- The probe for a pattern. -/
def of (p : Pattern) : Probe :=
  ⟨p, p.firstTable, if p.nullable then none else p.wideFirsts?, rfl, rfl⟩

instance : Coe Pattern Probe := ⟨of⟩

/-- A match may begin in front of the character. -/
def mayStart (q : Probe) (c : CodePoint) : Bool :=
  if h : c.val < q.table.size then q.table[c.val]
  else match q.wide with
    | some l => l.contains c
    | none => true

/-- Adds to `found` the places of the text in front of which a match may begin.  `i` characters
stand before the text. -/
def startsFrom (q : Probe) (i : Nat) : Text → (found : Pattern.Places) → Pattern.Places
  | [], found => if q.pattern.nullable then (i :: found).reverse else found.reverse
  | c :: t, found => startsFrom q (i + 1) t (if q.mayStart c then i :: found else found)

/-- The pattern occurs in the text. -/
def occursIn (q : Probe) (t : Text) : Bool :=
  match q.startsFrom 0 t [] with
  | [] => false
  | l => !(q.pattern.ends t.toArray l).isEmpty

theorem mayStart_of_mayStart (q : Probe) (c : CodePoint) (h : q.pattern.mayStart c = true) :
    q.mayStart c = true := by
  obtain ⟨p, table, wide, ht, hw⟩ := q
  subst ht
  have h : p.mayStart c = true := h
  by_cases hc : c.val < p.firstTable.size
  · have hn : CodePoint.ofNat c.val = c := by simp [CodePoint.ofNat, c.lt]
    have hv : c.val < 128 := by simpa [Pattern.firstTable] using hc
    simpa [mayStart, Pattern.firstTable, hn, hv] using h
  · have ha : c.isAscii = false := by simpa [Pattern.firstTable, CodePoint.isAscii] using hc
    simp only [mayStart, hc, dite_false]
    cases wide with
    | none => rfl
    | some l =>
      by_cases hn : p.nullable = true
      · simp [hn] at hw
      · simp only [hn] at hw
        simp only [Pattern.mayStart, Bool.or_eq_true] at h
        simpa using Pattern.mem_wideFirsts hw.symm ha (h.resolve_left hn)

theorem mem_startsFrom {q : Probe} {t : Text} {i j : Nat} {found : Pattern.Places} :
    j ∈ q.startsFrom i t found ↔
      j ∈ found ∨ (∃ n c, j = i + n ∧ t[n]? = some c ∧ q.mayStart c = true) ∨
        j = i + t.length ∧ q.pattern.nullable = true := by
  induction t generalizing i found with
  | nil =>
    simp only [startsFrom]
    split <;> simp_all [or_comm]
  | cons c t ih =>
    simp only [startsFrom, ih]
    constructor
    · rintro (h | ⟨n, d, rfl, hd, hm⟩ | ⟨rfl, hn⟩)
      · split at h
        · next hc =>
          rcases List.mem_cons.1 h with rfl | h
          · exact .inr (.inl ⟨0, c, rfl, rfl, hc⟩)
          · exact .inl h
        · exact .inl h
      · exact .inr (.inl ⟨n + 1, d, by omega, hd, hm⟩)
      · exact .inr (.inr ⟨by simp only [List.length_cons]; omega, hn⟩)
    · rintro (h | ⟨n, d, rfl, hd, hm⟩ | ⟨rfl, hn⟩)
      · split
        · exact .inl (List.mem_cons_of_mem _ h)
        · exact .inl h
      · cases n with
        | zero =>
          obtain rfl : c = d := by simpa using hd
          exact .inl (by simp [hm])
        | succ n => exact .inr (.inl ⟨n, d, by omega, hd, hm⟩)
      · exact .inr (.inr ⟨by simp only [List.length_cons]; omega, hn⟩)

theorem mem_startsFrom_of_joins {q : Probe} {t : Text} {i j : Nat} (hi : i ≤ t.length)
    (h : q.pattern.Joins t.toArray i j) : i ∈ q.startsFrom 0 t [] := by
  obtain ⟨w, v, hd, _, hs⟩ := h
  simp only [mem_startsFrom, List.not_mem_nil, false_or, Nat.zero_add]
  rcases Nat.lt_or_eq_of_le hi with hi | rfl
  · refine .inl ⟨i, t[i], rfl, List.getElem?_eq_getElem hi, ?_⟩
    rw [List.drop_eq_getElem_cons (by simpa using hi)] at hd
    exact q.mayStart_of_mayStart _ (Pattern.mayStart_of_spans_cons hd.symm hs)
  · obtain ⟨rfl, rfl⟩ := List.append_eq_nil_iff.1 (by simpa using hd.symm)
    exact .inr ⟨rfl, Pattern.nullable_of_spans_nil _ _ _ hs⟩

theorem le_length_of_mem_startsFrom {q : Probe} {t : Text} {i : Nat}
    (h : i ∈ q.startsFrom 0 t []) : i ≤ t.length := by
  simp only [mem_startsFrom, List.not_mem_nil, false_or, Nat.zero_add] at h
  rcases h with ⟨n, c, rfl, hc, _⟩ | ⟨rfl, _⟩
  · exact Nat.le_of_lt (List.getElem?_eq_some_iff.1 hc).1
  · exact Nat.le_refl _

/-- **Probing loses nothing**: the search with the table answers as the search without it. -/
theorem occursIn_eq (q : Probe) (t : Text) : q.occursIn t = q.pattern.occursIn t := by
  have h : q.occursIn t = !(q.pattern.ends t.toArray (q.startsFrom 0 t [])).isEmpty := by
    unfold occursIn
    split
    · next h => simp [h, (Pattern.ends_eq_nil_iff (l := [])).2 (by simp)]
    · rfl
  rw [h, Bool.eq_iff_iff, Pattern.occursIn_iff, Pattern.occurs_iff_joins, Bool.not_eq_true',
    ← Bool.not_eq_true, List.isEmpty_iff, Pattern.ends_eq_nil_iff]
  simp only [Classical.not_forall, Classical.not_not]
  constructor
  · rintro ⟨i, hi, j, h⟩
    exact ⟨i, j, le_length_of_mem_startsFrom hi, h⟩
  · rintro ⟨i, j, hi, h⟩
    exact ⟨i, mem_startsFrom_of_joins hi h, j, h⟩

end Probe

end RepoScan
