import RepoScan.Pattern.Basic

/-!
# Searching for a pattern

A place in a text is a number of characters passed.  `Pattern.ends` takes all the places where a
match may begin and gives the places where the matches that begin there end.  Each part of a
pattern hands its places on to the next, so the time grows with the text and not with its square,
however often a match almost succeeds.

`mem_ends` says that the places found are the ends of the matches of `Pattern.Spans`, and
`occursIn_iff` follows from it: `Pattern.occursIn` decides `Pattern.Occurs`.
-/

namespace RepoScan.Pattern

/-- Places in a text. -/
abbrev Places := List Nat

/-- The character in front of a place. -/
def beforeAt (t : Array CodePoint) : Nat → Option CodePoint
  | 0 => none
  | i + 1 => t[i]?

/-- A character of the class is at the place. -/
def isAt (t : Array CodePoint) (s : CharClass) (i : Nat) : Bool :=
  match t[i]? with
  | some c => s c
  | none => false

/-- The place after a character of the class. -/
def pass (t : Array CodePoint) (s : CharClass) (i : Nat) : Option Nat :=
  if isAt t s i then some (i + 1) else none

/-- The places after `n` characters of the class. -/
def passMany (t : Array CodePoint) (s : CharClass) : Nat → Places → Places
  | 0, l => l
  | n + 1, l => passMany t s n (l.filterMap (pass t s))

/-- Adds to `found` the place `i` and those that a run of the class leads to from there, over `left`
characters at most where that is given, and not up to the place `halt`.  Of the text, `n`
characters are left. -/
def walk (t : Array CodePoint) (s : CharClass) (halt : Option Nat) :
    (n i : Nat) → (left : Option Nat) → (found : Places) → Places
  | 0, i, _, found => i :: found
  | n + 1, i, left, found =>
    if left != some 0 && halt != some (i + 1) && isAt t s i then
      walk t s halt n (i + 1) (left.map (· - 1)) (i :: found)
    else i :: found

/-- Adds to `found` the places that runs of the class, of at most `most` characters where that is
given, lead to.  A run ends where the next one begins, which has as far to go. -/
def walkAll (t : Array CodePoint) (s : CharClass) (most : Option Nat) :
    Places → (found : Places) → Places
  | [], found => found.reverse
  | i :: l, found => walkAll t s most l (walk t s l.head? (t.size - i) i most found)

/-- The places where the matches that begin at the given places end. -/
def ends (t : Array CodePoint) : Pattern → Places → Places
  | empty, l => l
  | char d, l => l.filterMap (pass t (· == d))
  | letter d, l => l.filterMap (pass t (foldCase · == d))
  | one s, l => l.filterMap (pass t s)
  | run s least most, l =>
    if most.all (least ≤ ·) then walkAll t s (most.map (· - least)) (passMany t s least l) []
    else []
  | seq p q, l =>
    match ends t p l with
    | [] => []
    | l' => ends t q l'
  | alt p q, l => ends t p l ++ ends t q l
  | edge, l => l.filter fun i => isWordAt (beforeAt t i) != isWordAt t[i]?
  | start, l => l.filter fun i => (beforeAt t i).isNone
  | stop, l => l.filter fun i => t.size ≤ i || (i + 1 == t.size && t[i]? == some '\n')

/-- The pattern occurs in the text. -/
def occursIn (p : Pattern) (t : Text) : Bool :=
  !(p.ends t.toArray (List.range (t.length + 1))).isEmpty

/-! ### The search is exact -/

@[simp] theorem lastOf_cons (b : Option CodePoint) (c : CodePoint) (w : Text) :
    lastOf b (c :: w) = lastOf (some c) w := by
  simp only [lastOf, List.getLast?_cons]
  cases w.getLast? <;> rfl

/-- A match of the pattern leads from the place `i` to the place `j`. -/
def Joins (t : Array CodePoint) (p : Pattern) (i j : Nat) : Prop :=
  ∃ w v, t.toList.drop i = w ++ v ∧ j = i + w.length ∧ p.Spans (beforeAt t i) w v

theorem drop_eq_cons_iff {t : Array CodePoint} {i : Nat} {c : CodePoint} {v : Text} :
    t.toList.drop i = c :: v ↔ t[i]? = some c ∧ t.toList.drop (i + 1) = v := by
  rw [← Array.getElem?_toList]
  constructor
  · intro h
    have hi : i < t.toList.length := by
      have := congrArg List.length h
      simp only [List.length_drop, List.length_cons] at this
      omega
    rw [List.drop_eq_getElem_cons hi] at h
    injection h with hc hv
    exact ⟨by simp [List.getElem?_eq_getElem hi, hc], hv⟩
  · rintro ⟨hc, rfl⟩
    obtain ⟨hi, rfl⟩ := List.getElem?_eq_some_iff.1 hc
    exact List.drop_eq_getElem_cons hi

theorem drop_add {t : Array CodePoint} {i : Nat} {w v : Text} (h : t.toList.drop i = w ++ v) :
    t.toList.drop (i + w.length) = v := by
  rw [← List.drop_drop, h, List.drop_left]

theorem lastOf_beforeAt {t : Array CodePoint} {i : Nat} {w v : Text}
    (h : t.toList.drop i = w ++ v) : lastOf (beforeAt t i) w = beforeAt t (i + w.length) := by
  induction w generalizing i with
  | nil => rfl
  | cons c w ih =>
    obtain ⟨hc, hv⟩ := drop_eq_cons_iff.1 h
    have hb : beforeAt t (i + 1) = some c := hc
    rw [lastOf_cons, ← hb, ih hv, List.length_cons, Nat.add_assoc, Nat.add_comm 1]

theorem head?_drop (t : Array CodePoint) (i : Nat) : (t.toList.drop i).head? = t[i]? := by
  rw [List.head?_drop, Array.getElem?_toList]

theorem isAt_iff {t : Array CodePoint} {s : CharClass} {i : Nat} :
    isAt t s i = true ↔ ∃ c, t[i]? = some c ∧ s c = true := by
  unfold isAt
  cases t[i]? <;> simp

theorem mem_filterMap_pass {t : Array CodePoint} {s : CharClass} {l : Places} {j : Nat} :
    j ∈ l.filterMap (pass t s) ↔ ∃ i ∈ l, isAt t s i = true ∧ j = i + 1 := by
  simp only [List.mem_filterMap, pass]
  refine exists_congr fun i => and_congr_right fun _ => ?_
  cases isAt t s i <;> simp [eq_comm]

/-- All characters from the place `i` on and before the place `j` are of the class. -/
def Clear (t : Array CodePoint) (s : CharClass) (i j : Nat) : Prop :=
  i ≤ j ∧ ∀ m, i ≤ m → m < j → isAt t s m = true

theorem clear_self (t : Array CodePoint) (s : CharClass) (i : Nat) : Clear t s i i :=
  ⟨Nat.le_refl i, fun m _ _ => by omega⟩

theorem clear_iff {t : Array CodePoint} {s : CharClass} {i j : Nat} :
    Clear t s i j ↔
      ∃ w v, t.toList.drop i = w ++ v ∧ j = i + w.length ∧ ∀ c ∈ w, s c = true := by
  constructor
  · rintro ⟨hij, h⟩
    obtain ⟨n, rfl⟩ := Nat.exists_eq_add_of_le hij
    clear hij
    induction n generalizing i with
    | zero => exact ⟨[], t.toList.drop i, rfl, rfl, by simp⟩
    | succ n ih =>
      obtain ⟨c, hc, hs⟩ := isAt_iff.1 (h i (by omega) (by omega))
      obtain ⟨w, v, hd, hw, hall⟩ :=
        ih (i := i + 1) fun m h1 h2 => h m (by omega) (by omega)
      refine ⟨c :: w, v, drop_eq_cons_iff.2 ⟨hc, hd⟩, ?_, ?_⟩
      · simp only [List.length_cons]; omega
      · simpa [hs] using hall
  · rintro ⟨w, v, hd, rfl, hall⟩
    refine ⟨by omega, ?_⟩
    induction w generalizing i with
    | nil => intro m h1 h2; simp only [List.length_nil] at h2; omega
    | cons c w ih =>
      obtain ⟨hc, hv⟩ := drop_eq_cons_iff.1 hd
      intro m h1 h2
      simp only [List.length_cons] at h2
      by_cases hm : m = i
      · exact hm ▸ isAt_iff.2 ⟨c, hc, hall c (by simp)⟩
      · exact ih hv (fun d hd => hall d (by simp [hd])) m (by omega) (by omega)

theorem joins_run_iff {t : Array CodePoint} {s : CharClass} {least : Nat} {most : Option Nat}
    {i j : Nat} :
    (run s least most).Joins t i j ↔ Clear t s i j ∧ i + least ≤ j ∧ ∀ n ∈ most, j ≤ i + n := by
  simp only [Joins, Spans, clear_iff]
  constructor
  · rintro ⟨w, v, hd, rfl, hs, hl, hm⟩
    exact ⟨⟨w, v, hd, rfl, hs⟩, by omega, fun n hn => Nat.add_le_add_left (hm n hn) i⟩
  · rintro ⟨⟨w, v, hd, rfl, hs⟩, hl, hm⟩
    exact ⟨w, v, hd, rfl, hs, by omega, fun n hn => Nat.le_of_add_le_add_left (hm n hn)⟩

theorem mem_passMany {t : Array CodePoint} {s : CharClass} {n : Nat} {l : Places} {j : Nat} :
    j ∈ passMany t s n l ↔ ∃ i ∈ l, Clear t s i j ∧ j = i + n := by
  induction n generalizing l with
  | zero =>
    simp only [passMany, Nat.add_zero]
    constructor
    · exact fun h => ⟨j, h, clear_self t s j, rfl⟩
    · rintro ⟨i, hi, _, rfl⟩
      exact hi
  | succ n ih =>
    simp only [passMany, ih, mem_filterMap_pass]
    constructor
    · rintro ⟨_, ⟨i, hi, hs, rfl⟩, ⟨_, hc⟩, rfl⟩
      refine ⟨i, hi, ⟨by omega, fun m h1 h2 => ?_⟩, by omega⟩
      by_cases hm : m = i
      · exact hm ▸ hs
      · exact hc m (by omega) h2
    · rintro ⟨i, hi, ⟨_, hc⟩, rfl⟩
      exact ⟨i + 1, ⟨i, hi, hc i (by omega) (by omega), rfl⟩,
        ⟨by omega, fun m h1 h2 => hc m (by omega) h2⟩, by omega⟩

/-- A run of the class leads from the place `i` to the place `j`, over `left` characters at most
where that is given, and not up to the place `halt`. -/
def Leads (t : Array CodePoint) (s : CharClass) (halt left : Option Nat) (i j : Nat) : Prop :=
  Clear t s i j ∧ (∀ m ∈ left, j ≤ i + m) ∧ ∀ e ∈ halt, i < e → j < e

section Leads

variable {t : Array CodePoint} {s : CharClass} {halt left : Option Nat} {i j : Nat}

theorem leads_self : Leads t s halt left i i :=
  ⟨clear_self t s i, fun _ _ => by omega, fun _ _ h => h⟩

theorem leads_iff_of_stopped (h : ¬ (left ≠ some 0 ∧ halt ≠ some (i + 1) ∧ isAt t s i = true)) :
    Leads t s halt left i j ↔ j = i := by
  constructor
  · rintro ⟨⟨hij, hc⟩, hm, he⟩
    refine Nat.le_antisymm (Nat.le_of_not_lt fun hlt => h ⟨?_, ?_, hc i (by omega) hlt⟩) hij
    · rintro rfl
      have := hm 0 rfl
      omega
    · rintro rfl
      have := he (i + 1) rfl (by omega)
      omega
  · rintro rfl
    exact leads_self

theorem leads_iff_of_goes (hl : left ≠ some 0) (hh : halt ≠ some (i + 1)) (hs : isAt t s i = true) :
    Leads t s halt left i j ↔ j = i ∨ Leads t s halt (left.map (· - 1)) (i + 1) j := by
  constructor
  · rintro ⟨⟨hij, hc⟩, hm, he⟩
    by_cases hji : j = i
    · exact .inl hji
    · refine .inr ⟨⟨by omega, fun m h1 h2 => hc m (by omega) h2⟩, fun m hm' => ?_,
        fun e he' hlt => he e he' (by omega)⟩
      obtain ⟨k, rfl, rfl⟩ := Option.map_eq_some_iff.1 hm'
      have := hm k rfl
      omega
  · rintro (rfl | ⟨⟨hij, hc⟩, hm, he⟩)
    · exact leads_self
    · refine ⟨⟨by omega, fun m h1 h2 => ?_⟩, fun m hm' => ?_, fun e he' hlt => ?_⟩
      · by_cases hmi : m = i
        · exact hmi ▸ hs
        · exact hc m (by omega) h2
      · obtain rfl : left = some m := hm'
        have := hm (m - 1) rfl
        have : m ≠ 0 := fun h0 => hl (by rw [h0])
        omega
      · refine he e he' (Nat.lt_of_le_of_ne hlt fun heq => hh ?_)
        rw [heq]
        exact he'

end Leads

theorem mem_walk {t : Array CodePoint} {s : CharClass} {halt : Option Nat} {n i : Nat}
    {left : Option Nat} {found : Places} {j : Nat} (hn : n = t.size - i) :
    j ∈ walk t s halt n i left found ↔ j ∈ found ∨ Leads t s halt left i j := by
  induction n generalizing i left found with
  | zero =>
    have stopped : ¬ (left ≠ some 0 ∧ halt ≠ some (i + 1) ∧ isAt t s i = true) := by
      rintro ⟨-, -, hs⟩
      obtain ⟨c, hc, -⟩ := isAt_iff.1 hs
      obtain ⟨hi, -⟩ := Array.getElem?_eq_some_iff.1 hc
      omega
    rw [walk, List.mem_cons, leads_iff_of_stopped stopped, or_comm]
  | succ n ih =>
    have goes : (left != some 0 && halt != some (i + 1) && isAt t s i) = true ↔
        left ≠ some 0 ∧ halt ≠ some (i + 1) ∧ isAt t s i = true := by
      simp only [Bool.and_eq_true, bne_iff_ne, and_assoc]
    rw [walk]
    split
    · next h =>
      obtain ⟨hl, hh, hs⟩ := goes.mp h
      have hn' : n = t.size - (i + 1) := by omega
      rw [ih hn', List.mem_cons, leads_iff_of_goes hl hh hs, or_assoc, or_left_comm]
    · next h => rw [List.mem_cons, leads_iff_of_stopped (mt goes.mpr h), or_comm]

theorem mem_walkAll {t : Array CodePoint} {s : CharClass} {most : Option Nat} {l found : Places}
    {j : Nat} :
    j ∈ walkAll t s most l found ↔
      j ∈ found ∨ ∃ i ∈ l, Clear t s i j ∧ ∀ m ∈ most, j ≤ i + m := by
  induction l generalizing found with
  | nil => simp [walkAll]
  | cons i l ih =>
    simp only [walkAll, ih, mem_walk rfl, Leads, List.mem_cons, exists_eq_or_imp]
    constructor
    · rintro ((h | ⟨hc, hm, _⟩) | h)
      · exact .inl h
      · exact .inr (.inl ⟨hc, hm⟩)
      · exact .inr (.inr h)
    · rintro (h | ⟨hc, hm⟩ | h)
      · exact .inl (.inl h)
      · by_cases he : ∀ e ∈ l.head?, i < e → j < e
        · exact .inl (.inr ⟨hc, hm, he⟩)
        · simp only [Classical.not_forall, Nat.not_lt] at he
          obtain ⟨e, hel, hie, hej⟩ := he
          refine .inr ⟨e, List.mem_of_mem_head? hel, ⟨hej, fun m h1 h2 => hc.2 m (by omega) h2⟩,
            fun m hm' => ?_⟩
          have := hm m hm'
          omega
      · exact .inr h

theorem joins_one_iff {t : Array CodePoint} {s : CharClass} {i j : Nat} :
    (∃ w v, t.toList.drop i = w ++ v ∧ j = i + w.length ∧ ∃ c, w = [c] ∧ s c = true) ↔
      isAt t s i = true ∧ j = i + 1 := by
  rw [isAt_iff]
  constructor
  · rintro ⟨_, v, hd, rfl, c, rfl, hs⟩
    exact ⟨⟨c, (drop_eq_cons_iff.1 hd).1, hs⟩, rfl⟩
  · rintro ⟨⟨c, hc, hs⟩, rfl⟩
    exact ⟨[c], _, drop_eq_cons_iff.2 ⟨hc, rfl⟩, rfl, c, rfl, hs⟩

theorem joins_nil_iff {t : Array CodePoint} {i j : Nat} {P : Text → Prop} :
    (∃ w v, t.toList.drop i = w ++ v ∧ j = i + w.length ∧ w = [] ∧ P v) ↔
      P (t.toList.drop i) ∧ j = i := by
  constructor
  · rintro ⟨_, v, hd, rfl, rfl, hp⟩
    exact ⟨by simpa [hd] using hp, rfl⟩
  · rintro ⟨hp, rfl⟩
    exact ⟨[], _, rfl, rfl, rfl, hp⟩

theorem drop_eq_end_iff {t : Array CodePoint} {i : Nat} {c : CodePoint} :
    (t.toList.drop i = [] ∨ t.toList.drop i = [c]) ↔
      t.size ≤ i ∨ i + 1 = t.size ∧ t[i]? = some c := by
  rw [drop_eq_cons_iff, List.drop_eq_nil_iff, List.drop_eq_nil_iff, Array.length_toList]
  constructor
  · rintro (h | ⟨hc, h⟩)
    · exact .inl h
    · obtain ⟨hi, _⟩ := Array.getElem?_eq_some_iff.1 hc
      exact .inr ⟨by omega, hc⟩
  · rintro (h | ⟨h, hc⟩)
    · exact .inl h
    · exact .inr ⟨hc, by omega⟩

theorem joins_seq_iff {t : Array CodePoint} {p q : Pattern} {i j : Nat} :
    (seq p q).Joins t i j ↔ ∃ k, p.Joins t i k ∧ q.Joins t k j := by
  constructor
  · rintro ⟨_, v, hd, rfl, w, w', rfl, hp, hq⟩
    rw [List.append_assoc] at hd
    refine ⟨i + w.length, ⟨w, w' ++ v, hd, rfl, hp⟩, w', v, drop_add hd, ?_, ?_⟩
    · rw [List.length_append, Nat.add_assoc]
    · rwa [← lastOf_beforeAt hd]
  · rintro ⟨_, ⟨w, v, hd, rfl, hp⟩, w', v', hd', rfl, hq⟩
    rw [drop_add hd] at hd'
    refine ⟨w ++ w', v', ?_, ?_, w, w', rfl, hd' ▸ hp, ?_⟩
    · rw [hd, hd', List.append_assoc]
    · rw [List.length_append, Nat.add_assoc]
    · rwa [lastOf_beforeAt hd]

theorem joins_alt_iff {t : Array CodePoint} {p q : Pattern} {i j : Nat} :
    (alt p q).Joins t i j ↔ p.Joins t i j ∨ q.Joins t i j := by
  simp only [Joins, Spans, and_or_left, exists_or]

theorem mem_ends_run {t : Array CodePoint} {s : CharClass} {least : Nat} {most : Option Nat}
    {l : Places} {j : Nat} :
    j ∈ ends t (run s least most) l ↔ ∃ i ∈ l, (run s least most).Joins t i j := by
  simp only [ends, joins_run_iff]
  split
  · next hle =>
    simp only [mem_walkAll, mem_passMany, List.not_mem_nil, false_or]
    constructor
    · rintro ⟨_, ⟨i, hi, ⟨_, hc⟩, rfl⟩, ⟨hij, hc'⟩, hm⟩
      refine ⟨i, hi, ⟨by omega, fun m h1 h2 => ?_⟩, hij, fun n hn => ?_⟩
      · by_cases hlt : m < i + least
        · exact hc m h1 hlt
        · exact hc' m (by omega) h2
      · obtain rfl : most = some n := hn
        have := hm (n - least) rfl
        have : least ≤ n := by simpa using hle
        omega
    · rintro ⟨i, hi, ⟨_, hc⟩, hl, hm⟩
      refine ⟨i + least, ⟨i, hi, ⟨by omega, fun m h1 h2 => hc m h1 (by omega)⟩, rfl⟩,
        ⟨hl, fun m h1 h2 => hc m (by omega) h2⟩, fun n hn => ?_⟩
      obtain ⟨k, rfl, rfl⟩ := Option.map_eq_some_iff.1 hn
      have := hm k rfl
      omega
  · next hle =>
    simp only [List.not_mem_nil, false_iff]
    rintro ⟨i, _, _, hl, hm⟩
    cases most with
    | none => simp at hle
    | some n =>
      have := hm n rfl
      simp at hle
      omega

/-- The second part goes on from where the first one ends, if it ends anywhere. -/
theorem mem_ends_seq {t : Array CodePoint} {p q : Pattern} {l : Places} {j : Nat}
    (hp : ∀ {k}, k ∈ ends t p l ↔ ∃ i ∈ l, p.Joins t i k)
    (hq : ∀ {l' : Places}, j ∈ ends t q l' ↔ ∃ k ∈ l', q.Joins t k j) :
    j ∈ ends t (seq p q) l ↔ ∃ i ∈ l, (seq p q).Joins t i j := by
  have goes : j ∈ ends t (seq p q) l ↔ j ∈ ends t q (ends t p l) := by
    rw [ends]
    split
    · next none =>
      rw [none]
      exact iff_of_false List.not_mem_nil fun h => by simpa using hq.mp h
    · rfl
  simp only [goes, hq, hp, joins_seq_iff]
  exact ⟨fun ⟨k, ⟨i, hi, hik⟩, hkj⟩ => ⟨i, hi, k, hik, hkj⟩,
    fun ⟨i, hi, k, hik, hkj⟩ => ⟨k, ⟨i, hi, hik⟩, hkj⟩⟩

/-- **Ends of matches**: the places found are those that matches from the given places lead to. -/
theorem mem_ends {t : Array CodePoint} {p : Pattern} {l : Places} {j : Nat} :
    j ∈ ends t p l ↔ ∃ i ∈ l, p.Joins t i j := by
  induction p generalizing l j with
  | empty =>
    have h (i : Nat) : empty.Joins t i j ↔ j = i := by
      simp [Joins, Spans]
    simp [ends, h]
  | char d =>
    simp only [ends, mem_filterMap_pass, Joins, Spans]
    refine exists_congr fun i => and_congr_right fun _ => ?_
    rw [← joins_one_iff]
    simp
  | letter d =>
    simp only [ends, mem_filterMap_pass, Joins, Spans]
    refine exists_congr fun i => and_congr_right fun _ => ?_
    rw [← joins_one_iff]
    simp
  | one s =>
    simp only [ends, mem_filterMap_pass, Joins, Spans]
    exact exists_congr fun i => and_congr_right fun _ => joins_one_iff.symm
  | run s least most => exact mem_ends_run
  | seq p q ihp ihq => exact mem_ends_seq ihp ihq
  | alt p q ihp ihq =>
    simp only [ends, List.mem_append, ihp, ihq, joins_alt_iff, and_or_left, exists_or]
  | edge =>
    have h (i : Nat) : edge.Joins t i j ↔ isWordAt (beforeAt t i) ≠ isWordAt t[i]? ∧ j = i := by
      rw [← head?_drop]
      exact joins_nil_iff (P := fun v => isWordAt (beforeAt t i) ≠ isWordAt v.head?)
    simp [ends, h]
  | start =>
    have h (i : Nat) : start.Joins t i j ↔ beforeAt t i = none ∧ j = i :=
      joins_nil_iff (P := fun _ => beforeAt t i = none)
    simp [ends, h]
  | stop =>
    have h (i : Nat) : stop.Joins t i j ↔
        (t.size ≤ i ∨ i + 1 = t.size ∧ t[i]? = some ('\n' : CodePoint)) ∧ j = i := by
      rw [← drop_eq_end_iff]
      exact joins_nil_iff (P := fun v => v = [] ∨ v = [('\n' : CodePoint)])
    simp [ends, h]

theorem ends_eq_nil_iff {t : Array CodePoint} {p : Pattern} {l : Places} :
    ends t p l = [] ↔ ∀ i ∈ l, ∀ j, ¬ p.Joins t i j := by
  simp only [List.eq_nil_iff_forall_not_mem, mem_ends, not_exists, not_and]
  exact ⟨fun h i hi j => h j i hi, fun h j i hi => h i hi j⟩

theorem beforeAt_length (u v : Text) : beforeAt (u ++ v).toArray u.length = u.getLast? := by
  have h := lastOf_beforeAt (t := (u ++ v).toArray) (i := 0) (w := u) (v := v) rfl
  rw [Nat.zero_add] at h
  rw [← h]
  simp [lastOf, beforeAt]

theorem occurs_iff_joins (p : Pattern) (t : Text) :
    p.Occurs t ↔ ∃ i j, i ≤ t.length ∧ p.Joins t.toArray i j := by
  constructor
  · rintro ⟨u, w, v, rfl, h⟩
    refine ⟨u.length, _, by simp, w, v, by simp, rfl, ?_⟩
    rwa [List.append_assoc, beforeAt_length]
  · rintro ⟨i, _, hi, w, v, hd, _, h⟩
    refine ⟨t.take i, w, v, ?_, ?_⟩
    · rw [List.append_assoc, ← hd, List.take_append_drop]
    · have hb := beforeAt_length (t.take i) (t.drop i)
      rw [List.take_append_drop, List.length_take, Nat.min_eq_left hi] at hb
      rwa [← hb]

/-- **The search is exact**: it finds a pattern exactly where the pattern matches somewhere. -/
theorem occursIn_iff (p : Pattern) (t : Text) : p.occursIn t = true ↔ p.Occurs t := by
  rw [occurs_iff_joins, occursIn, Bool.not_eq_true', ← Bool.not_eq_true, List.isEmpty_iff,
    ends_eq_nil_iff]
  simp only [List.mem_range, Classical.not_forall, Classical.not_not]
  constructor
  · rintro ⟨i, hi, j, h⟩
    exact ⟨i, j, by omega, h⟩
  · rintro ⟨i, j, hi, h⟩
    exact ⟨i, by omega, j, h⟩

instance (p : Pattern) (t : Text) : Decidable (p.Occurs t) :=
  decidable_of_iff _ (occursIn_iff p t)

end RepoScan.Pattern
