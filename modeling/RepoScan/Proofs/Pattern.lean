import Mathlib.Logic.Basic
import RepoScan.Pattern.Search

/-!
# What patterns match

Most parts of a pattern match what they match wherever it stands.  What such a pattern matches is a
property of texts, given part by part; only marks look at what stands around a match.

* `Pattern.Reads` : the pattern matches the texts with a property, wherever they stand;
* `Pattern.reads_literal`, `reads_word`, `Reads.seq`, `Reads.alt`, `Reads.opt` : the parts of
  patterns;
* `Pattern.spans_oneFrom`, `occurs_oneFrom` : a choice matches what one of its patterns does;
* `Pattern.Reads.occurs_iff` : where a text with the property occurs;
* `Pattern.ReadsAfter` : the pattern begins with a mark, and looks around with nothing else;
* `Pattern.ReadsAfter.occurs_edge_iff` : **between two edges** a pattern of word characters matches
  whole words only.
-/

namespace RepoScan

/-- `w` is one of the longest runs of characters of a class in a text. -/
structure Text.IsRun (s : CharClass) (t w : Text) : Prop where
  nonempty : w ≠ []
  inside : ∀ c ∈ w, s c = true
  /-- Neither side has more characters of the class. -/
  outside : ∃ u v, t = u ++ w ++ v ∧ (∀ c ∈ u.getLast?, s c = false) ∧ ∀ c ∈ v.head?, s c = false

namespace Pattern

variable {p q r : Pattern} {P Q : Text → Prop} {before : Option CodePoint} {t w after : Text}

/-! ### Parts of patterns -/

/-- The pattern matches the texts with a property, wherever they stand. -/
def Reads (p : Pattern) (P : Text → Prop) : Prop :=
  ∀ before w after, p.Spans before w after ↔ P w

theorem reads_literal (s : String) : (literal s).Reads fun w => w = Text.ofString s := by
  unfold literal
  generalize Text.ofString s = cs
  induction cs with
  | nil => exact fun before w after => Iff.rfl
  | cons c cs ih =>
    intro before w after
    simp only [List.foldr_cons, Spans]
    constructor
    · rintro ⟨u, v, rfl, rfl, hv⟩
      rw [(ih ..).mp hv]
      rfl
    · rintro rfl
      exact ⟨[c], cs, rfl, rfl, (ih ..).mpr rfl⟩

theorem reads_word (s : String) : (word s).Reads fun w => w.map foldCase = Text.ofString s := by
  unfold word
  generalize Text.ofString s = cs
  induction cs with
  | nil => exact fun before w after => List.map_eq_nil_iff.symm
  | cons c cs ih =>
    intro before w after
    simp only [List.foldr_cons, Spans, List.map_eq_cons_iff]
    constructor
    · rintro ⟨u, v, rfl, ⟨d, rfl, hd⟩, hv⟩
      exact ⟨d, v, rfl, hd, (ih ..).mp hv⟩
    · rintro ⟨d, v, rfl, hd, hv⟩
      exact ⟨[d], v, rfl, ⟨d, rfl, hd⟩, (ih ..).mpr hv⟩

theorem reads_one (s : CharClass) : (one s).Reads fun w => ∃ c, w = [c] ∧ s c = true :=
  fun _ _ _ => Iff.rfl

theorem reads_exactly (n : Nat) (s : CharClass) :
    (exactly n s).Reads fun w => w.length = n ∧ ∀ c ∈ w, s c = true := by
  intro before w after
  constructor
  · rintro ⟨hs, hleast, hmost⟩
    exact ⟨Nat.le_antisymm (hmost n rfl) hleast, hs⟩
  · rintro ⟨rfl, hs⟩
    exact ⟨hs, Nat.le_refl _, fun n hn => Nat.le_of_eq (Option.some.inj hn)⟩

theorem reads_many (s : CharClass) : (many s).Reads fun w => ∀ c ∈ w, s c = true :=
  fun _ _ _ => ⟨fun h => h.1, fun h => ⟨h, Nat.zero_le _, nofun⟩⟩

theorem reads_some1 (s : CharClass) :
    (some1 s).Reads fun w => w ≠ [] ∧ ∀ c ∈ w, s c = true :=
  fun _ _ _ => ⟨fun h => ⟨List.length_pos_iff.mp h.2.1, h.1⟩,
    fun h => ⟨h.2, List.length_pos_iff.mpr h.1, nofun⟩⟩

theorem Reads.seq (hp : p.Reads P) (hq : q.Reads Q) :
    (p ++ q).Reads fun w => ∃ u v, w = u ++ v ∧ P u ∧ Q v := by
  intro before w after
  refine exists₂_congr fun u v => and_congr_right fun _ => ?_
  exact and_congr (hp ..) (hq ..)

theorem Reads.alt (hp : p.Reads P) (hq : q.Reads Q) : (p ||| q).Reads fun w => P w ∨ Q w :=
  fun before w after => or_congr (hp before w after) (hq before w after)

theorem Reads.opt (hp : p.Reads P) : (opt p).Reads fun w => P w ∨ w = [] :=
  fun before w after => or_congr_left (hp before w after)

theorem Reads.congr (hp : p.Reads P) (h : ∀ w, P w ↔ Q w) : p.Reads Q :=
  fun before w after => (hp before w after).trans (h w)

theorem spans_oneFrom {ps : List Pattern} :
    (oneFrom ps).Spans before w after ↔ ∃ p ∈ ps, p.Spans before w after := by
  induction ps with
  | nil => simp [oneFrom, Spans]
  | cons p ps ih =>
    cases ps with
    | nil => simp [oneFrom]
    | cons q ps =>
      refine (or_congr_right ih).trans ?_
      simp only [List.mem_cons, exists_eq_or_imp]

theorem reads_literals (ss : List String) :
    (literals ss).Reads fun w => w ∈ ss.map Text.ofString := by
  intro before w after
  simp only [literals, spans_oneFrom, List.mem_map, exists_exists_and_eq_and]
  exact exists_congr fun s => and_congr_right fun _ => (reads_literal s ..).trans eq_comm

theorem reads_wordsOf (ss : List String) :
    (wordsOf ss).Reads fun w => w.map foldCase ∈ ss.map Text.ofString := by
  intro before w after
  simp only [wordsOf, spans_oneFrom, List.mem_map, exists_exists_and_eq_and]
  exact exists_congr fun s => and_congr_right fun _ => (reads_word s ..).trans eq_comm

/-! ### Occurrences -/

theorem occurs_oneFrom {ps : List Pattern} : (oneFrom ps).Occurs t ↔ ∃ p ∈ ps, p.Occurs t := by
  simp only [Occurs, spans_oneFrom]
  constructor
  · rintro ⟨u, w, v, ht, p, hp, h⟩
    exact ⟨p, hp, u, w, v, ht, h⟩
  · rintro ⟨p, hp, u, w, v, ht, h⟩
    exact ⟨u, w, v, ht, p, hp, h⟩

theorem Reads.occurs_iff (hp : p.Reads P) : p.Occurs t ↔ ∃ w, P w ∧ w <:+: t := by
  constructor
  · rintro ⟨u, w, v, rfl, h⟩
    exact ⟨w, (hp ..).mp h, u, v, rfl⟩
  · rintro ⟨w, hw, u, v, rfl⟩
    exact ⟨u, w, v, rfl, (hp ..).mpr hw⟩

/-- The pattern matches what the mark `m` does and, right after it, the texts with a property. -/
def ReadsAfter (m p : Pattern) (P : Text → Prop) : Prop :=
  ∀ before w after,
    p.Spans before w after ↔ ∃ u v, w = u ++ v ∧ m.Spans before u (v ++ after) ∧ P v

theorem Reads.readsAfter (hp : p.Reads P) (m : Pattern) : m.ReadsAfter (m ++ p) P := by
  intro before w after
  refine exists₂_congr fun u v => and_congr_right fun _ => and_congr_right fun _ => ?_
  exact hp ..

/-- More parts may follow. -/
theorem ReadsAfter.seq {m : Pattern} (hp : m.ReadsAfter p P) (hq : q.Reads Q) :
    m.ReadsAfter (p ++ q) fun w => ∃ u v, w = u ++ v ∧ P u ∧ Q v := by
  intro before w after
  constructor
  · rintro ⟨_, v, rfl, hu, hv⟩
    obtain ⟨x, y, rfl, hx, hy⟩ := (hp ..).mp hu
    refine ⟨x, y ++ v, List.append_assoc .., ?_, y, v, rfl, hy, (hq ..).mp hv⟩
    rwa [List.append_assoc]
  · rintro ⟨x, _, rfl, hx, y, v, rfl, hy, hv⟩
    refine ⟨x ++ y, v, (List.append_assoc ..).symm, (hp ..).mpr ⟨x, y, rfl, ?_, hy⟩, (hq ..).mpr hv⟩
    rwa [List.append_assoc] at hx

theorem ReadsAfter.congr {m : Pattern} (hp : m.ReadsAfter p P) (h : ∀ w, P w ↔ Q w) :
    m.ReadsAfter p Q := by
  intro before w after
  rw [hp before w after]
  simp only [h]

/-! ### Words -/

theorem isWordAt_eq_false_iff {c : Option CodePoint} :
    isWordAt c = false ↔ ∀ d ∈ c, d.isWord = false := by
  cases c with
  | none => exact iff_of_true rfl nofun
  | some c => simp [isWordAt]

theorem isWordAt_head? (hne : w ≠ []) (hw : ∀ c ∈ w, c.isWord = true) (after : Text) :
    isWordAt (w ++ after).head? = true := by
  obtain ⟨c, w, rfl⟩ := List.exists_cons_of_ne_nil hne
  exact hw c List.mem_cons_self

theorem isWordAt_lastOf (hne : w ≠ []) (hw : ∀ c ∈ w, c.isWord = true) :
    isWordAt (lastOf before w) = true := by
  rw [lastOf, List.getLast?_eq_some_getLast hne]
  exact hw _ (List.getLast_mem hne)

/-- **Between two edges** a pattern of word characters matches whole words only. -/
theorem ReadsAfter.occurs_edge_iff (hp : edge.ReadsAfter p P)
    (hword : ∀ w, P w → w ≠ [] ∧ ∀ c ∈ w, c.isWord = true) :
    (p ++ edge).Occurs t ↔ ∃ w, Text.IsRun CodePoint.isWord t w ∧ P w := by
  constructor
  · rintro ⟨u, _, v, rfl, _, _, rfl, hspan, rfl, last⟩
    obtain ⟨_, w, rfl, ⟨rfl, first⟩, hw⟩ := (hp ..).mp hspan
    obtain ⟨hne, inside⟩ := hword w hw
    -- inside of the edges there are word characters
    rw [List.nil_append, isWordAt_head? hne inside, Ne, Bool.not_eq_true] at first
    rw [List.nil_append, isWordAt_lastOf hne inside, ne_comm, Ne, Bool.not_eq_true] at last
    refine ⟨w, ⟨hne, inside, u, v, ?_, isWordAt_eq_false_iff.mp first,
      isWordAt_eq_false_iff.mp last⟩, hw⟩
    rw [List.nil_append, List.append_nil]
  · rintro ⟨w, ⟨hne, inside, u, v, rfl, first, last⟩, hw⟩
    refine ⟨u, w, v, rfl, w, [], (List.append_nil w).symm,
      (hp ..).mpr ⟨[], w, rfl, ⟨rfl, ?_⟩, hw⟩, rfl, ?_⟩
    · rw [isWordAt_eq_false_iff.mpr first, isWordAt_head? hne inside]
      exact Bool.false_ne_true
    · rw [isWordAt_eq_false_iff.mpr last, isWordAt_lastOf hne inside]
      exact Bool.false_ne_true.symm

end Pattern

end RepoScan
