import RepoScan.Proofs.Text.Basic
import RepoScan.Text.Utf8

/-!
# Reading malformed UTF-8

The decoder takes one byte at a time and knows how many more bytes the character owes.  What it
comes to can be said without that, by the encodings of the code points alone: the bytes are cut into
stretches, each the longest beginning that an encoding can still begin with, and a stretch that is
no encoding is marked.

* `Utf8.Encodes.completes`, `Utf8.Completes.exists_encodes` : the bytes that the decoder takes for a
  character are the encodings;
* `Utf8.effect` : what one byte does;
* `Utf8.Encodes.isStretch` : no encoding begins with another one;
* `Utf8.reads_outputs` : the invariant, from any byte on;
* `Utf8.reads_iff` : **the text that the decoder gives is the one that is read off stretch by
  stretch**.
-/

namespace RepoScan

theorem ofNat_eq_of_toNat {a : UInt8} {n : Nat} (h : n = a.toNat) : UInt8.ofNat n = a := by
  rw [h, UInt8.ofNat_toNat]

namespace Utf8

/-! ### Stretches -/

/-- The bytes are the encoding of the code point; half of a surrogate pair has none. -/
def Encodes (p : Bytes) (c : CodePoint) : Prop := c.isSurrogate = false ∧ encodePoint c = p

/-- Some encoding begins with the bytes. -/
def Begins (p : Bytes) : Prop := ∃ q c, Encodes (p ++ q) c

/-- `p` is the first stretch of `p ++ rest`: the longest beginning of an encoding, or a single byte
where no encoding begins with that. -/
structure IsStretch (p rest : Bytes) : Prop where
  ne_nil : p ≠ []
  begins : Begins p ∨ p.length = 1
  longest : ∀ b ∈ rest.head?, ¬ Begins (p ++ [b])

/-- The text that is read off the bytes stretch by stretch, with a replacement mark for each stretch
that is no encoding. -/
inductive Reads : Bytes → Text → Prop
  | nil : Reads [] []
  | point {p rest : Bytes} {c : CodePoint} {t : Text} (encoded : Encodes p c)
      (after : Reads rest t) : Reads (p ++ rest) (c :: t)
  | malformed {p rest : Bytes} {t : Text} (stretch : IsStretch p rest)
      (encoded : ∀ c, ¬ Encodes p c) (after : Reads rest t) :
      Reads (p ++ rest) (CodePoint.replacement :: t)

theorem Begins.of_append {p q : Bytes} (h : Begins (p ++ q)) : Begins p := by
  obtain ⟨r, c, hc⟩ := h
  exact ⟨q ++ r, c, by rwa [← List.append_assoc]⟩

theorem IsStretch.eq_nil {p q rest : Bytes} (h : IsStretch p (q ++ rest))
    (h' : IsStretch (p ++ q) rest) : q = [] := by
  cases q with
  | nil => rfl
  | cons b q =>
    have cut : p ++ b :: q = p ++ [b] ++ q := by rw [List.append_assoc, List.singleton_append]
    rcases h'.begins with begins | single
    · exact absurd (cut ▸ begins).of_append (h.longest b rfl)
    · have short := List.length_pos_iff.mpr h.ne_nil
      rw [List.length_append, List.length_cons] at single
      omega

theorem IsStretch.unique {p p' rest rest' : Bytes} (h : IsStretch p rest) (h' : IsStretch p' rest')
    (same : p ++ rest = p' ++ rest') : p = p' ∧ rest = rest' := by
  rcases List.append_eq_append_iff.mp same with ⟨q, rfl, rfl⟩ | ⟨q, rfl, rfl⟩
  · obtain rfl := h.eq_nil h'
    exact ⟨(List.append_nil p).symm, rfl⟩
  · obtain rfl := h'.eq_nil h
    exact ⟨List.append_nil p', rfl⟩

/-! ### Encodings byte by byte -/

/-- The lead bytes of sequences of two, three and four bytes. -/
theorem lead?_two {k : Nat} (h : 2 ≤ k) (h' : k < 32) :
    lead? (0xC0 + k) = some (1, 0x80, 0xBF, k) := by
  have all : ∀ j < 30, lead? (0xC0 + (2 + j)) = some (1, 0x80, 0xBF, 2 + j) := by decide
  obtain ⟨j, rfl⟩ := Nat.exists_eq_add_of_le h
  exact all j (by omega)

theorem lead?_three {k : Nat} (h : k < 16) :
    lead? (0xE0 + k) =
      some (2, if k = 0 then 0xA0 else 0x80, if k = 0xD then 0x9F else 0xBF, k) := by
  have all : ∀ k < 16, lead? (0xE0 + k) =
      some (2, if k = 0 then 0xA0 else 0x80, if k = 0xD then 0x9F else 0xBF, k) := by decide
  exact all k h

theorem lead?_four {k : Nat} (h : k < 5) :
    lead? (0xF0 + k) = some (3, if k = 0 then 0x90 else 0x80, if k = 4 then 0x8F else 0xBF, k) := by
  have all : ∀ k < 5, lead? (0xF0 + k) =
      some (3, if k = 0 then 0x90 else 0x80, if k = 4 then 0x8F else 0xBF, k) := by decide
  exact all k h

theorem exists_of_lead? {b : Nat} {r : Nat × Nat × Nat × Nat} (h : lead? b = some r) :
    (∃ k, b = 0xC0 + k ∧ 2 ≤ k ∧ k < 32) ∨ (∃ k, b = 0xE0 + k ∧ k < 16) ∨
      (∃ k, b = 0xF0 + k ∧ k < 5) := by
  by_cases bounds : 0xC2 ≤ b ∧ b ≤ 0xF4
  · by_cases two : b < 0xE0
    · exact .inl ⟨b - 0xC0, by omega, by omega, by omega⟩
    · by_cases three : b < 0xF0
      · exact .inr (.inl ⟨b - 0xE0, by omega, by omega⟩)
      · exact .inr (.inr ⟨b - 0xF0, by omega, by omega⟩)
  · simp only [lead?, Bool.and_eq_true, decide_eq_true_eq, beq_iff_eq] at h
    repeat rw [if_neg (by omega)] at h
    cases h

/-- The bytes complete the code point with number `n`, from a state of the decoder on. -/
def Completes : State → Bytes → Nat → Prop
  | _, [], _ => False
  | .ready, b :: q, n =>
    (b.toNat < 0x80 ∧ q = [] ∧ n = b.toNat) ∨
      ∃ owed lo hi bits, lead? b.toNat = some (owed, lo, hi, bits) ∧
        Completes (.within owed lo hi bits) q n
  | .within owed lo hi bits, b :: q, n =>
    (lo ≤ b.toNat ∧ b.toNat ≤ hi) ∧
      if owed ≤ 1 then q = [] ∧ n = bits * 64 + (b.toNat - 0x80)
      else Completes (.within (owed - 1) 0x80 0xBF (bits * 64 + (b.toNat - 0x80))) q n

theorem completes_last_iff {lo hi bits n : Nat} {q : Bytes} :
    Completes (.within 1 lo hi bits) q n ↔
      ∃ b : UInt8, q = [b] ∧ lo ≤ b.toNat ∧ b.toNat ≤ hi ∧ n = bits * 64 + (b.toNat - 0x80) := by
  cases q with
  | nil => exact ⟨nofun, fun ⟨_, h, _⟩ => nomatch h⟩
  | cons b q =>
    rw [Completes, if_pos (Nat.le_refl 1)]
    constructor
    · rintro ⟨⟨lower, upper⟩, rfl, hn⟩
      exact ⟨b, rfl, lower, upper, hn⟩
    · rintro ⟨_, h, lower, upper, hn⟩
      obtain ⟨rfl, rfl⟩ := List.cons.inj h
      exact ⟨⟨lower, upper⟩, rfl, hn⟩

theorem completes_more_iff {owed lo hi bits n : Nat} {q : Bytes} :
    Completes (.within (owed + 2) lo hi bits) q n ↔
      ∃ (b : UInt8) (q' : Bytes), q = b :: q' ∧ lo ≤ b.toNat ∧ b.toNat ≤ hi ∧
        Completes (.within (owed + 1) 0x80 0xBF (bits * 64 + (b.toNat - 0x80))) q' n := by
  cases q with
  | nil => exact ⟨nofun, fun ⟨_, _, h, _⟩ => nomatch h⟩
  | cons b q =>
    rw [Completes, if_neg (by omega)]
    constructor
    · rintro ⟨⟨lower, upper⟩, h⟩
      exact ⟨b, q, rfl, lower, upper, h⟩
    · rintro ⟨_, _, h, lower, upper, h'⟩
      obtain ⟨rfl, rfl⟩ := List.cons.inj h
      exact ⟨⟨lower, upper⟩, h'⟩

/-! ### The bytes of a code point -/

variable {c : CodePoint}

theorem encodePoint_one (h : c.val < 0x80) : encodePoint c = [UInt8.ofNat c.val] := if_pos h

theorem encodePoint_two (h : 0x80 ≤ c.val) (h' : c.val < 0x800) :
    encodePoint c = [UInt8.ofNat (0xC0 + c.val / 64), UInt8.ofNat (0x80 + c.val % 64)] := by
  rw [encodePoint]
  dsimp only
  rw [if_neg (by omega), if_pos h']

theorem encodePoint_three (h : 0x800 ≤ c.val) (h' : c.val < 0x10000) :
    encodePoint c = [UInt8.ofNat (0xE0 + c.val / 4096), UInt8.ofNat (0x80 + c.val / 64 % 64),
      UInt8.ofNat (0x80 + c.val % 64)] := by
  rw [encodePoint]
  dsimp only
  rw [if_neg (by omega), if_neg (by omega), if_pos h']

theorem encodePoint_four (h : 0x10000 ≤ c.val) :
    encodePoint c = [UInt8.ofNat (0xF0 + c.val / 262144), UInt8.ofNat (0x80 + c.val / 4096 % 64),
      UInt8.ofNat (0x80 + c.val / 64 % 64), UInt8.ofNat (0x80 + c.val % 64)] := by
  rw [encodePoint]
  dsimp only
  rw [if_neg (by omega), if_neg (by omega), if_neg (by omega)]

theorem toNat_ofNat {n : Nat} (h : n < 256) : (UInt8.ofNat n).toNat = n :=
  UInt8.toNat_ofNat_of_lt h

/-- The encoding of a code point completes it. -/
theorem Encodes.completes {p : Bytes} (h : Encodes p c) : Completes .ready p c.val := by
  obtain ⟨scalar, rfl⟩ := h
  rw [CodePoint.isSurrogate_eq_false_iff] at scalar
  have top := c.lt
  have tail (n : Nat) : (UInt8.ofNat (0x80 + n % 64)).toNat = 0x80 + n % 64 :=
    toNat_ofNat (by omega)
  have lengths : c.val < 0x80 ∨ (0x80 ≤ c.val ∧ c.val < 0x800) ∨
      (0x800 ≤ c.val ∧ c.val < 0x10000) ∨ 0x10000 ≤ c.val := by omega
  rcases lengths with one | ⟨two, two'⟩ | ⟨three, three'⟩ | four
  · rw [encodePoint_one one]
    have byte := toNat_ofNat (n := c.val) (by omega)
    exact .inl ⟨by omega, rfl, byte.symm⟩
  · rw [encodePoint_two two two']
    have byte := toNat_ofNat (n := 0xC0 + c.val / 64) (by omega)
    refine .inr ⟨_, _, _, _, byte ▸ lead?_two (by omega) (by omega), ?_⟩
    have := tail c.val
    exact completes_last_iff.mpr ⟨_, rfl, by omega, by omega, by omega⟩
  · rw [encodePoint_three three three']
    have byte := toNat_ofNat (n := 0xE0 + c.val / 4096) (by omega)
    refine .inr ⟨_, _, _, _, byte ▸ lead?_three (by omega), ?_⟩
    have := tail (c.val / 64)
    have := tail c.val
    refine completes_more_iff.mpr ⟨_, _, rfl, ?_, ?_, ?_⟩
    · split <;> omega
    · -- above the surrogates or below them
      split <;> omega
    · exact completes_last_iff.mpr ⟨_, rfl, by omega, by omega, by omega⟩
  · rw [encodePoint_four four]
    have byte := toNat_ofNat (n := 0xF0 + c.val / 262144) (by omega)
    refine .inr ⟨_, _, _, _, byte ▸ lead?_four (by omega), ?_⟩
    have := tail (c.val / 4096)
    have := tail (c.val / 64)
    have := tail c.val
    refine completes_more_iff.mpr ⟨_, _, rfl, ?_, ?_, ?_⟩
    · split <;> omega
    · split <;> omega
    · refine completes_more_iff.mpr ⟨_, _, rfl, by omega, by omega, ?_⟩
      exact completes_last_iff.mpr ⟨_, rfl, by omega, by omega, by omega⟩

/-- Bytes that complete a code point are its encoding. -/
theorem Completes.exists_encodes {p : Bytes} {n : Nat} (h : Completes .ready p n) :
    ∃ c : CodePoint, c.val = n ∧ Encodes p c := by
  have point (hn : n < 0x110000) : ∃ c : CodePoint, c.val = n := ⟨⟨n, hn⟩, rfl⟩
  cases p with
  | nil => exact h.elim
  | cons a p =>
    rcases h with ⟨one, rfl, hn⟩ | ⟨owed, lo, hi, bits, hlead, h⟩
    · obtain ⟨c, hc⟩ := point (by omega)
      refine ⟨c, hc, CodePoint.isSurrogate_eq_false_iff.mpr (by omega), ?_⟩
      rw [encodePoint_one (by omega), ofNat_eq_of_toNat (a := a) (by omega)]
    -- the lead byte tells the length
    rcases exists_of_lead? hlead with ⟨k, ha, hk, hk'⟩ | ⟨k, ha, hk⟩ | ⟨k, ha, hk⟩
    · rw [ha, lead?_two hk hk'] at hlead
      cases hlead
      obtain ⟨b, rfl, lower, upper, hn⟩ := completes_last_iff.mp h
      obtain ⟨c, hc⟩ := point (by omega)
      refine ⟨c, hc, CodePoint.isSurrogate_eq_false_iff.mpr (by omega), ?_⟩
      rw [encodePoint_two (by omega) (by omega), ofNat_eq_of_toNat (a := a) (by omega),
        ofNat_eq_of_toNat (a := b) (by omega)]
    · rw [ha, lead?_three hk] at hlead
      cases hlead
      obtain ⟨b, p, rfl, lower, upper, h⟩ := completes_more_iff.mp h
      obtain ⟨d, rfl, lower', upper', hn⟩ := completes_last_iff.mp h
      -- short forms and surrogates are ruled out by the second byte
      have second : 0x80 ≤ b.toNat ∧ b.toNat ≤ 0xBF ∧ (bits = 0 → 0xA0 ≤ b.toNat) ∧
          (bits = 0xD → b.toNat ≤ 0x9F) := by
        split at lower <;> split at upper <;> omega
      obtain ⟨c, hc⟩ := point (by omega)
      refine ⟨c, hc, CodePoint.isSurrogate_eq_false_iff.mpr (by omega), ?_⟩
      rw [encodePoint_three (by omega) (by omega), ofNat_eq_of_toNat (a := a) (by omega),
        ofNat_eq_of_toNat (a := b) (by omega), ofNat_eq_of_toNat (a := d) (by omega)]
    · rw [ha, lead?_four hk] at hlead
      cases hlead
      obtain ⟨b, p, rfl, lower, upper, h⟩ := completes_more_iff.mp h
      obtain ⟨d, p, rfl, lower', upper', h⟩ := completes_more_iff.mp h
      obtain ⟨e, rfl, lower'', upper'', hn⟩ := completes_last_iff.mp h
      -- short forms and numbers beyond the last code point, likewise
      have second : 0x80 ≤ b.toNat ∧ b.toNat ≤ 0xBF ∧ (bits = 0 → 0x90 ≤ b.toNat) ∧
          (bits = 4 → b.toNat ≤ 0x8F) := by
        split at lower <;> split at upper <;> omega
      obtain ⟨c, hc⟩ := point (by omega)
      refine ⟨c, hc, CodePoint.isSurrogate_eq_false_iff.mpr (by omega), ?_⟩
      rw [encodePoint_four (by omega), ofNat_eq_of_toNat (a := a) (by omega),
        ofNat_eq_of_toNat (a := b) (by omega), ofNat_eq_of_toNat (a := d) (by omega),
        ofNat_eq_of_toNat (a := e) (by omega)]

/-! ### The decoder byte by byte -/

/-- Some byte is awaited, unless the decoder is between characters. -/
def State.Live : State → Prop
  | .ready => True
  | .within _ lo hi _ => lo ≤ hi ∧ hi < 256

theorem exists_completes_within {owed lo hi : Nat} (h : lo ≤ hi) (h' : hi < 256) (bits : Nat) :
    ∃ q n, Completes (.within owed lo hi bits) q n := by
  have byte : (UInt8.ofNat lo).toNat = lo := toNat_ofNat (by omega)
  induction owed generalizing lo hi bits with
  | zero => exact ⟨[UInt8.ofNat lo], _, by omega, rfl, rfl⟩
  | succ owed ih =>
    cases owed with
    | zero => exact ⟨[UInt8.ofNat lo], _, by omega, rfl, rfl⟩
    | succ owed =>
      have next : (UInt8.ofNat 0x80).toNat = 0x80 := rfl
      obtain ⟨q, n, hq⟩ := ih (by omega) (by omega : 0xBF < 256) (bits * 64 + (lo - 0x80)) next
      rw [← byte] at hq
      exact ⟨UInt8.ofNat lo :: q, n, completes_more_iff.mpr ⟨_, _, rfl, by omega, by omega, hq⟩⟩

/-- A character that is begun can be completed. -/
theorem State.Live.exists_completes {s : State} (live : s.Live) (begun : s ≠ .ready) :
    ∃ q n, Completes s q n := by
  cases s with
  | ready => exact absurd rfl begun
  | within owed lo hi bits => exact exists_completes_within live.1 live.2 bits

theorem live_of_lead? {b owed lo hi bits : Nat} (h : lead? b = some (owed, lo, hi, bits)) :
    (State.within owed lo hi bits).Live := by
  rcases exists_of_lead? h with ⟨k, rfl, hk, hk'⟩ | ⟨k, rfl, hk⟩ | ⟨k, rfl, hk⟩
  · rw [lead?_two hk hk'] at h
    cases h
    exact ⟨by omega, by omega⟩
  · rw [lead?_three hk] at h
    cases h
    exact ⟨by split <;> split <;> omega, by split <;> omega⟩
  · rw [lead?_four hk] at h
    cases h
    exact ⟨by split <;> split <;> omega, by split <;> omega⟩

/-- What one byte does. -/
inductive Effect (bad : Text) (s : State) (b : UInt8) : Prop
  /-- It completes a code point. -/
  | done (c : Nat) (only : ∀ q n, Completes s (b :: q) n ↔ q = [] ∧ n = c)
      (run : step bad s b = (.ready, [CodePoint.ofNat c]))
  /-- It belongs to a code point that has more bytes. -/
  | goesOn (s' : State) (live : s'.Live) (begun : s' ≠ .ready)
      (same : ∀ q n, Completes s (b :: q) n ↔ Completes s' q n) (run : step bad s b = (s', []))
  /-- It belongs to none.  What is begun is malformed, and the byte is the first one of what
  follows. -/
  | refused (none : ∀ q n, ¬ Completes s (b :: q) n)
      (first : s = .ready → step bad s b = (.ready, bad))
      (later : s ≠ .ready → step bad s b = ((step bad .ready b).1, bad ++ (step bad .ready b).2))

theorem step_ready_of_ascii (bad : Text) {b : UInt8} (h : b.toNat < 0x80) :
    step bad .ready b = (.ready, [CodePoint.ofNat b.toNat]) := by
  rw [step]
  exact if_pos h

theorem step_ready_of_lead (bad : Text) {b : UInt8} {owed lo hi bits : Nat}
    (ascii : ¬ b.toNat < 0x80) (h : lead? b.toNat = some (owed, lo, hi, bits)) :
    step bad .ready b = (.within owed lo hi bits, []) := by
  rw [step, if_neg ascii, h]

theorem step_ready_of_stray (bad : Text) {b : UInt8} (ascii : ¬ b.toNat < 0x80)
    (h : lead? b.toNat = none) : step bad .ready b = (.ready, bad) := by
  rw [step, if_neg ascii, h]

theorem Effect.of_ready (bad : Text) (b : UInt8) : Effect bad .ready b := by
  by_cases ascii : b.toNat < 0x80
  · have lead : lead? b.toNat = none := by
      refine Option.eq_none_iff_forall_ne_some.mpr fun r h => ?_
      rcases exists_of_lead? h with ⟨k, hk, -⟩ | ⟨k, hk, -⟩ | ⟨k, hk, -⟩ <;> omega
    refine .done b.toNat (fun q n => ?_) (step_ready_of_ascii bad ascii)
    rw [Completes, lead]
    constructor
    · rintro (⟨-, h⟩ | ⟨_, _, _, _, h, -⟩)
      · exact h
      · cases h
    · exact fun h => .inl ⟨ascii, h⟩
  · cases lead : lead? b.toNat with
    | none =>
      have run := step_ready_of_stray bad ascii lead
      refine .refused (fun q n h => ?_) (fun _ => run) (fun h => absurd rfl h)
      rcases h with ⟨h, -⟩ | ⟨_, _, _, _, h, -⟩
      · exact ascii h
      · rw [lead] at h
        cases h
    | some r =>
      obtain ⟨owed, lo, hi, bits⟩ := r
      refine .goesOn (.within owed lo hi bits) (live_of_lead? lead) nofun (fun q n => ?_)
        (step_ready_of_lead bad ascii lead)
      rw [Completes, lead]
      constructor
      · rintro (⟨h, -⟩ | ⟨_, _, _, _, h, h'⟩)
        · exact absurd h ascii
        · cases h
          exact h'
      · exact fun h => .inr ⟨_, _, _, _, rfl, h⟩

theorem Effect.of_within (bad : Text) (owed lo hi bits : Nat) (b : UInt8) :
    Effect bad (.within owed lo hi bits) b := by
  by_cases fits : lo ≤ b.toNat ∧ b.toNat ≤ hi
  · have inside : (decide (lo ≤ b.toNat) && decide (b.toNat ≤ hi)) = true := by
      rw [decide_eq_true fits.1, decide_eq_true fits.2]
      rfl
    by_cases last : owed ≤ 1
    · refine .done (bits * 64 + (b.toNat - 0x80)) (fun q n => ?_) ?_
      · rw [Completes, if_pos last]
        exact and_iff_right fits
      · rw [step]
        dsimp only
        rw [if_pos inside, if_pos last]
    · refine .goesOn (.within (owed - 1) 0x80 0xBF (bits * 64 + (b.toNat - 0x80)))
        ⟨by omega, by omega⟩ nofun (fun q n => ?_) ?_
      · rw [Completes, if_neg last]
        exact and_iff_right fits
      · rw [step]
        dsimp only
        rw [if_pos inside, if_neg last]
  · have outside : ¬ (decide (lo ≤ b.toNat) && decide (b.toNat ≤ hi)) = true := by
      rwa [Bool.and_eq_true, decide_eq_true_eq, decide_eq_true_eq]
    refine .refused (fun q n h => ?_) nofun fun _ => if_neg outside
    rw [Completes] at h
    exact fits h.1

/-- **What one byte does**, at any state. -/
theorem effect (bad : Text) (s : State) (b : UInt8) : Effect bad s b := by
  cases s with
  | ready => exact .of_ready bad b
  | within owed lo hi bits => exact .of_within bad owed lo hi bits b

theorem step_of_refused (bad : Text) {s : State} {b : UInt8}
    (h : ¬ ∃ q n, Completes s (b :: q) n) :
    (s = .ready → step bad s b = (.ready, bad)) ∧
      (s ≠ .ready → step bad s b = ((step bad .ready b).1, bad ++ (step bad .ready b).2)) := by
  cases effect bad s b with
  | done c only => exact absurd ⟨[], c, (only [] c).mpr ⟨rfl, rfl⟩⟩ h
  | goesOn s' live begun same =>
    obtain ⟨q, n, hq⟩ := live.exists_completes begun
    exact absurd ⟨q, n, (same q n).mpr hq⟩ h
  | refused _ first later => exact ⟨first, later⟩

theorem Completes.eq_nil {s : State} {p q : Bytes} {n m : Nat} (h : Completes s p n)
    (h' : Completes s (p ++ q) m) : q = [] ∧ n = m := by
  induction p generalizing s with
  | nil => exact (by rwa [Completes] at h : False).elim
  | cons b p ih =>
    cases effect [] s b with
    | done c only =>
      obtain ⟨rfl, rfl⟩ := (only p n).mp h
      obtain ⟨rfl, rfl⟩ := (only q m).mp h'
      exact ⟨rfl, rfl⟩
    | goesOn s' _ _ same => exact ih ((same p n).mp h) ((same (p ++ q) m).mp h')
    | refused none => exact absurd h (none p n)

theorem Encodes.eq_of_append {p q : Bytes} {c d : CodePoint} (h : Encodes p c)
    (h' : Encodes (p ++ q) d) : q = [] ∧ c = d := by
  obtain ⟨hq, hval⟩ := h.completes.eq_nil h'.completes
  obtain ⟨n, _⟩ := c
  obtain ⟨m, _⟩ := d
  obtain rfl : n = m := hval
  exact ⟨hq, rfl⟩

theorem Encodes.ne_nil {p : Bytes} {c : CodePoint} (h : Encodes p c) : p ≠ [] := by
  rintro rfl
  exact h.completes

/-- An encoding is a stretch, whatever follows. -/
theorem Encodes.isStretch {p : Bytes} {c : CodePoint} (h : Encodes p c) (rest : Bytes) :
    IsStretch p rest where
  ne_nil := h.ne_nil
  begins := .inl ⟨[], c, by rwa [List.append_nil]⟩
  longest b _ := fun ⟨q, d, hd⟩ => by
    rw [List.append_assoc] at hd
    cases (h.eq_of_append hd).1

theorem Reads.unique {bytes : Bytes} {t t' : Text} (h : Reads bytes t) (h' : Reads bytes t') :
    t = t' := by
  induction h generalizing t' with
  | nil =>
    generalize hb : ([] : Bytes) = bytes at h'
    cases h' with
    | nil => rfl
    | point encoded => exact absurd (List.append_eq_nil_iff.mp hb.symm).1 encoded.ne_nil
    | malformed stretch => exact absurd (List.append_eq_nil_iff.mp hb.symm).1 stretch.ne_nil
  | @point p rest c t encoded after ih =>
    generalize hb : p ++ rest = bytes at h'
    cases h' with
    | nil => exact absurd (List.append_eq_nil_iff.mp hb).1 encoded.ne_nil
    | @point p' rest' d t' encoded' after' =>
      obtain ⟨rfl, rfl⟩ := (encoded.isStretch rest).unique (encoded'.isStretch rest') hb
      have same : Encodes (p ++ []) d := by rwa [List.append_nil]
      rw [(encoded.eq_of_append same).2, ih after']
    | @malformed p' rest' t' stretch' other after' =>
      obtain ⟨rfl, rfl⟩ := (encoded.isStretch rest).unique stretch' hb
      exact absurd encoded (other c)
  | @malformed p rest t stretch other after ih =>
    generalize hb : p ++ rest = bytes at h'
    cases h' with
    | nil => exact absurd (List.append_eq_nil_iff.mp hb).1 stretch.ne_nil
    | @point p' rest' d t' encoded' after' =>
      obtain ⟨rfl, rfl⟩ := stretch.unique (encoded'.isStretch rest') hb
      exact absurd encoded' (other d)
    | @malformed p' rest' t' stretch' other' after' =>
      obtain ⟨rfl, rfl⟩ := stretch.unique stretch' hb
      rw [ih after']

/-! ### The decoder from a byte on -/

/-- What the decoder makes of the bytes, from a state on. -/
def outputs (s : State) : Bytes → Text
  | [] => if s matches .ready then [] else [CodePoint.replacement]
  | b :: bytes =>
    let r := step [CodePoint.replacement] s b
    r.2 ++ outputs r.1 bytes

theorem decodeGo_eq (s : State) (bytes : Bytes) (done : Text) :
    decodeWith.go [CodePoint.replacement] s bytes done = done.reverse ++ outputs s bytes := by
  induction bytes generalizing s done with
  | nil => cases s <;> simp [decodeWith.go, outputs]
  | cons b bytes ih =>
    rw [decodeWith.go, ih, List.reverseAux_eq, List.reverse_append, List.reverse_reverse,
      List.append_assoc]
    rfl

theorem decode_eq_outputs (bytes : Bytes) : decode bytes = outputs .ready bytes :=
  decodeGo_eq .ready bytes []

/-- The decoder stands at the state after the first bytes of a stretch. -/
structure Stands (p : Bytes) (s : State) : Prop where
  live : s.Live
  ready_iff : s = .ready ↔ p = []
  completes_iff : ∀ b q n, Completes .ready (p ++ b :: q) n ↔ Completes s (b :: q) n

variable {p : Bytes} {s : State}

theorem stands_nil : Stands [] .ready where
  live := trivial
  ready_iff := ⟨fun _ => rfl, fun _ => rfl⟩
  completes_iff _ _ _ := Iff.rfl

namespace Stands

/-- An encoding goes on with the byte just if the decoder takes it for a part of the character. -/
theorem begins_iff (h : Stands p s) (b : UInt8) :
    Begins (p ++ [b]) ↔ ∃ q n, Completes s (b :: q) n := by
  have cut (q : Bytes) : p ++ [b] ++ q = p ++ b :: q := List.append_assoc ..
  constructor
  · rintro ⟨q, c, hc⟩
    exact ⟨q, c.val, (h.completes_iff b q _).mp (cut q ▸ hc.completes)⟩
  · rintro ⟨q, n, hq⟩
    obtain ⟨c, -, hc⟩ := ((h.completes_iff b q n).mpr hq).exists_encodes
    exact ⟨q, c, by rwa [cut]⟩

theorem snoc (h : Stands p s) {b : UInt8} {s' : State} (live : s'.Live) (hs' : s' ≠ .ready)
    (goesOn : ∀ q n, Completes s (b :: q) n ↔ Completes s' q n) : Stands (p ++ [b]) s' where
  live := live
  ready_iff :=
    ⟨fun h => absurd h hs', fun h => absurd (List.append_eq_nil_iff.mp h).2 (List.cons_ne_nil b [])⟩
  completes_iff b' q n := by
    rw [List.append_assoc, List.singleton_append, h.completes_iff, goesOn]

theorem begins_and_not_encodes (h : Stands p s) (hp : p ≠ []) : Begins p ∧ ∀ c, ¬ Encodes p c := by
  obtain ⟨b, q, c, hc⟩ : ∃ b q c, Encodes (p ++ b :: q) c := by
    obtain ⟨q, n, hq⟩ := h.live.exists_completes fun hs => hp (h.ready_iff.mp hs)
    cases q with
    | nil => exact (by rwa [Completes] at hq : False).elim
    | cons b q =>
      obtain ⟨c, -, hc⟩ := ((h.completes_iff b q n).mpr hq).exists_encodes
      exact ⟨b, q, c, hc⟩
  exact ⟨⟨b :: q, c, hc⟩, fun d hd => nomatch (hd.eq_of_append hc).1⟩

theorem reads_of_taken (h : Stands p s) {b : UInt8} {bytes : Bytes}
    (ih : ∀ {p s}, Stands p s → Reads (p ++ bytes) (outputs s bytes))
    (taken : ∃ q n, Completes s (b :: q) n) : Reads (p ++ b :: bytes) (outputs s (b :: bytes)) := by
  have cut : p ++ b :: bytes = p ++ [b] ++ bytes := by rw [List.append_assoc, List.singleton_append]
  rw [outputs, cut]
  cases effect [CodePoint.replacement] s b with
  | done n only run =>
    obtain ⟨c, rfl, hc⟩ :=
      ((h.completes_iff b [] n).mpr ((only [] n).mpr ⟨rfl, rfl⟩)).exists_encodes
    rw [run, c.ofNat_val]
    exact .point hc (ih stands_nil)
  | goesOn s' live begun same run =>
    rw [run]
    exact ih (h.snoc live begun same)
  | refused none =>
    obtain ⟨q, n, hq⟩ := taken
    exact absurd hq (none q n)

end Stands

/-- The stretch ends where the decoder meets a byte that it does not take. -/
theorem Stands.isStretch (h : Stands p s) (hp : p ≠ []) {rest : Bytes}
    (refused : ∀ b ∈ rest.head?, ¬ ∃ q n, Completes s (b :: q) n) : IsStretch p rest :=
  ⟨hp, .inl (h.begins_and_not_encodes hp).1,
    fun b hb begins => refused b hb ((h.begins_iff b).mp begins)⟩

/-- **From any byte on** the decoder gives what is read off the bytes, those of the character that
is begun included. -/
theorem reads_outputs (h : Stands p s) (bytes : Bytes) : Reads (p ++ bytes) (outputs s bytes) := by
  induction bytes generalizing p s with
  | nil =>
    by_cases hp : p = []
    · obtain rfl := h.ready_iff.mpr hp
      subst hp
      exact .nil
    · have begun : outputs s [] = [CodePoint.replacement] := by
        cases s with
        | ready => exact absurd (h.ready_iff.mp rfl) hp
        | within => rfl
      rw [begun]
      exact .malformed (h.isStretch hp nofun) (h.begins_and_not_encodes hp).2 .nil
  | cons b bytes ih =>
    -- first where no character is begun
    have fresh : Reads (b :: bytes) (outputs .ready (b :: bytes)) := by
      by_cases taken : ∃ q n, Completes .ready (b :: q) n
      · exact stands_nil.reads_of_taken ih taken
      · have none : ¬ Begins [b] := fun begins => taken ((stands_nil.begins_iff b).mp begins)
        rw [outputs, (step_of_refused _ taken).1 rfl]
        refine .malformed (p := [b]) ⟨List.cons_ne_nil b [], .inr rfl, ?_⟩ ?_ (ih stands_nil)
        · exact fun d _ begins => none begins.of_append
        · exact fun c hc => none ⟨[], c, hc⟩
    by_cases taken : ∃ q n, Completes s (b :: q) n
    · exact h.reads_of_taken ih taken
    · by_cases hp : p = []
      · obtain rfl := h.ready_iff.mpr hp
        subst hp
        exact fresh
      · have begun : s ≠ .ready := fun hs => hp (h.ready_iff.mp hs)
        have marked : outputs s (b :: bytes) =
            CodePoint.replacement :: outputs .ready (b :: bytes) := by
          rw [outputs, (step_of_refused _ taken).2 begun]
          rfl
        rw [marked]
        refine .malformed (h.isStretch hp fun d hd => ?_) (h.begins_and_not_encodes hp).2 fresh
        cases hd
        exact taken

/-- **The text that the decoder gives** is the only one that is read off the bytes. -/
theorem reads_iff {bytes : Bytes} {t : Text} : Reads bytes t ↔ t = decode bytes := by
  have reads : Reads bytes (decode bytes) := by
    rw [decode_eq_outputs]
    exact reads_outputs stands_nil bytes
  exact ⟨fun h => h.unique reads, fun h => h ▸ reads⟩

end Utf8

end RepoScan
