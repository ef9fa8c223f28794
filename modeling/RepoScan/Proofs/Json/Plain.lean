import Mathlib.Tactic.SplitIfs
import RepoScan.Proofs.Json.Text

/-!
# Plain documents

The documents that JSON has a form for, real numbers aside, and what they look like as texts.

* `Json.isPlain`, `Json.isPlain_succ` : documents, with a bound for the levels that they have;
* `Json.Style.IsBlank` : the ways of setting parts apart that the reader ignores;
* `Json.noSurrogates_writeIndented` : **no character of what is written is a surrogate**, whatever
  the texts of the document hold.
-/

namespace RepoScan.Json

/-! ### Plain documents -/

mutual

/-- The value is a document without real numbers whose lists and mappings are nested in at most
`depth` levels. -/
def isPlain : (depth : Nat) → Value → Bool
  | _, .null | _, .bool _ | _, .int _ | _, .text _ => true
  | depth + 1, .list items => itemsPlain depth items
  | depth + 1, .map entries => entriesPlain depth entries
  | _, _ => false

/-- The items are such documents. -/
def itemsPlain : (depth : Nat) → List Value → Bool
  | _, [] => true
  | depth, v :: vs => isPlain depth v && itemsPlain depth vs

/-- The keys are texts and the values are such documents. -/
def entriesPlain : (depth : Nat) → List (Value × Value) → Bool
  | _, [] => true
  | depth, (.text _, v) :: es => isPlain depth v && entriesPlain depth es
  | _, _ => false

end

mutual

/-- There may be more levels than a document has. -/
theorem isPlain_succ (v : Value) {depth : Nat} (h : isPlain depth v = true) :
    isPlain (depth + 1) v = true := by
  cases v with
  | null | bool _ | int _ | text _ => simp [isPlain]
  | list items =>
    cases depth with
    | zero => simp [isPlain] at h
    | succ depth => exact itemsPlain_succ items h
  | map entries =>
    cases depth with
    | zero => simp [isPlain] at h
    | succ depth => exact entriesPlain_succ entries h
  | real _ | bytes _ | date _ | moment _ | pair _ _ | set _ | again _ => simp [isPlain] at h

theorem itemsPlain_succ (items : List Value) {depth : Nat} (h : itemsPlain depth items = true) :
    itemsPlain (depth + 1) items = true := by
  cases items with
  | nil => rfl
  | cons v vs =>
    rw [itemsPlain, Bool.and_eq_true] at h ⊢
    exact ⟨isPlain_succ v h.1, itemsPlain_succ vs h.2⟩

theorem entriesPlain_succ (entries : List (Value × Value)) {depth : Nat}
    (h : entriesPlain depth entries = true) : entriesPlain (depth + 1) entries = true := by
  cases entries with
  | nil => rfl
  | cons e es =>
    obtain ⟨k, v⟩ := e
    cases k with
    | text k =>
      rw [entriesPlain, Bool.and_eq_true] at h ⊢
      exact ⟨isPlain_succ v h.1, entriesPlain_succ es h.2⟩
    | _ => simp [entriesPlain] at h

end

theorem itemsPlain_eq (depth : Nat) (items : List Value) :
    itemsPlain depth items = items.all (isPlain depth) := by
  induction items with
  | nil => rfl
  | cons v vs ih => rw [itemsPlain, ih, List.all_cons]

theorem entriesPlain_append (depth : Nat) (es es' : List (Value × Value)) :
    entriesPlain depth (es ++ es') = (entriesPlain depth es && entriesPlain depth es') := by
  induction es with
  | nil => rfl
  | cons e es ih =>
    obtain ⟨k, v⟩ := e
    cases k with
    | text k => rw [List.cons_append, entriesPlain, entriesPlain, ih, Bool.and_assoc]
    | _ => simp [entriesPlain]

/-! ### Setting parts apart -/

theorem isBlank_iff {c : CodePoint} :
    isBlank c = true ↔ c.val = 32 ∨ c.val = 9 ∨ c.val = 10 ∨ c.val = 13 := by
  simp [isBlank, or_assoc]

/-- Nothing but blanks and a comma between two parts sets the parts apart. -/
structure Style.IsBlank (style : Style) : Prop where
  opening : ∀ n, ∀ c ∈ style.opening n, Json.isBlank c = true
  between : ∀ n, ∃ blanks, style.between n = (',' : CodePoint) :: blanks ∧
    ∀ c ∈ blanks, Json.isBlank c = true
  closing : ∀ n, ∀ c ∈ style.closing n, Json.isBlank c = true

theorem Style.isBlank_indented : Style.indented.IsBlank := by
  have margin (n : Nat) : ∀ c ∈ ('\n' : CodePoint) :: List.replicate n (' ' : CodePoint),
      Json.isBlank c = true := by
    intro c hc
    rcases List.mem_cons.mp hc with rfl | hc
    · decide
    · rw [(List.mem_replicate.mp hc).2]
      decide
  exact ⟨fun n => margin (2 * n), fun n => ⟨_, rfl, margin (2 * n)⟩, fun n => margin (2 * (n - 1))⟩

/-! ### The characters of documents -/

theorem isSurrogate_ofChar (c : Char) : (CodePoint.ofChar c).isSurrogate = false := by
  have valid := c.valid
  simp only [UInt32.isValidChar, Nat.isValidChar] at valid
  rw [CodePoint.isSurrogate_eq_false_iff, CodePoint.val_ofChar, Char.toNat]
  omega

theorem noSurrogates_map (cs : List Char) : Text.NoSurrogates (cs.map CodePoint.ofChar) := by
  intro c hc
  obtain ⟨d, -, rfl⟩ := List.mem_map.mp hc
  exact isSurrogate_ofChar d

theorem noSurrogates_append {s t : Text} (hs : s.NoSurrogates) (ht : t.NoSurrogates) :
    Text.NoSurrogates (s ++ t) := by
  intro c hc
  rcases List.mem_append.mp hc with hc | hc
  · exact hs c hc
  · exact ht c hc

theorem noSurrogates_join {sep : Text} (hs : sep.NoSurrogates) {ts : List Text}
    (h : ∀ t ∈ ts, t.NoSurrogates) : (Text.join sep ts).NoSurrogates := by
  induction ts with
  | nil => nofun
  | cons t ts ih =>
    obtain ⟨ht, hts⟩ := List.forall_mem_cons.mp h
    cases ts with
    | nil => rwa [Text.join, List.intercalate_singleton]
    | cons u us =>
      rw [Text.join, List.intercalate_cons_cons]
      exact noSurrogates_append (noSurrogates_append ht hs) (ih hts)

theorem noSurrogates_ofInt (i : Int) : (Text.ofInt i).NoSurrogates := by
  cases i with
  | ofNat n => exact noSurrogates_map _
  | negSucc n => exact noSurrogates_append (noSurrogates_map ['-']) (noSurrogates_map _)

theorem noSurrogates_escapeUnit (n : Nat) : (escapeUnit n).NoSurrogates := by
  refine noSurrogates_append (noSurrogates_map _) (noSurrogates_append ?_ (noSurrogates_map _))
  intro c hc
  rw [(List.mem_replicate.mp hc).2]
  exact isSurrogate_ofChar '0'

theorem noSurrogates_escapeChar (c : CodePoint) : (escapeChar c).NoSurrogates := by
  rw [escapeChar]
  split_ifs with h₁ h₂ h₃ h₄ h₅ h₆ h₇ printable first
  -- the escapes of a letter, a character that stands for itself, and the numeric escapes
  · exact noSurrogates_map _
  · exact noSurrogates_map _
  · exact noSurrogates_map _
  · exact noSurrogates_map _
  · exact noSurrogates_map _
  · exact noSurrogates_map _
  · exact noSurrogates_map _
  · intro d hd
    obtain rfl := List.mem_singleton.mp hd
    simp only [Bool.and_eq_true, decide_eq_true_eq] at printable
    rw [CodePoint.isSurrogate_eq_false_iff]
    omega
  · exact noSurrogates_escapeUnit _
  · exact noSurrogates_append (noSurrogates_escapeUnit _) (noSurrogates_escapeUnit _)

theorem noSurrogates_writeString (t : Text) : (writeString t).NoSurrogates := by
  refine noSurrogates_append (noSurrogates_append (noSurrogates_map _) ?_) (noSurrogates_map _)
  intro c hc
  obtain ⟨d, -, hd⟩ := List.mem_flatMap.mp hc
  exact noSurrogates_escapeChar d c hd

theorem noSurrogates_of_isBlank {t : Text} (h : ∀ c ∈ t, isBlank c = true) : t.NoSurrogates := by
  intro c hc
  have blank := isBlank_iff.mp (h c hc)
  rw [CodePoint.isSurrogate_eq_false_iff]
  omega

theorem noSurrogates_between {style : Style} (hs : style.IsBlank) (n : Nat) :
    (style.between n).NoSurrogates := by
  obtain ⟨blanks, between, hb⟩ := hs.between n
  rw [between]
  exact noSurrogates_append (noSurrogates_map [',']) (noSurrogates_of_isBlank hb)

theorem noSurrogates_around {style : Style} (hs : style.IsBlank) {opening closing : Text}
    (ho : opening.NoSurrogates) (hc : closing.NoSurrogates) (n : Nat) {ts : List Text}
    (h : ∀ t ∈ ts, t.NoSurrogates) :
    Text.NoSurrogates (opening ++ style.opening n ++ Text.join (style.between n) ts
      ++ style.closing n ++ closing) := by
  refine noSurrogates_append (noSurrogates_append (noSurrogates_append (noSurrogates_append ho ?_)
    (noSurrogates_join (noSurrogates_between hs n) h)) ?_) hc
  · exact noSurrogates_of_isBlank (hs.opening n)
  · exact noSurrogates_of_isBlank (hs.closing n)

mutual

/-- No character of what is written is a surrogate. -/
theorem noSurrogates_writeAt {style : Style} (hs : style.IsBlank) (v : Value) {depth : Nat}
    (h : isPlain depth v = true) (n : Nat) : (writeAt style n v).NoSurrogates := by
  cases v with
  | null => exact noSurrogates_map _
  | bool b => cases b <;> exact noSurrogates_map _
  | int i => exact noSurrogates_ofInt i
  | text t => exact noSurrogates_writeString t
  | list items =>
    cases depth with
    | zero => simp [isPlain] at h
    | succ depth =>
      cases items with
      | nil => exact noSurrogates_map _
      | cons v vs =>
        exact noSurrogates_around hs (noSurrogates_map _) (noSurrogates_map _) n
          (noSurrogates_writeItems hs (v :: vs) h n)
  | map entries =>
    cases depth with
    | zero => simp [isPlain] at h
    | succ depth =>
      cases entries with
      | nil => exact noSurrogates_map _
      | cons e es =>
        exact noSurrogates_around hs (noSurrogates_map _) (noSurrogates_map _) n
          (noSurrogates_writeEntries hs (e :: es) h n)
  | real _ | bytes _ | date _ | moment _ | pair _ _ | set _ | again _ => simp [isPlain] at h

theorem noSurrogates_writeItems {style : Style} (hs : style.IsBlank) (items : List Value)
    {depth : Nat} (h : itemsPlain depth items = true) (n : Nat) :
    ∀ t ∈ writeItems style n items, t.NoSurrogates := by
  cases items with
  | nil => nofun
  | cons v vs =>
    rw [itemsPlain, Bool.and_eq_true] at h
    exact List.forall_mem_cons.mpr
      ⟨noSurrogates_writeAt hs v h.1 (n + 1), noSurrogates_writeItems hs vs h.2 n⟩

theorem noSurrogates_writeEntries {style : Style} (hs : style.IsBlank)
    (entries : List (Value × Value)) {depth : Nat} (h : entriesPlain depth entries = true)
    (n : Nat) :
    ∀ t ∈ writeEntries style n entries, t.NoSurrogates := by
  cases entries with
  | nil => nofun
  | cons e es =>
    obtain ⟨k, v⟩ := e
    cases k with
    | text k =>
      rw [entriesPlain, Bool.and_eq_true] at h
      refine List.forall_mem_cons.mpr ⟨?_, noSurrogates_writeEntries hs es h.2 n⟩
      exact noSurrogates_append (noSurrogates_append (noSurrogates_writeString k)
        (noSurrogates_map _)) (noSurrogates_writeAt hs v h.1 (n + 1))
    | _ => simp [entriesPlain] at h

end

/-- **No character of a document is a surrogate**, whatever its texts hold. -/
theorem noSurrogates_writeIndented {v : Value} {depth : Nat} (h : isPlain depth v = true) :
    (writeIndented v).NoSurrogates :=
  noSurrogates_writeAt Style.isBlank_indented v h 1

end RepoScan.Json
