import RepoScan.Proofs.Json.Plain
import RepoScan.Proofs.Text.Basic
import RepoScan.Proofs.Text.Digits
import RepoScan.Proofs.Value

/-!
# Documents are read back

What is written as JSON is read back, whichever way its parts are set apart: as the value itself,
but for the surrogate pairs in its texts and for keys that are there twice.

* `Json.takeNumber_ofNat` : an integer that can be written is read back;
* `Json.reread` : the value that the reader gives for what is written of a value;
* `Json.read_writeIndented` : **a plain document is read back**, with a line for each of its parts,
  unless it has an integer that is too long to be written.
-/

namespace RepoScan.Json

/-! ### Numbers -/

/-- No number goes on in the text. -/
def EndsNumber (t : Text) : Prop :=
  ∀ c ∈ t.head?, c.isAsciiDigit = false ∧ c ≠ '.' ∧ c ≠ 'e' ∧ c ≠ 'E'

theorem endsNumber_nil : EndsNumber [] := nofun

theorem endsNumber_cons {c : CodePoint}
    (h : c.isAsciiDigit = false ∧ c ≠ '.' ∧ c ≠ 'e' ∧ c ≠ 'E') (t : Text) :
    EndsNumber (c :: t) := by
  intro d hd
  obtain rfl : c = d := Option.some.inj hd
  exact h

theorem isAsciiDigit_ofChar {d : Char} (h : d.isDigit = true) :
    (CodePoint.ofChar d).isAsciiDigit = true := by
  have bounds := toNat_of_isDigit h
  simp [CodePoint.isAsciiDigit, CodePoint.between, bounds]

theorem isAsciiDigit_of_mem_ofNat {n : Nat} {c : CodePoint} (h : c ∈ Text.ofNat n) :
    c.isAsciiDigit = true := by
  obtain ⟨d, hd, rfl⟩ := Text.exists_digit_of_mem_ofNat h
  exact isAsciiDigit_ofChar hd

theorem head_ofNat {n : Nat} (h : 0 < n) : ∃ d ds, Text.ofNat n = d :: ds ∧ d ≠ '0' := by
  induction n using Nat.strongRecOn with
  | ind n ih =>
    by_cases hn : n < 10
    · refine ⟨CodePoint.ofChar (Nat.digitChar n), [], ?_, ?_⟩
      · rw [Text.ofNat, Nat.toDigits_of_lt_base hn]
        rfl
      · have all : ∀ n < 10, 0 < n → CodePoint.ofChar (Nat.digitChar n) ≠ '0' := by decide
        exact all n hn h
    · -- the digits of `n / 10` come first
      obtain ⟨d, ds, hds, hd⟩ := ih (n / 10) (by omega) (by omega)
      refine ⟨d, ds ++ [CodePoint.ofChar (Nat.digitChar (n % 10))], ?_, hd⟩
      rw [Text.ofNat, Nat.toDigits_of_base_le (by decide) (by omega), List.map_append]
      exact congrArg (· ++ _) hds

theorem digitsValue_ofNat (n : Nat) : digitsValue (Text.ofNat n) = n := by
  have value (ds : List Char) (k : Nat) :
      (ds.map CodePoint.ofChar).foldl (fun n c => n * 10 + (c.val - 48)) k =
        Nat.ofDigitChars 10 ds k := by
    induction ds generalizing k with
    | nil => rfl
    | cons d ds ih =>
      rw [List.map_cons, List.foldl_cons, ih, Nat.ofDigitChars_cons, Nat.mul_comm k]
      rfl
  rw [digitsValue, Text.ofNat, value, Nat.ofDigitChars_ten_toDigits]

theorem takeDigits_ofNat (n : Nat) {rest : Text} (h : EndsNumber rest) :
    takeDigits (Text.ofNat n ++ rest) = (Text.ofNat n, rest) := by
  have digits : ∀ c ∈ Text.ofNat n, c.isAsciiDigit = true := fun _ => isAsciiDigit_of_mem_ofNat
  rw [takeDigits, List.takeWhile_append_of_pos digits, List.dropWhile_append_of_pos digits]
  cases rest with
  | nil => simp
  | cons c rest => simp [(h c rfl).1]

/-- An integer that can be written is read back. -/
theorem takeNumber_ofNat {n : Nat} (hn : n < Nat.pow 10 Number.maxDigits) (negative : Bool)
    {rest : Text} (h : EndsNumber rest) :
    takeNumber negative (Text.ofNat n ++ rest) =
      .ok (.int (if negative then -(n : Int) else n), rest) := by
  have short : ¬ Number.maxDigits < (Text.ofNat n).length := Nat.not_lt.mpr
    ((Text.length_ofNat_le_iff (by decide)).mpr hn)
  have some : (Text.ofNat n).isEmpty = false :=
    List.isEmpty_eq_false_iff.mpr (Text.ofNat_ne_nil n)
  have whole : ∃ c t, Text.ofNat n ++ rest = c :: t ∧
      (if c = '0' then ([c], t) else takeDigits (c :: t)) = (Text.ofNat n, rest) := by
    by_cases hpos : 0 < n
    · obtain ⟨d, ds, hds, hd⟩ := head_ofNat hpos
      refine ⟨d, ds ++ rest, by rw [hds]; rfl, ?_⟩
      rw [if_neg hd, ← takeDigits_ofNat n h, hds]
      rfl
    · obtain rfl : n = 0 := by omega
      exact ⟨'0', rest, rfl, rfl⟩
  obtain ⟨c, t, text, whole⟩ := whole
  have fraction : takeFraction rest = ([], rest) := by
    cases rest with
    | nil => rfl
    | cons c rest => simp [takeFraction, (h c rfl).2.1]
  have exponent : takeExponent rest = (none, rest) := by
    cases rest with
    | nil => rfl
    | cons c rest => simp [takeExponent, (h c rfl).2.2.1, (h c rfl).2.2.2]
  rw [text]
  simp only [takeNumber, whole, fraction, exponent, some, short, digitsValue_ofNat]
  rfl

/-! ### What is read -/

mutual

/-- The value that the reader gives for what is written of a value. -/
def reread : Value → Value
  | .text t => .text (paired t)
  | .list items => .list (rereadItems items)
  | .map entries => .ofEntries (rereadEntries entries)
  | v => v

/-- What the reader gives for items. -/
def rereadItems : List Value → List Value
  | [] => []
  | v :: vs => reread v :: rereadItems vs

/-- What the reader gives for entries, each by itself. -/
def rereadEntries : List (Value × Value) → List (Value × Value)
  | [] => []
  | (k, v) :: es => (reread k, reread v) :: rereadEntries es

end

/-! ### Blanks -/

theorem skipBlanks_of_not_isBlank {c : CodePoint} (h : isBlank c = false) (t : Text) :
    skipBlanks (c :: t) = c :: t := by
  simp [skipBlanks, h]

theorem skipBlanks_append {blanks : Text} (h : ∀ c ∈ blanks, isBlank c = true) (t : Text) :
    skipBlanks (blanks ++ t) = skipBlanks t :=
  List.dropWhile_append_of_pos h

theorem endsNumber_append {blanks t : Text} (h : ∀ c ∈ blanks, isBlank c = true)
    (ht : EndsNumber t) : EndsNumber (blanks ++ t) := by
  cases blanks with
  | nil => exact ht
  | cons c blanks =>
    have hc := isBlank_iff.mp (h c List.mem_cons_self)
    have ne {d : CodePoint} (hd : isBlank d = false) : c ≠ d := by
      rintro rfl
      exact Bool.eq_false_iff.mp hd (h c List.mem_cons_self)
    refine endsNumber_cons ⟨?_, ne (by decide), ne (by decide), ne (by decide)⟩ _
    rw [Bool.eq_false_iff]
    simp only [CodePoint.isAsciiDigit, CodePoint.between, Bool.and_eq_true, decide_eq_true_eq,
      Char.reduceToNat, ne_eq, not_and, Nat.not_le]
    omega

/-! ### Values -/

/-- The text goes on with a part of a document, not with a blank or a closing bracket. -/
def BeginsPart (t : Text) : Prop :=
  ∃ c rest, t = c :: rest ∧ isBlank c = false ∧ c ≠ ']' ∧ c ≠ '\x7d'

theorem BeginsPart.append {t : Text} (h : BeginsPart t) (rest : Text) : BeginsPart (t ++ rest) := by
  obtain ⟨c, t, rfl, hc⟩ := h
  exact ⟨c, t ++ rest, rfl, hc⟩

theorem BeginsPart.skipBlanks {t : Text} (h : BeginsPart t) : skipBlanks t = t := by
  obtain ⟨c, t, rfl, hc, -⟩ := h
  exact skipBlanks_of_not_isBlank hc t

theorem beginsPart_ofNat (n : Nat) : BeginsPart (Text.ofNat n) := by
  obtain ⟨c, t, h⟩ := List.exists_cons_of_ne_nil (Text.ofNat_ne_nil n)
  have digit : c.isAsciiDigit = true := isAsciiDigit_of_mem_ofNat (h ▸ List.mem_cons_self)
  have ne {d : CodePoint} (hd : d.isAsciiDigit = false) : c ≠ d := by
    rintro rfl
    rw [digit] at hd
    cases hd
  refine ⟨c, t, h, ?_, ne (by decide), ne (by decide)⟩
  rw [Bool.eq_false_iff, Ne, isBlank_iff]
  simp only [CodePoint.isAsciiDigit, CodePoint.between, Bool.and_eq_true, decide_eq_true_eq,
    Char.reduceToNat] at digit
  omega

theorem beginsPart_writeAt (style : Style) (n : Nat) {depth : Nat} {v : Value}
    (h : isPlain depth v = true) : BeginsPart (writeAt style n v) := by
  have mark {c : CodePoint} (hc : isBlank c = false ∧ c ≠ ']' ∧ c ≠ '\x7d') (t : Text) :
      BeginsPart (c :: t) := ⟨c, t, rfl, hc⟩
  cases v with
  | null => exact mark (by decide) _
  | bool b => cases b <;> exact mark (by decide) _
  | int i =>
    cases i with
    | ofNat k => exact beginsPart_ofNat k
    | negSucc k => exact mark (c := '-') (by decide) _
  | text t => exact mark (c := '"') (by decide) _
  | list items => cases items <;> exact mark (c := '[') (by decide) _
  | map entries => cases entries <;> exact mark (c := '\x7b') (by decide) _
  | real x | bytes b | date d | moment m | pair a b | set items | again c => simp [isPlain] at h

theorem BeginsPart.join {t : Text} (h : BeginsPart t) (sep : Text) (ts : List Text) :
    BeginsPart (Text.join sep (t :: ts)) := by
  cases ts with
  | nil => rwa [Text.join, List.intercalate_singleton]
  | cons u ts =>
    rw [Text.join, List.intercalate_cons_cons, List.append_assoc]
    exact h.append _

theorem beginsPart_writeItems {style : Style} {n depth : Nat} {v : Value} {vs : List Value}
    (h : itemsPlain depth (v :: vs) = true) (sep : Text) :
    BeginsPart (Text.join sep (writeItems style n (v :: vs))) := by
  rw [itemsPlain, Bool.and_eq_true] at h
  exact (beginsPart_writeAt style (n + 1) h.1).join sep _

theorem beginsPart_writeEntries {style : Style} {n depth : Nat} {e : Value × Value}
    {es : List (Value × Value)} (h : entriesPlain depth (e :: es) = true) (sep : Text) :
    BeginsPart (Text.join sep (writeEntries style n (e :: es))) := by
  obtain ⟨k, v⟩ := e
  cases k with
  | text k =>
    refine BeginsPart.join ?_ sep _
    rw [List.append_assoc]
    exact BeginsPart.append ⟨'"', _, rfl, by decide⟩ _
  | _ => simp [entriesPlain] at h

theorem takeValue_cons (fuel depth : Nat) (c : CodePoint) (t : Text) :
    takeValue (fuel + 1) depth (c :: t) =
      if c = '"' then
        match takeString? .plain false t [] with
        | some (s, rest) => .ok (.text s, rest)
        | none => .error .malformedJson
      else if c = '[' then
        match depth, skipBlanks t with
        | 0, _ => .error .tooDeep
        | depth + 1, d :: rest =>
          if d = ']' then .ok (.list [], rest) else takeItems fuel depth (d :: rest) []
        | _, [] => .error .malformedJson
      else if c = '\x7b' then
        match depth, skipBlanks t with
        | 0, _ => .error .tooDeep
        | depth + 1, d :: rest =>
          if d = '\x7d' then .ok (.map [], rest) else takeEntries fuel depth (d :: rest) []
        | _, [] => .error .malformedJson
      else match takeKeyword? (c :: t) with
        | some r => .ok r
        | none => if c = '-' then takeNumber true t else takeNumber false (c :: t) :=
  takeValue.eq_def _ _ _

theorem takeValue_text (fuel depth : Nat) (t rest : Text) :
    takeValue (fuel + 1) depth (writeString t ++ rest) = .ok (.text (paired t), rest) := by
  have whole : writeString t ++ rest =
      ('"' : CodePoint) :: (t.flatMap escapeChar ++ ('"' : CodePoint) :: rest) := by
    simp [writeString, Text.ofString]
  rw [whole, takeValue_cons, if_pos rfl, takeString?_escaped]
  rfl

theorem takeValue_keyword {c : CodePoint} {t rest : Text} {v : Value}
    (h : takeKeyword? (c :: (t ++ rest)) = some (v, rest))
    (hc : c ≠ '"' ∧ c ≠ '[' ∧ c ≠ '\x7b') (fuel depth : Nat) :
    takeValue (fuel + 1) depth (c :: (t ++ rest)) = .ok (v, rest) := by
  rw [takeValue_cons, if_neg hc.1, if_neg hc.2.1, if_neg hc.2.2, h]

theorem takeKeyword?_of_digit {t : Text} (h : (t.take 2).any (·.isAsciiDigit) = true) :
    takeKeyword? t = none := by
  have words : ∀ w ∈ keywords, 2 ≤ w.1.length ∧ (w.1.take 2).any (·.isAsciiDigit) = false := by
    decide
  rw [takeKeyword?, List.findSome?_eq_none_iff]
  intro w hw
  obtain ⟨long, letters⟩ := words w hw
  cases ha : Text.after? w.1 t with
  | none => simp [ha]
  | some rest =>
    rw [Text.after?_eq_some_iff.mp ha, List.take_append_of_le_length long, letters] at h
    cases h

theorem takeValue_int {i : Int} (h : Value.isTooLong i = false) (fuel depth : Nat) {rest : Text}
    (hr : EndsNumber rest) :
    takeValue (fuel + 1) depth (Text.ofInt i ++ rest) = .ok (.int i, rest) := by
  have short : i.natAbs < Nat.pow 10 Number.maxDigits := by
    simpa [Value.isTooLong] using h
  have digit (k : Nat) : ∃ d ds, Text.ofNat k = d :: ds ∧ d.isAsciiDigit = true := by
    obtain ⟨d, ds, hds⟩ := List.exists_cons_of_ne_nil (Text.ofNat_ne_nil k)
    exact ⟨d, ds, hds, isAsciiDigit_of_mem_ofNat (hds ▸ List.mem_cons_self)⟩
  have ne {d c : CodePoint} (hd : d.isAsciiDigit = true) (hc : c.isAsciiDigit = false) : d ≠ c := by
    rintro rfl
    rw [hd] at hc
    cases hc
  cases i with
  | ofNat k =>
    obtain ⟨d, ds, hds, hd⟩ := digit k
    have number : takeNumber false (Text.ofNat k ++ rest) = .ok (.int k, rest) :=
      takeNumber_ofNat short false hr
    have word : takeKeyword? (d :: (ds ++ rest)) = none := takeKeyword?_of_digit (by simp [hd])
    show takeValue (fuel + 1) depth (Text.ofNat k ++ rest) = _
    rw [hds, List.cons_append] at number ⊢
    rw [takeValue_cons, if_neg (ne hd (by decide)), if_neg (ne hd (by decide)),
      if_neg (ne hd (by decide)), word]
    simp only [if_neg (ne hd (by decide : CodePoint.isAsciiDigit '-' = false)), number]
    rfl
  | negSucc k =>
    obtain ⟨d, ds, hds, hd⟩ := digit (k + 1)
    have number : takeNumber true (Text.ofNat (k + 1) ++ rest) = .ok (.int (.negSucc k), rest) :=
      takeNumber_ofNat short true hr
    have word : takeKeyword? ('-' :: d :: (ds ++ rest)) = none :=
      takeKeyword?_of_digit (by simp [hd])
    show takeValue (fuel + 1) depth (('-' : CodePoint) :: (Text.ofNat (k + 1) ++ rest)) = _
    rw [hds, List.cons_append] at number ⊢
    rw [takeValue_cons, if_neg (by decide), if_neg (by decide), if_neg (by decide), word]
    simp only [if_true, number]

/-! ### Lists and mappings, part by part -/

section Parts

variable {fuel depth : Nat} {blanks inside rest t : Text} {v : Value}

theorem takeValue_list (hb : ∀ c ∈ blanks, isBlank c = true) (hi : BeginsPart inside) :
    takeValue (fuel + 1) (depth + 1) ('[' :: (blanks ++ inside)) =
      takeItems fuel depth inside [] := by
  have skipped : skipBlanks (blanks ++ inside) = inside := by
    rw [skipBlanks_append hb, hi.skipBlanks]
  obtain ⟨c, more, rfl, -, hc, -⟩ := hi
  rw [takeValue_cons, if_neg (by decide), if_pos rfl, skipped]
  exact if_neg hc

theorem takeValue_map (hb : ∀ c ∈ blanks, isBlank c = true) (hi : BeginsPart inside) :
    takeValue (fuel + 1) (depth + 1) ('\x7b' :: (blanks ++ inside)) =
      takeEntries fuel depth inside [] := by
  have skipped : skipBlanks (blanks ++ inside) = inside := by
    rw [skipBlanks_append hb, hi.skipBlanks]
  obtain ⟨c, more, rfl, -, -, hc⟩ := hi
  rw [takeValue_cons, if_neg (by decide), if_neg (by decide), if_pos rfl, skipped]
  exact if_neg hc

theorem takeItems_last (hb : ∀ c ∈ blanks, isBlank c = true)
    (h : takeValue fuel depth t = .ok (v, blanks ++ (']' : CodePoint) :: rest))
    (done : List Value) :
    takeItems (fuel + 1) depth t done = .ok (.list (done.reverse ++ [v]), rest) := by
  have skipped : skipBlanks (blanks ++ (']' : CodePoint) :: rest) = (']' : CodePoint) :: rest := by
    rw [skipBlanks_append hb, skipBlanks_of_not_isBlank (by decide)]
  rw [takeItems.eq_def]
  simp only [h, skipped, if_true, List.reverse_cons]

theorem takeItems_more (hb : ∀ c ∈ blanks, isBlank c = true) (hi : BeginsPart inside)
    (h : takeValue fuel depth t = .ok (v, (',' : CodePoint) :: (blanks ++ inside)))
    (done : List Value) :
    takeItems (fuel + 1) depth t done = takeItems fuel depth inside (v :: done) := by
  have skipped : skipBlanks (blanks ++ inside) = inside := by
    rw [skipBlanks_append hb, hi.skipBlanks]
  have comma : (',' : CodePoint) ≠ ']' := by decide
  rw [takeItems.eq_def]
  simp only [h, skipBlanks_of_not_isBlank (c := ',') (by decide), skipped, comma, if_false, if_true]

theorem takeEntries_key (k : Text) (ht : BeginsPart t) (done : List (Value × Value)) :
    takeEntries (fuel + 1) depth (writeString k ++ (": " ++ t)) done =
      match takeValue fuel depth t with
      | .error e => .error e
      | .ok (v, rest) =>
        match skipBlanks rest with
        | c :: rest =>
          if c = '\x7d' then .ok (.ofEntries ((.text (paired k), v) :: done).reverse, rest)
          else if c = ',' then
            takeEntries fuel depth (skipBlanks rest) ((.text (paired k), v) :: done)
          else .error .malformedJson
        | [] => .error .malformedJson := by
  have whole : writeString k ++ (": " ++ t) = ('"' : CodePoint) :: (k.flatMap escapeChar ++
      ('"' : CodePoint) :: (':' : CodePoint) :: (' ' : CodePoint) :: t) := by
    simp [writeString, Text.ofString]
  have colon : skipBlanks ((':' : CodePoint) :: (' ' : CodePoint) :: t) =
      (':' : CodePoint) :: (' ' : CodePoint) :: t := skipBlanks_of_not_isBlank (by decide) _
  have blank : skipBlanks ((' ' : CodePoint) :: t) = t := by
    rw [← List.singleton_append, skipBlanks_append (by decide), ht.skipBlanks]
  rw [whole, takeEntries.eq_def]
  simp only [if_true, takeString?_escaped, colon, blank]
  rfl

theorem takeEntries_last (hb : ∀ c ∈ blanks, isBlank c = true) (k : Text) (ht : BeginsPart t)
    (h : takeValue fuel depth t = .ok (v, blanks ++ ('\x7d' : CodePoint) :: rest))
    (done : List (Value × Value)) :
    takeEntries (fuel + 1) depth (writeString k ++ (": " ++ t)) done =
      .ok (.ofEntries (done.reverse ++ [(.text (paired k), v)]), rest) := by
  have skipped : skipBlanks (blanks ++ ('\x7d' : CodePoint) :: rest) =
      ('\x7d' : CodePoint) :: rest := by
    rw [skipBlanks_append hb, skipBlanks_of_not_isBlank (by decide)]
  rw [takeEntries_key k ht]
  simp only [h, skipped, if_true, List.reverse_cons]

theorem takeEntries_more (hb : ∀ c ∈ blanks, isBlank c = true) (hi : BeginsPart inside) (k : Text)
    (ht : BeginsPart t)
    (h : takeValue fuel depth t = .ok (v, (',' : CodePoint) :: (blanks ++ inside)))
    (done : List (Value × Value)) :
    takeEntries (fuel + 1) depth (writeString k ++ (": " ++ t)) done =
      takeEntries fuel depth inside ((.text (paired k), v) :: done) := by
  have skipped : skipBlanks (blanks ++ inside) = inside := by
    rw [skipBlanks_append hb, hi.skipBlanks]
  have comma : (',' : CodePoint) ≠ '\x7d' := by decide
  rw [takeEntries_key k ht]
  simp only [h, skipBlanks_of_not_isBlank (c := ',') (by decide), skipped, comma, if_false, if_true]

end Parts

/-! ### Whole documents -/

section Whole

variable {style : Style} (hs : style.IsBlank)

include hs

mutual

/-- What is written of a plain value is read back. -/
theorem takeValue_writeAt (v : Value) {depth fuel n : Nat} {rest : Text}
    (h : isPlain depth v = true) (hl : v.hasTooLong = false)
    (hf : (writeAt style n v).length ≤ fuel) (hr : EndsNumber rest) :
    takeValue fuel depth (writeAt style n v ++ rest) = .ok (reread v, rest) := by
  obtain ⟨f, rfl⟩ : ∃ f, fuel = f + 1 := by
    obtain ⟨c, t, hc, -⟩ := beginsPart_writeAt style n h
    rw [hc, List.length_cons] at hf
    exact ⟨fuel - 1, by omega⟩
  cases v with
  | null => exact takeValue_keyword (c := 'n') rfl (by decide) f depth
  | bool b =>
    cases b with
    | true => exact takeValue_keyword (c := 't') rfl (by decide) f depth
    | false => exact takeValue_keyword (c := 'f') rfl (by decide) f depth
  | int i => exact takeValue_int hl f depth hr
  | text t => exact takeValue_text f depth t rest
  | list items =>
    cases depth with
    | zero => simp [isPlain] at h
    | succ depth =>
      cases items with
      | nil =>
        show takeValue (f + 1) (depth + 1) ('[' :: ']' :: rest) = _
        rw [takeValue_cons, if_neg (by decide), if_pos rfl,
          skipBlanks_of_not_isBlank (by decide)]
        rfl
      | cons v vs =>
        have whole : writeAt style n (.list (v :: vs)) ++ rest = ('[' : CodePoint) ::
            (style.opening n ++ (Text.join (style.between n) (writeItems style n (v :: vs)) ++
              (style.closing n ++ (']' : CodePoint) :: rest))) := by
          simp [writeAt, Text.ofString]
        have fits : (Text.join (style.between n) (writeItems style n (v :: vs))).length < f := by
          have length := congrArg List.length whole
          simp only [List.length_append, List.length_cons] at length
          omega
        rw [whole, takeValue_list (hs.opening n) ((beginsPart_writeItems h _).append _)]
        exact takeItems_writeItems (v :: vs) [] nofun h hl fits
  | map entries =>
    cases depth with
    | zero => simp [isPlain] at h
    | succ depth =>
      cases entries with
      | nil =>
        show takeValue (f + 1) (depth + 1) ('\x7b' :: '\x7d' :: rest) = _
        rw [takeValue_cons, if_neg (by decide), if_neg (by decide), if_pos rfl,
          skipBlanks_of_not_isBlank (by decide)]
        rfl
      | cons e es =>
        have whole : writeAt style n (.map (e :: es)) ++ rest = ('\x7b' : CodePoint) ::
            (style.opening n ++ (Text.join (style.between n) (writeEntries style n (e :: es)) ++
              (style.closing n ++ ('\x7d' : CodePoint) :: rest))) := by
          simp [writeAt, Text.ofString]
        have fits : (Text.join (style.between n) (writeEntries style n (e :: es))).length < f := by
          have length := congrArg List.length whole
          simp only [List.length_append, List.length_cons] at length
          omega
        rw [whole, takeValue_map (hs.opening n) ((beginsPart_writeEntries h _).append _)]
        exact takeEntries_writeEntries (e :: es) [] nofun h hl fits
  | real _ | bytes _ | date _ | moment _ | pair _ _ | set _ | again _ => simp [isPlain] at h

/-- So are the items of a list, up to its end. -/
theorem takeItems_writeItems (items : List Value) {depth fuel n : Nat} {rest : Text}
    (done : List Value) (hne : items ≠ []) (h : itemsPlain depth items = true)
    (hl : Value.itemsTooLong items = false)
    (hf : (Text.join (style.between n) (writeItems style n items)).length < fuel) :
    takeItems fuel depth (Text.join (style.between n) (writeItems style n items) ++
        (style.closing n ++ (']' : CodePoint) :: rest)) done =
      .ok (.list (done.reverse ++ rereadItems items), rest) := by
  obtain ⟨f, rfl⟩ : ∃ f, fuel = f + 1 := ⟨fuel - 1, by omega⟩
  cases items with
  | nil => exact absurd rfl hne
  | cons v vs =>
    obtain ⟨hv, hvs⟩ : isPlain depth v = true ∧ itemsPlain depth vs = true := by
      simpa [itemsPlain] using h
    obtain ⟨short, shorts⟩ : v.hasTooLong = false ∧ Value.itemsTooLong vs = false := by
      simpa [Value.itemsTooLong] using hl
    cases vs with
    | nil =>
      have only : Text.join (style.between n) (writeItems style n [v]) =
          writeAt style (n + 1) v := List.intercalate_singleton ..
      rw [only] at hf ⊢
      refine takeItems_last (hs.closing n) (takeValue_writeAt v hv short (by omega) ?_) done
      exact endsNumber_append (hs.closing n) (endsNumber_cons (by decide) rest)
    | cons w ws =>
      obtain ⟨blanks, between, hb⟩ := hs.between n
      have next : Text.join (style.between n) (writeItems style n (v :: w :: ws)) =
          writeAt style (n + 1) v ++ ((',' : CodePoint) :: (blanks ++
            Text.join (style.between n) (writeItems style n (w :: ws)))) := by
        rw [← List.cons_append, ← between, ← List.append_assoc]
        exact List.intercalate_cons_cons ..
      have fits := congrArg List.length next
      simp only [List.length_append, List.length_cons] at fits
      have value (more : Text) : takeValue f depth (writeAt style (n + 1) v ++
          (',' : CodePoint) :: more) = .ok (reread v, (',' : CodePoint) :: more) :=
        takeValue_writeAt v hv short (by omega) (endsNumber_cons (by decide) more)
      rw [next, List.append_assoc, List.cons_append, List.append_assoc,
        takeItems_more hb ((beginsPart_writeItems hvs _).append _) (value _),
        takeItems_writeItems (w :: ws) (reread v :: done) nofun hvs shorts (by omega),
        List.reverse_cons, List.append_assoc]
      rfl

/-- So are the entries of a mapping, up to its end. -/
theorem takeEntries_writeEntries (entries : List (Value × Value)) {depth fuel n : Nat}
    {rest : Text} (done : List (Value × Value)) (hne : entries ≠ [])
    (h : entriesPlain depth entries = true) (hl : Value.entriesTooLong entries = false)
    (hf : (Text.join (style.between n) (writeEntries style n entries)).length < fuel) :
    takeEntries fuel depth (Text.join (style.between n) (writeEntries style n entries) ++
        (style.closing n ++ ('\x7d' : CodePoint) :: rest)) done =
      .ok (.ofEntries (done.reverse ++ rereadEntries entries), rest) := by
  obtain ⟨f, rfl⟩ : ∃ f, fuel = f + 1 := ⟨fuel - 1, by omega⟩
  cases entries with
  | nil => exact absurd rfl hne
  | cons e es =>
    obtain ⟨key, v⟩ := e
    obtain ⟨k, rfl⟩ : ∃ k, key = .text k := by
      cases key with
      | text k => exact ⟨k, rfl⟩
      | _ => simp [entriesPlain] at h
    obtain ⟨hv, hes⟩ : isPlain depth v = true ∧ entriesPlain depth es = true := by
      simpa [entriesPlain] using h
    obtain ⟨short, shorts⟩ : v.hasTooLong = false ∧ Value.entriesTooLong es = false := by
      simpa [Value.entriesTooLong, Value.hasTooLong] using hl
    have begins := beginsPart_writeAt style (n + 1) hv
    cases es with
    | nil =>
      have only : Text.join (style.between n) (writeEntries style n [(.text k, v)]) =
          writeString k ++ (": " ++ writeAt style (n + 1) v) := by
        rw [← List.append_assoc]
        exact List.intercalate_singleton ..
      have fits := congrArg List.length only
      simp only [List.length_append] at fits
      have value : takeValue f depth (writeAt style (n + 1) v ++
          (style.closing n ++ ('\x7d' : CodePoint) :: rest)) =
            .ok (reread v, style.closing n ++ ('\x7d' : CodePoint) :: rest) :=
        takeValue_writeAt v hv short (by omega)
          (endsNumber_append (hs.closing n) (endsNumber_cons (by decide) rest))
      rw [only, List.append_assoc, List.append_assoc,
        takeEntries_last (hs.closing n) k (begins.append _) value]
      rfl
    | cons e es =>
      obtain ⟨blanks, between, hb⟩ := hs.between n
      have next : Text.join (style.between n) (writeEntries style n ((.text k, v) :: e :: es)) =
          writeString k ++ (": " ++ (writeAt style (n + 1) v ++ ((',' : CodePoint) :: (blanks ++
            Text.join (style.between n) (writeEntries style n (e :: es)))))) := by
        rw [← List.cons_append, ← between, ← List.append_assoc, ← List.append_assoc,
          ← List.append_assoc]
        exact List.intercalate_cons_cons ..
      have fits := congrArg List.length next
      simp only [List.length_append, List.length_cons] at fits
      have value (more : Text) : takeValue f depth (writeAt style (n + 1) v ++
          (',' : CodePoint) :: more) = .ok (reread v, (',' : CodePoint) :: more) :=
        takeValue_writeAt v hv short (by omega) (endsNumber_cons (by decide) more)
      rw [next]
      simp only [List.append_assoc, List.cons_append]
      rw [takeEntries_more hb ((beginsPart_writeEntries hes _).append _) k (begins.append _)
          (value _),
        takeEntries_writeEntries (e :: es) ((.text (paired k), reread v) :: done) nofun hes shorts
          (by omega),
        List.reverse_cons, List.append_assoc]
      rfl

end

end Whole

/-- **A plain document is read back**, unless it has an integer that is too long to be written. -/
theorem read_writeIndented {v : Value} (h : isPlain maxNesting v = true)
    (hl : v.hasTooLong = false) : read (writeIndented v) = .ok (reread v) := by
  have begins := beginsPart_writeAt Style.indented 1 h
  have value : takeValue ((writeIndented v).length + 1) maxNesting (writeIndented v ++ []) =
      .ok (reread v, []) :=
    takeValue_writeAt Style.isBlank_indented v h hl (Nat.le_succ _) endsNumber_nil
  rw [List.append_nil, writeIndented] at value
  rw [read, writeIndented, begins.skipBlanks]
  simp only [value]
  rfl

/-! ### What is read is what was written -/

theorem rereadItems_eq (items : List Value) : rereadItems items = items.map reread := by
  induction items with
  | nil => rfl
  | cons v vs ih => rw [rereadItems, ih, List.map_cons]

theorem rereadEntries_eq (entries : List (Value × Value)) :
    rereadEntries entries = entries.map fun e => (reread e.1, reread e.2) := by
  induction entries with
  | nil => rfl
  | cons e es ih =>
    obtain ⟨k, v⟩ := e
    rw [rereadEntries, ih, List.map_cons]

section Entries

variable {ks : List Text} {es : List (Value × Value)} (h : Value.HasKeys ks es)
  (hp : ∀ k ∈ ks, paired k = k)

include h hp

theorem hasKeys_rereadEntries : Value.HasKeys ks (rereadEntries es) := by
  refine ⟨?_, h.nodup⟩
  have kept : ks.map (fun k => reread (.text k)) = ks.map Value.text :=
    List.map_congr_left fun k hk => congrArg Value.text (hp k hk)
  have keys := congrArg (List.map reread) h.keys
  rw [List.map_map, List.map_map] at keys
  rw [rereadEntries_eq, List.map_map, ← kept]
  exact keys

theorem reread_map : reread (.map es) = .map (rereadEntries es) :=
  Value.ofEntries_eq (hasKeys_rereadEntries h hp)

/-- A mapping whose values are read back as they are is read back as it is. -/
theorem reread_map_of_values (hv : ∀ e ∈ es, reread e.2 = e.2) : reread (.map es) = .map es := by
  rw [reread_map h hp, rereadEntries_eq]
  congr 1
  refine (List.map_congr_left fun e he => ?_).trans (List.map_id es)
  obtain ⟨k, hk, hkey⟩ : ∃ k ∈ ks, Value.text k = e.1 :=
    List.mem_map.mp (h.keys ▸ List.mem_map_of_mem he)
  rw [hv e he, ← hkey, reread, hp k hk, hkey]
  rfl

theorem lookup_rereadEntries {k : Text} {v : Value} (hmem : (.text k, v) ∈ es) :
    Value.lookup (.text k) (rereadEntries es) = some (reread v) := by
  have hk : k ∈ ks := by
    have key : Value.text k ∈ es.map Prod.fst := List.mem_map_of_mem hmem
    rw [h.keys] at key
    obtain ⟨l, hl, heq⟩ := List.mem_map.mp key
    exact Value.text.inj heq ▸ hl
  refine (hasKeys_rereadEntries h hp).lookup_of_mem ?_
  rw [rereadEntries_eq]
  refine List.mem_map.mpr ⟨_, hmem, ?_⟩
  rw [reread, hp k hk]

end Entries

end RepoScan.Json
