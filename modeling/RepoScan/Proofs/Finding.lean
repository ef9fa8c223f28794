import RepoScan.Finding
import RepoScan.Proofs.Json.RoundTrip

/-!
# Findings in documents

A finding is written as a record that leaves out what the finding lacks.

* `Finding.ofValue?` : the finding that a record describes;
* `Finding.ofValue?_toValue` : **every finding is found in its record**, so two findings with one
  record are the same;
* `Finding.IsWritable`, `Finding.reread_toValue` : the record of a finding without surrogates is
  read back as it is;
* `Finding.hasTooLong_toValue` : the integers in it are the line and the score.
-/

namespace RepoScan

/-! ### Labels -/

theorem FindingKind.ofLabel_label (k : FindingKind) : ofLabel k.label = .ok k := by
  cases k <;> rfl

theorem Severity.ofLabel_label (s : Severity) : ofLabel s.label = .ok s := by
  cases s <;> rfl

theorem Confidence.ofLabel_label (c : Confidence) : ofLabel c.label = .ok c := by
  cases c <;> rfl

/-! ### Reading records -/

namespace Value

/-- The text that a value is. -/
def text? : Value → Option Text
  | text t => some t
  | _ => none

/-- The integer that a value is. -/
def int? : Value → Option Int
  | int i => some i
  | _ => none

/-- The items of a list. -/
def items? : Value → Option (List Value)
  | list items => some items
  | _ => none

/-- The entries of a mapping. -/
def entries? : Value → Option (List (Value × Value))
  | map es => some es
  | _ => none

/-- What stands at a key that has to be there. -/
def at? {α : Type} (read : Value → Option α) (key : Text) (es : List (Value × Value)) : Option α :=
  (lookup (text key) es).bind read

/-- What stands at a key that may be missing. -/
def atOptional? {α : Type} (read : Value → Option α) (key : Text) (es : List (Value × Value)) :
    Option (Option α) :=
  match lookup (text key) es with
  | none => some none
  | some v => (read v).map some

end Value

/-- The mark that an entry is. -/
def Flags.mark? : Value × Value → Option (Text × Bool)
  | (.text name, .bool b) => some (name, b)
  | _ => none

/-- The marks that a mapping holds. -/
def Flags.ofValue? (v : Value) : Option Flags := do
  (← v.entries?).mapM Flags.mark?

/-- The category that a record describes. -/
def Category.ofValue? (v : Value) : Option Category := do
  let es ← v.entries?
  let byKind ← Value.at? Flags.ofValue? "byType" es
  let bySeverity ← Value.at? Flags.ofValue? "bySeverity" es
  let byLocation ← Value.at? Flags.ofValue? "byLocation" es
  pure ⟨byKind, bySeverity, byLocation⟩

/-- The finding that a record describes. -/
def Finding.ofValue? (v : Value) : Option Finding := do
  let es ← v.entries?
  let kind ← (FindingKind.ofLabel (← Value.at? Value.text? "type" es)).toOption
  let severity ← (Severity.ofLabel (← Value.at? Value.text? "severity" es)).toOption
  let confidence ← (Confidence.ofLabel (← Value.at? Value.text? "confidence" es)).toOption
  let description ← Value.at? Value.text? "description" es
  let file ← Value.at? Value.text? "file" es
  let line ← Value.at? Value.int? "line" es
  let code ← Value.atOptional? Value.text? "code" es
  let score ← Value.atOptional? Value.int? "severityScore" es
  let category ← Value.atOptional? Category.ofValue? "category" es
  pure { kind, severity, confidence, description, file, line, code, score, category }

theorem mapM_map_of_forall {α β : Type} {encode : α → β} {decode : β → Option α}
    (h : ∀ a, decode (encode a) = some a) (l : List α) : (l.map encode).mapM decode = some l := by
  induction l with
  | nil => rfl
  | cons a l ih =>
    rw [List.map_cons, List.mapM_cons, h, ih]
    rfl

theorem Flags.ofValue?_toValue (fs : Flags) : ofValue? fs.toValue = some fs := by
  have mark (f : Text × Bool) : mark? (.text f.1, .bool f.2) = some f := rfl
  exact mapM_map_of_forall mark fs

theorem Category.ofValue?_toValue (c : Category) : ofValue? c.toValue = some c := by
  show (do
    let byKind ← Flags.ofValue? c.byKind.toValue
    let bySeverity ← Flags.ofValue? c.bySeverity.toValue
    let byLocation ← Flags.ofValue? c.byLocation.toValue
    pure (Category.mk byKind bySeverity byLocation)) = _
  simp only [Flags.ofValue?_toValue]
  rfl

/-- **Every finding is found in its record.** -/
theorem Finding.ofValue?_toValue (f : Finding) : ofValue? f.toValue = some f := by
  obtain ⟨kind, severity, confidence, description, file, line, code, score, category⟩ := f
  have shown : ofValue? (toValue ⟨kind, severity, confidence, description, file, line, code, score,
      category⟩) = (do
    let kind ← (FindingKind.ofLabel kind.label).toOption
    let severity ← (Severity.ofLabel severity.label).toOption
    let confidence ← (Confidence.ofLabel confidence.label).toOption
    let category ← match category with
      | none => some none
      | some c => (Category.ofValue? c.toValue).map some
    pure { kind, severity, confidence, description, file, line, code, score, category }) := by
    cases code <;> cases score <;> cases category <;> rfl
  rw [shown, FindingKind.ofLabel_label, Severity.ofLabel_label, Confidence.ofLabel_label]
  cases category with
  | none => rfl
  | some c =>
    simp only [Category.ofValue?_toValue]
    rfl

/-! ### Records that are read back -/

namespace Flags

variable {fs : Flags}

/-- The marks are those of a mapping, and their names hold no surrogates. -/
structure IsWritable (fs : Flags) : Prop where
  nodup : (fs.map Prod.fst).Nodup
  names : ∀ f ∈ fs, f.1.NoSurrogates

theorem reread_toValue (h : fs.IsWritable) : Json.reread fs.toValue = fs.toValue := by
  have keys : Value.HasKeys (fs.map Prod.fst)
      (fs.map fun f => (Value.text f.1, Value.bool f.2)) := ⟨by simp, h.nodup⟩
  refine Json.reread_map_of_values keys ?_ ?_
  · intro k hk
    obtain ⟨f, hf, rfl⟩ := List.mem_map.mp hk
    exact Json.paired_of_noSurrogates (h.names f hf)
  · intro e he
    obtain ⟨f, -, rfl⟩ := List.mem_map.mp he
    rfl

theorem isPlain_toValue (fs : Flags) (depth : Nat) :
    Json.isPlain (depth + 1) fs.toValue = true := by
  rw [toValue, Json.isPlain]
  induction fs with
  | nil => rfl
  | cons f fs ih => simp [Json.entriesPlain, Json.isPlain, ih]

theorem hasTooLong_toValue (fs : Flags) : fs.toValue.hasTooLong = false := by
  rw [toValue, Value.hasTooLong]
  induction fs with
  | nil => rfl
  | cons f fs ih => simp [Value.entriesTooLong, Value.hasTooLong, ih]

end Flags

namespace Category

variable {c : Category}

/-- The marks of each group can be written. -/
structure IsWritable (c : Category) : Prop where
  byKind : c.byKind.IsWritable
  bySeverity : c.bySeverity.IsWritable
  byLocation : c.byLocation.IsWritable

theorem reread_toValue (h : c.IsWritable) : Json.reread c.toValue = c.toValue := by
  have keys : Value.HasKeys ["byType", "bySeverity", "byLocation"]
      [(.text "byType", c.byKind.toValue), (.text "bySeverity", c.bySeverity.toValue),
        (.text "byLocation", c.byLocation.toValue)] := ⟨rfl, by decide⟩
  refine Json.reread_map_of_values keys (by decide) ?_
  simp [Flags.reread_toValue h.byKind, Flags.reread_toValue h.bySeverity,
    Flags.reread_toValue h.byLocation]

theorem isPlain_toValue (c : Category) (depth : Nat) :
    Json.isPlain (depth + 2) c.toValue = true := by
  simp [toValue, Json.isPlain, Json.entriesPlain, Flags.isPlain_toValue]

theorem hasTooLong_toValue (c : Category) : c.toValue.hasTooLong = false := by
  simp [toValue, Value.hasTooLong, Value.entriesTooLong, Flags.hasTooLong_toValue]

end Category

namespace Finding

variable {f : Finding}

/-- The line or the score of the finding is too long to be written. -/
def hasTooLong (f : Finding) : Bool := Value.isTooLong f.line || f.score.any Value.isTooLong

/-- The texts of the finding hold no surrogates, its integers can be written, and its marks are
those of mappings. -/
structure IsWritable (f : Finding) : Prop where
  description : f.description.NoSurrogates
  file : f.file.NoSurrogates
  code : ∀ t ∈ f.code, t.NoSurrogates
  category : ∀ c ∈ f.category, c.IsWritable
  short : f.hasTooLong = false

/-- The keys of a record, which tell the parts that the finding has. -/
def keysWith (hasCode hasScore hasCategory : Bool) : List Text :=
  [("type" : Text), "severity", "confidence", "description", "file", "line"]
    ++ (if hasCode then [("code" : Text)] else [])
    ++ (if hasScore then [("severityScore" : Text)] else [])
    ++ if hasCategory then [("category" : Text)] else []

theorem reread_toValue (h : f.IsWritable) : Json.reread f.toValue = f.toValue := by
  obtain ⟨kind, severity, confidence, description, file, line, code, score, category⟩ := f
  have text {t : Text} (ht : t.NoSurrogates) : Json.paired t = t := Json.paired_of_noSurrogates ht
  have kindText : Json.paired kind.label = kind.label := by cases kind <;> decide
  have severityText : Json.paired severity.label = severity.label := by cases severity <;> decide
  have confidenceText : Json.paired confidence.label = confidence.label := by
    cases confidence <;> decide
  have fine : ∀ a b c, (keysWith a b c).Nodup ∧ ∀ k ∈ keysWith a b c, Json.paired k = k := by decide
  obtain ⟨nodup, paired⟩ := fine code.isSome score.isSome category.isSome
  refine Json.reread_map_of_values ⟨?_, nodup⟩ paired ?_
  · cases code <;> cases score <;> cases category <;> simp [keysWith]
  · have hcode := h.code
    have hcategory := h.category
    cases code <;> cases score <;> cases category <;>
      simp_all [Json.reread, text h.description, text h.file, Category.reread_toValue]

theorem isPlain_toValue (f : Finding) (depth : Nat) :
    Json.isPlain (depth + 3) f.toValue = true := by
  obtain ⟨kind, severity, confidence, description, file, line, code, score, category⟩ := f
  cases code <;> cases score <;> cases category <;>
    simp [toValue, Json.isPlain, Json.entriesPlain, Category.isPlain_toValue]

theorem hasTooLong_toValue (f : Finding) : f.toValue.hasTooLong = f.hasTooLong := by
  obtain ⟨kind, severity, confidence, description, file, line, code, score, category⟩ := f
  cases code <;> cases score <;> cases category <;>
    simp [toValue, hasTooLong, Value.hasTooLong, Value.entriesTooLong, Category.hasTooLong_toValue]

end Finding

end RepoScan
