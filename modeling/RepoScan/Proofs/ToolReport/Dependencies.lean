import Mathlib
import RepoScan.Json.Reader
import RepoScan.Proofs.Result
import RepoScan.ToolReport.Dependencies

/-!
# What reports of the dependency audit come to

Reports come in three shapes, and each holds its advisories in entries.  An entry is read by itself:
it gives a finding, is passed over, or fails.  It fails only where a part that should have items is
given as something that has none; then the whole report fails.

* `DependencyReport.entriesOf` : the shape of a report, and its entries;
* `DependencyReport.exists_advisory?_iff` : an entry is read, if it is not malformed;
* `DependencyReport.read_eq_ok_iff` : a report comes to what its entries come to, exactly where none
  of them is malformed;
* `DependencyReport.read_insert_iff` : **one more entry** leaves what the others come to, exactly
  where no entry is malformed.
-/

namespace RepoScan

/-! ### Items -/

namespace Value

/-- The value has items, none perhaps. -/
def hasItems : Value → Bool
  | list _ | set _ | pair .. | map _ | text _ | bytes _ => true
  | _ => false

/-- The value counts as given, but has no items: of what a report can hold, true and the numbers
other than zero. -/
def isItemless (v : Value) : Bool := v.isTruthy && !v.hasItems

theorem exists_toItems_iff {v : Value} : (∃ items, v.toItems = .ok items) ↔ v.hasItems = true := by
  cases v with
  | list | set | pair | map | text | bytes => exact iff_of_true ⟨_, rfl⟩ rfl
  | _ => exact iff_of_false nofun nofun

/-- A value that need not be given can be gone through, unless it is given without items. -/
theorem exists_toItems_orElse_iff {v : Value} :
    (∃ items, (v.orElse (.list [])).toItems = .ok items) ↔ v.isItemless = false := by
  rw [exists_toItems_iff, orElse, isItemless]
  cases v.isTruthy with
  | false => exact iff_of_true rfl rfl
  | true =>
    rw [if_pos rfl]
    cases v.hasItems <;> decide

end Value

namespace DependencyReport

/-! ### Entries -/

/-- How a report holds its advisories. -/
inductive Shape where
  /-- As a list. -/
  | listed
  /-- By number, in an object. -/
  | numbered
  /-- By the names of packages, in an object. -/
  | named

/-- The entries of packages: a value that is no object holds none. -/
def packagesOf : Value → List (Value × Value)
  | .map packages => packages
  | _ => []

/-- The shape of a report, and the entries that hold its advisories.  The items of a list are taken
as entries at null, and a report that is neither array nor object has no shape. -/
def entriesOf : Value → Option (Shape × List (Value × Value))
  | .list items => some (.listed, items.map fun v => (.null, v))
  | .map es =>
    match Value.get "advisories" es with
    | .map numbered => some (.numbered, numbered)
    | _ => some (.named, packagesOf (Value.get "vulnerabilities" es))
  | _ => none

namespace Shape

/-- The advisory of an entry; `none` where it is passed over. -/
def advisory? : Shape → Value × Value → Except Failure (Option Advisory)
  | listed, (_, .map es) => .ok (some es)
  | listed, _ => .ok none
  | numbered, e => ofNumbered? e.2
  | named, e => ofPackage? e.1 e.2

/-- The part of the entry that should have items is given without. -/
def isMalformed : Shape → Value × Value → Bool
  | numbered, (_, .map es) => (Value.get "findings" es).isItemless
  | named, (_, .map es) => (Value.get "via" es).isItemless
  | _, _ => false

/-- What an entry comes to. -/
def findings (manifest : Text) (shape : Shape) (e : Value × Value) : List Finding :=
  match shape.advisory? e with
  | .ok (some a) => [findingOf manifest a]
  | _ => []

end Shape

variable {shape : Shape} {e : Value × Value} {entries : List (Value × Value)} {report : Value}

theorem exists_firstVersion_iff {v : Value} :
    (∃ version, firstVersion v = .ok version) ↔ v.isItemless = false := by
  rw [← Value.exists_toItems_orElse_iff]
  constructor
  · rintro ⟨version, h⟩
    obtain ⟨items, hitems, -⟩ := exists_of_bind_eq_ok h
    exact ⟨items, hitems⟩
  · rintro ⟨items, hitems⟩
    exact ⟨_, congrArg (· >>= _) hitems⟩

theorem exists_ofNumbered?_iff :
    (∃ a, ofNumbered? e.2 = .ok a) ↔ Shape.numbered.isMalformed e = false := by
  obtain ⟨key, v⟩ := e
  cases v with
  | map es =>
    change _ ↔ (Value.get "findings" es).isItemless = false
    rw [← exists_firstVersion_iff]
    constructor
    · rintro ⟨a, h⟩
      obtain ⟨version, hversion, -⟩ := exists_of_bind_eq_ok h
      exact ⟨version, hversion⟩
    · rintro ⟨version, hversion⟩
      exact ⟨_, congrArg (· >>= _) hversion⟩
  | _ => exact iff_of_true ⟨none, rfl⟩ rfl

theorem exists_ofPackage?_iff :
    (∃ a, ofPackage? e.1 e.2 = .ok a) ↔ Shape.named.isMalformed e = false := by
  obtain ⟨name, v⟩ := e
  cases v with
  | map es =>
    change _ ↔ (Value.get "via" es).isItemless = false
    rw [← Value.exists_toItems_orElse_iff]
    constructor
    · rintro ⟨a, h⟩
      obtain ⟨sources, hsources, -⟩ := exists_of_bind_eq_ok h
      exact ⟨sources, hsources⟩
    · rintro ⟨sources, hsources⟩
      -- a package without advisories of its own is passed over
      cases hown : mappingsOf sources with
      | nil => exact ⟨none, by simp only [ofPackage?, hsources, bind, Except.bind, hown]; rfl⟩
      | cons source rest =>
        exact ⟨some _, by simp only [ofPackage?, hsources, bind, Except.bind, hown]; rfl⟩
  | _ => exact iff_of_true ⟨none, rfl⟩ rfl

/-- An entry is read, if it is not malformed. -/
theorem exists_advisory?_iff :
    (∃ a, shape.advisory? e = .ok a) ↔ shape.isMalformed e = false := by
  cases shape with
  | listed =>
    obtain ⟨key, v⟩ := e
    cases v <;> exact iff_of_true ⟨_, rfl⟩ rfl
  | numbered => exact exists_ofNumbered?_iff
  | named => exact exists_ofPackage?_iff

/-! ### Reports -/

theorem collect_listed (items : List Value) :
    collect Shape.listed.advisory? (items.map fun v => (.null, v)) = .ok (mappingsOf items) := by
  induction items with
  | nil => rfl
  | cons v items ih =>
    rw [List.map_cons, collect, ih]
    cases v <;> rfl

theorem collect_packagesOf (v : Value) :
    collect Shape.named.advisory? (packagesOf v) =
      match v with
      | .map packages => collect (fun e => ofPackage? e.1 e.2) packages
      | _ => .ok [] := by
  cases v <;> rfl

theorem advisories_eq (h : entriesOf report = some (shape, entries)) :
    advisories report = collect shape.advisory? entries := by
  cases report with
  | list items =>
    cases h
    exact (collect_listed items).symm
  | map es =>
    rw [entriesOf] at h
    rw [advisories]
    generalize Value.get "advisories" es = known at h ⊢
    cases known with
    | map numbered =>
      cases h
      rfl
    | _ =>
      cases h
      exact (collect_packagesOf _).symm
  | _ => cases h

theorem exists_collect_iff :
    (∃ as, collect shape.advisory? entries = .ok as) ↔
      ∀ e ∈ entries, shape.isMalformed e = false := by
  induction entries with
  | nil => exact iff_of_true ⟨[], rfl⟩ nofun
  | cons e es ih =>
    rw [List.forall_mem_cons, ← ih, ← exists_advisory?_iff]
    exact exists_bind_bind_iff

theorem findings_of_collect (manifest : Text) {as : List Advisory}
    (h : collect shape.advisory? entries = .ok as) :
    as.map (findingOf manifest) = entries.flatMap (shape.findings manifest) := by
  induction entries generalizing as with
  | nil =>
    cases h
    rfl
  | cons e es ih =>
    obtain ⟨a, ha, h⟩ := exists_of_bind_eq_ok h
    obtain ⟨rest, hrest, h⟩ := exists_of_bind_eq_ok h
    cases h
    rw [List.map_append, ih hrest, List.flatMap_cons, Shape.findings, ha]
    cases a <;> rfl

theorem exists_read_iff (manifest : Text) (h : entriesOf report = some (shape, entries)) :
    (∃ fs, read manifest report = .ok fs) ↔ ∀ e ∈ entries, shape.isMalformed e = false := by
  rw [← exists_collect_iff, read, advisories_eq h]
  cases collect shape.advisory? entries with
  | error e => exact iff_of_false nofun nofun
  | ok as => exact iff_of_true ⟨_, rfl⟩ ⟨_, rfl⟩

/-- **A report comes to what its entries come to**, exactly where none of them is malformed. -/
theorem read_eq_ok_iff (manifest : Text) (h : entriesOf report = some (shape, entries)) :
    read manifest report = .ok (entries.flatMap (shape.findings manifest)) ↔
      ∀ e ∈ entries, shape.isMalformed e = false := by
  rw [← exists_read_iff manifest h]
  refine ⟨fun hread => ⟨_, hread⟩, ?_⟩
  rintro ⟨fs, hread⟩
  have hread' := hread
  rw [read, advisories_eq h] at hread'
  obtain ⟨as, has, rfl⟩ := exists_of_map_eq_ok hread'
  rw [hread, findings_of_collect manifest has]

theorem exists_entriesOf (h : (∃ items, report = .list items) ∨ ∃ es, report = .map es) :
    ∃ shape entries, entriesOf report = some (shape, entries) := by
  rcases h with ⟨items, rfl⟩ | ⟨es, rfl⟩
  · exact ⟨_, _, rfl⟩
  · rw [entriesOf]
    cases Value.get "advisories" es <;> exact ⟨_, _, rfl⟩

/-- **One more entry leaves what the others come to**, in place, exactly where no entry is
malformed; and every array or object is read, exactly where none of its entries is malformed. -/
theorem read_insert_iff (manifest : Text) :
    (∀ report, ((∃ items, report = .list items) ∨ ∃ es, report = .map es) →
      ∃ shape entries, entriesOf report = some (shape, entries) ∧
        ((∃ fs, read manifest report = .ok fs) ↔ ∀ e ∈ entries, shape.isMalformed e = false)) ∧
    ∀ report more shape front e back,
      entriesOf report = some (shape, front ++ back) →
      entriesOf more = some (shape, front ++ e :: back) →
        ((read manifest report = .ok (front.flatMap (shape.findings manifest) ++
            back.flatMap (shape.findings manifest)) ∧
          read manifest more = .ok (front.flatMap (shape.findings manifest) ++
            (shape.findings manifest e ++ back.flatMap (shape.findings manifest)))) ↔
          ∀ x ∈ front ++ e :: back, shape.isMalformed x = false) := by
  constructor
  · intro report hreport
    obtain ⟨shape, entries, h⟩ := exists_entriesOf hreport
    exact ⟨shape, entries, h, exists_read_iff manifest h⟩
  · intro report more shape front e back h h'
    rw [← List.flatMap_append, ← List.flatMap_cons, ← List.flatMap_append,
      read_eq_ok_iff manifest h, read_eq_ok_iff manifest h']
    refine and_iff_right_of_imp fun all x hx => all x ?_
    exact (List.mem_append.mp hx).elim (List.mem_append_left _)
      fun hx => List.mem_append_right _ (List.mem_cons_of_mem e hx)

/-- The entry of a package with an advisory of its own. -/
def plainEntry (name : Text) : Value × Value :=
  (.text name, .map [(.text "severity", .text "critical"),
    (.text "via", .list [.map [(.text "title", .text "T")]]), (.text "range", .text "<1")])

/-- A report of packages by name. -/
def packageReport (entries : List (Value × Value)) : Value :=
  .map [(.text "vulnerabilities", .map entries)]

/-- An entry that is no object stands between two others. -/
theorem read_insert_number :
    read "package.json" (packageReport [plainEntry "a", plainEntry "b"]) =
        .ok ([plainEntry "a"].flatMap (Shape.named.findings "package.json") ++
          [plainEntry "b"].flatMap (Shape.named.findings "package.json")) ∧
      read "package.json" (packageReport [plainEntry "a", (.text "m", .int 5), plainEntry "b"]) =
        .ok ([plainEntry "a"].flatMap (Shape.named.findings "package.json") ++
          (Shape.named.findings "package.json" (.text "m", .int 5) ++
            [plainEntry "b"].flatMap (Shape.named.findings "package.json"))) :=
  ((read_insert_iff "package.json").2 (packageReport [plainEntry "a", plainEntry "b"])
    (packageReport [plainEntry "a", (.text "m", .int 5), plainEntry "b"]) .named
    [plainEntry "a"] (.text "m", .int 5) [plainEntry "b"] rfl rfl).mpr (by
      simp only [List.cons_append, List.nil_append, List.forall_mem_cons]
      exact ⟨rfl, rfl, rfl, nofun⟩)

/-- The entry of a package whose advisories are given as true. -/
def truthEntry : Value × Value := (.text "a", .map [(.text "via", .bool true)])

/-- A package whose advisories are given as true hides the other package of its report. -/
theorem read_insert_truthEntry :
    Json.read ("\x7b\"vulnerabilities\": \x7b\"a\": \x7b\"via\": true\x7d, " ++
      "\"b\": \x7b\"severity\": \"critical\", \"via\": [\x7b\"title\": \"T\"\x7d], " ++
      "\"range\": \"<1\"\x7d\x7d\x7d") = .ok (packageReport [truthEntry, plainEntry "b"]) ∧
      read "package.json" (packageReport [plainEntry "b"]) =
        .ok [{ kind := .vulnerability, severity := .critical, confidence := .high,
               description := "T in b@<1 [dependency-audit]", file := "package.json", line := 1 }] ∧
      read "package.json" (packageReport [truthEntry, plainEntry "b"]) =
        .error (.notIterable "bool") := by
  refine ⟨?_, ?_, ?_⟩
  · cbv
  · rfl
  · rfl

end DependencyReport

end RepoScan
