import RepoScan.Proofs.ToolReport.Dependencies

/-!
# One advisory in three shapes

A vulnerability of a package can be told in each of the shapes that reports have.  What an entry has
to hold for that differs from shape to shape, and what it comes to does not.

* `DependencyReport.Vulnerability` : what an advisory says, and `Vulnerability.finding` the finding
  that it gives;
* `DependencyReport.Shape.Tells` : the entries that tell of a vulnerability, and `Shape.entry` the
  plainest of them;
* `DependencyReport.Shape.advisory?_of_tells` : such an entry comes to the finding;
* `DependencyReport.collect_filter_isIndirect` : packages that are vulnerable only through others
  come to nothing;
* `DependencyReport.read_shapes_agree` : **reports of all shapes agree** on the vulnerabilities that
  they tell of.
-/

namespace RepoScan.DependencyReport

/-! ### Vulnerabilities -/

/-- What an advisory says of a package.  All but its name may be missing. -/
structure Vulnerability where
  title : Option Text
  severity : Option Text
  module : Text
  version : Option Text

/-- The value of a text that may be missing. -/
def valueOf : Option Text → Value
  | none => .null
  | some t => .text t

/-- The text, or another one where it is missing or empty. -/
def given (t : Option Text) (other : Text) : Text := (t.filter fun t => !t.isEmpty).getD other

namespace Vulnerability

variable (v : Vulnerability)

/-- The package with its version, if that is known. -/
def package : Text :=
  given (some v.module) "unknown" ++
    match given v.version [] with
    | [] => []
    | known => "@" ++ known

/-- The finding of a vulnerability. -/
def finding (manifest : Text) : Finding where
  kind := .vulnerability
  severity := if Text.lower (given v.severity []) = ("critical" : Text) then .critical else .high
  confidence := .high
  description := given v.title "Vulnerable dependency" ++ " in " ++ v.package ++
    " [dependency-audit]"
  file := manifest
  line := 1

end Vulnerability

/-! ### Advisories in the common shape -/

@[simp] theorem toText_orElse_valueOf (t : Option Text) (other : Text) :
    ((valueOf t).orElse (.text other)).toText = given t other := by
  cases t with
  | none => rfl
  | some t => cases t <;> rfl

/-- The entries say what the vulnerability does, in the common shape. -/
structure Says (v : Vulnerability) (a : Advisory) : Prop where
  title : Value.get "title" a = valueOf v.title
  level : Value.get "level" a = valueOf v.severity
  module : Value.get "module_name" a = .text v.module
  version : Value.get "version" a = valueOf v.version

variable {v : Vulnerability} {a : Advisory} {manifest : Text}

theorem packageOf_of_says (h : Says v a) : packageOf a = v.package := by
  have module : ((Value.get "module_name" a).orElse (.text "unknown")).toText =
      given (some v.module) "unknown" := by
    rw [h.module]
    exact toText_orElse_valueOf (some v.module) _
  rw [packageOf, module, h.version, Vulnerability.package]
  cases v.version with
  | none => simp [valueOf, Value.isTruthy, given]
  | some t =>
    cases t with
    | nil => simp [valueOf, Value.isTruthy, given, Option.filter]
    | cons c t => simp [valueOf, Value.isTruthy, Value.toText, given, Option.filter]

theorem findingOf_of_says (h : Says v a) : findingOf manifest a = v.finding manifest := by
  simp only [findingOf, Vulnerability.finding, severityOf, h.title, h.level, packageOf_of_says h,
    toText_orElse_valueOf]

theorem finding_filter_version :
    ({ v with version := v.version.filter fun t => !t.isEmpty } : Vulnerability).finding manifest =
      v.finding manifest := by
  simp only [Vulnerability.finding, Vulnerability.package, given, Option.filter_filter,
    Bool.and_self]

/-! ### Entries that tell of a vulnerability -/

namespace Shape

/-- The entry of a report tells of the vulnerability.  Whatever else its objects hold does not
count. -/
inductive Tells : Shape → Vulnerability → Value × Value → Prop
  /-- The parts stand in the entry itself. -/
  | listed {v : Vulnerability} {key : Value} {es : List (Value × Value)} :
      Value.get "title" es = valueOf v.title → Value.get "level" es = valueOf v.severity →
      Value.get "module_name" es = .text v.module → Value.get "version" es = valueOf v.version →
      Tells .listed v (key, .map es)
  /-- The version stands in the one finding of the entry. -/
  | numbered {v : Vulnerability} {key : Value} {es found : List (Value × Value)} :
      Value.get "title" es = valueOf v.title → Value.get "severity" es = valueOf v.severity →
      Value.get "module_name" es = .text v.module →
      Value.get "findings" es = .list [.map found] →
      Value.get "version" found = valueOf v.version →
      Tells .numbered v (key, .map es)
  /-- The entry is held by the name of the package, and the title stands in its one source. -/
  | named {v : Vulnerability} {es source : List (Value × Value)} :
      Value.get "name" es = .text v.module → Value.get "severity" es = valueOf v.severity →
      Value.get "range" es = valueOf v.version → Value.get "via" es = .list [.map source] →
      Value.get "title" source = valueOf v.title →
      Tells .named v (.text v.module, .map es)

variable {shape : Shape} {e : Value × Value}

theorem firstVersion_singleton {found : List (Value × Value)} {version : Option Text}
    (h : Value.get "version" found = valueOf version) :
    firstVersion (.list [.map found]) = .ok (valueOf (version.filter fun t => !t.isEmpty)) := by
  have items : ((Value.list [.map found]).orElse (.list [])).toItems = .ok [.map found] := rfl
  have versions : ((mappingsOf [.map found]).map fun es => Value.get "version" es) =
      [valueOf version] := congrArg (fun known => [known]) h
  simp only [firstVersion, items, bind, Except.bind, versions]
  cases version with
  | none => rfl
  | some t => cases t <;> rfl

/-- An entry that tells of a vulnerability comes to its finding. -/
theorem advisory?_of_tells (h : shape.Tells v e) (manifest : Text) :
    ∃ a, shape.advisory? e = .ok (some a) ∧ findingOf manifest a = v.finding manifest := by
  cases h with
  | listed title level module version =>
    exact ⟨_, rfl, findingOf_of_says ⟨title, level, module, version⟩⟩
  | @numbered v key es found title severity module findings version =>
    refine ⟨advisory (valueOf v.title) (valueOf v.severity) (.text v.module)
      (valueOf (v.version.filter fun t => !t.isEmpty)), ?_, ?_⟩
    · simp only [advisory?, ofNumbered?, findings, firstVersion_singleton version, title, severity,
        module]
      rfl
    · rw [← finding_filter_version]
      exact findingOf_of_says ⟨rfl, rfl, rfl, rfl⟩
  | @named v es source name severity range via title =>
    have module : (Value.text v.module).orElse (.text v.module) = .text v.module := ite_self _
    refine ⟨advisory (valueOf v.title) (valueOf v.severity) (.text v.module) (valueOf v.version),
      ?_, findingOf_of_says ⟨rfl, rfl, rfl, rfl⟩⟩
    have sources : (Value.list [.map source]).orElse (.list []) = .list [.map source] := rfl
    simp only [advisory?, ofPackage?, via, sources, name, module, severity, range]
    exact congrArg (fun t => Except.ok (some (advisory t _ _ _))) title

/-- The plainest entry that tells of a vulnerability, at a key where the shape leaves one free. -/
def entry (key : Value) (v : Vulnerability) : Shape → Value × Value
  | listed => (key, .map [(.text "title", valueOf v.title), (.text "level", valueOf v.severity),
      (.text "module_name", .text v.module), (.text "version", valueOf v.version)])
  | numbered => (key, .map [(.text "title", valueOf v.title),
      (.text "severity", valueOf v.severity), (.text "module_name", .text v.module),
      (.text "findings", .list [.map [(.text "version", valueOf v.version)]])])
  | named => (.text v.module, .map [(.text "name", .text v.module),
      (.text "severity", valueOf v.severity), (.text "range", valueOf v.version),
      (.text "via", .list [.map [(.text "title", valueOf v.title)]])])

/-- Every vulnerability can be told in each of the shapes. -/
theorem tells_entry (shape : Shape) (key : Value) (v : Vulnerability) :
    shape.Tells v (shape.entry key v) := by
  cases shape with
  | listed => exact .listed rfl rfl rfl rfl
  | numbered => exact .numbered rfl rfl rfl rfl rfl
  | named => exact .named rfl rfl rfl rfl rfl

end Shape

/-! ### Packages that are vulnerable through others -/

/-- The value is a text. -/
def isText : Value → Bool
  | .text _ => true
  | _ => false

/-- The entry is that of a package that is vulnerable only through others: its sources are the names
of those. -/
def isIndirect : Value × Value → Bool
  | (_, .map es) =>
    match Value.get "via" es with
    | .list sources => sources.all isText
    | _ => false
  | _ => false

variable {e : Value × Value}

theorem mappingsOf_of_all_isText {vs : List Value} (h : vs.all isText = true) :
    mappingsOf vs = [] := by
  refine List.filterMap_eq_nil_iff.mpr fun v hv => ?_
  have text := List.all_eq_true.mp h v hv
  cases v <;> first | rfl | cases text

theorem advisory?_of_isIndirect (h : isIndirect e = true) :
    Shape.named.advisory? e = .ok none := by
  obtain ⟨name, value⟩ := e
  cases value with
  | map es =>
    cases hvia : Value.get "via" es with
    | list sources =>
      simp only [isIndirect, hvia] at h
      have items : ((Value.list sources).orElse (.list [])).toItems = .ok sources := by
        cases sources <;> rfl
      simp only [Shape.advisory?, ofPackage?, hvia, items, bind, Except.bind,
        mappingsOf_of_all_isText h]
      rfl
    | _ => simp [isIndirect, hvia] at h
  | _ => cases h

/-! ### Reports -/

variable {vs : List Vulnerability} {shape : Shape} {entries : List (Value × Value)} {report : Value}

theorem collect_of_tells (h : List.Forall₂ shape.Tells vs entries) (manifest : Text) :
    ∃ as, collect shape.advisory? entries = .ok as ∧
      as.map (findingOf manifest) = vs.map fun v => v.finding manifest := by
  induction h with
  | nil => exact ⟨[], rfl, rfl⟩
  | @cons v e vs entries hv _ ih =>
    obtain ⟨a, ha, hfinding⟩ := Shape.advisory?_of_tells hv manifest
    obtain ⟨as, has, hfindings⟩ := ih
    refine ⟨a :: as, ?_, ?_⟩
    · rw [collect, ha, has]
      rfl
    · rw [List.map_cons, List.map_cons, hfinding, hfindings]

/-- **A report that tells of vulnerabilities** comes to their findings, in order. -/
theorem read_of_tells (manifest : Text) (h : entriesOf report = some (shape, entries))
    (ht : List.Forall₂ shape.Tells vs entries) :
    read manifest report = .ok (vs.map fun v => v.finding manifest) := by
  obtain ⟨as, has, hfindings⟩ := collect_of_tells ht manifest
  rw [read, advisories_eq h, has, ← hfindings]
  rfl

/-- Packages that are vulnerable only through others can be left out. -/
theorem collect_filter_isIndirect (entries : List (Value × Value)) :
    collect Shape.named.advisory? (entries.filter fun e => !isIndirect e) =
      collect Shape.named.advisory? entries := by
  induction entries with
  | nil => rfl
  | cons e entries ih =>
    cases he : isIndirect e with
    | true =>
      have passed : collect Shape.named.advisory? (e :: entries) =
          collect Shape.named.advisory? entries := by
        rw [collect, advisory?_of_isIndirect he]
        change (collect Shape.named.advisory? entries >>= fun rest => .ok rest) = _
        cases collect Shape.named.advisory? entries <;> rfl
      rw [List.filter_cons_of_neg (by simp [he]), passed, ih]
    | false =>
      rw [List.filter_cons_of_pos (by simp [he]), collect, collect, ih]

/-- **Reports of all shapes agree.**  Where they tell of the same vulnerabilities in the same order,
they come to the same findings; and packages that are vulnerable only through others may stand
anywhere among those that are held by name. -/
theorem read_shapes_agree (manifest : Text) {listed numbered named : Value}
    {items advisories packages : List (Value × Value)}
    (hlisted : entriesOf listed = some (.listed, items))
    (hitems : List.Forall₂ Shape.listed.Tells vs items)
    (hnumbered : entriesOf numbered = some (.numbered, advisories))
    (hadvisories : List.Forall₂ Shape.numbered.Tells vs advisories)
    (hnamed : entriesOf named = some (.named, packages))
    (hpackages : List.Forall₂ Shape.named.Tells vs packages) :
    ∃ fs, fs = (vs.map fun v => v.finding manifest) ∧ read manifest listed = .ok fs ∧
      read manifest numbered = .ok fs ∧ read manifest named = .ok fs ∧
      ∀ more entries, entriesOf more = some (.named, entries) →
        (entries.filter fun e => !isIndirect e) = packages → read manifest more = .ok fs := by
  refine ⟨_, rfl, read_of_tells manifest hlisted hitems,
    read_of_tells manifest hnumbered hadvisories, read_of_tells manifest hnamed hpackages, ?_⟩
  intro more entries hmore hentries
  rw [← read_of_tells manifest hnamed hpackages, read, read, advisories_eq hmore,
    advisories_eq hnamed, ← hentries, collect_filter_isIndirect]

/-- A vulnerability that is critical, and one of which little is known. -/
def sampleVulnerabilities : List Vulnerability :=
  [⟨some "Prototype pollution", some "Critical", "lodash", some "<4.17.12"⟩,
    ⟨none, some "low", "left-pad", some []⟩]

/-- The entry of a package that is vulnerable only through the first of them. -/
def indirectEntry : Value × Value :=
  (.text "grunt", .map [(.text "name", .text "grunt"), (.text "severity", .text "critical"),
    (.text "via", .list [.text "lodash"])])

/-- Both vulnerabilities in all three shapes, and by name with a third package between them. -/
theorem read_shapes_agree_sample :
    let entries (shape : Shape) : List (Value × Value) :=
      sampleVulnerabilities.map fun v => shape.entry (.text v.module) v
    let found : List Finding :=
      [{ kind := .vulnerability, severity := .critical, confidence := .high,
         description := "Prototype pollution in lodash@<4.17.12 [dependency-audit]",
         file := "package.json", line := 1 },
       { kind := .vulnerability, severity := .high, confidence := .high,
         description := "Vulnerable dependency in left-pad [dependency-audit]",
         file := "package.json", line := 1 }]
    List.Forall₂ Shape.listed.Tells sampleVulnerabilities
        (sampleVulnerabilities.map fun v => Shape.listed.entry .null v) ∧
      List.Forall₂ Shape.numbered.Tells sampleVulnerabilities (entries .numbered) ∧
      List.Forall₂ Shape.named.Tells sampleVulnerabilities (entries .named) ∧
      read "package.json" (.list ((entries .listed).map Prod.snd)) = .ok found ∧
      read "package.json" (.map [(.text "advisories", .map (entries .numbered))]) = .ok found ∧
      read "package.json" (packageReport (entries .named)) = .ok found ∧
      read "package.json" (packageReport ((entries .named).insertIdx 1 indirectEntry)) =
        .ok found := by
  intro entries found
  have tells (shape : Shape) (key : Vulnerability → Value) : List.Forall₂ shape.Tells
      sampleVulnerabilities (sampleVulnerabilities.map fun v => shape.entry (key v) v) :=
    .cons (shape.tells_entry _ _) (.cons (shape.tells_entry _ _) .nil)
  have listed := tells .listed fun _ => .null
  have numbered := tells .numbered fun v => .text v.module
  have named := tells .named fun v => .text v.module
  have list : entriesOf (.list ((entries .listed).map Prod.snd)) = some (.listed, _) := rfl
  have byNumber : entriesOf (.map [(.text "advisories", .map (entries .numbered))]) =
      some (.numbered, entries .numbered) := rfl
  have byName (packages : List (Value × Value)) :
      entriesOf (packageReport packages) = some (.named, packages) := rfl
  obtain ⟨fs, hfs, hlisted, hnumbered, hnamed, hmore⟩ := read_shapes_agree "package.json"
    list listed byNumber numbered (byName (entries .named)) named
  obtain rfl : fs = found := hfs.trans (by decide +kernel)
  exact ⟨listed, numbered, named, hlisted, hnumbered, hnamed, hmore _ _ (byName _) rfl⟩

end RepoScan.DependencyReport
