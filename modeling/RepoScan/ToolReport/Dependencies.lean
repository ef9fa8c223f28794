import RepoScan.Finding
import RepoScan.Text.Case
import RepoScan.Value.Conversion

/-!
# Reports of the dependency audit

Three shapes of report are known: a list of advisories, an object that holds advisories by number,
and an object that holds vulnerable packages by name.  All are brought into the first shape, a
mapping for each advisory with title, level, module name and version.

A package that is vulnerable only through others names no advisory of its own and is passed over.
-/

namespace RepoScan.DependencyReport

/-- The entries of an advisory. -/
abbrev Advisory := List (Value × Value)

/-- An advisory in the common shape. -/
def advisory (title level module version : Value) : Advisory :=
  [(.text "title", title), (.text "level", level), (.text "module_name", module),
    (.text "version", version)]

/-- The entries of the items that are mappings. -/
def mappingsOf (vs : List Value) : List (List (Value × Value)) :=
  vs.filterMap fun v => match v with
    | .map es => some es
    | _ => none

/-- The first version that the findings of an advisory name, as text. -/
def firstVersion (findings : Value) : Except Failure Value := do
  let items ← (findings.orElse (.list [])).toItems
  let versions := (mappingsOf items).map fun es => Value.get "version" es
  pure (match versions.find? Value.isTruthy with
    | some v => .text v.toText
    | none => .null)

/-- The advisory of an entry that is held by number. -/
def ofNumbered? : Value → Except Failure (Option Advisory)
  | .map es => do
    let version ← firstVersion (Value.get "findings" es)
    pure (some (advisory (Value.get "title" es) (Value.get "severity" es)
      (Value.get "module_name" es) version))
  | _ => .ok none

/-- The advisory of a package that is held by name. -/
def ofPackage? (name : Value) : Value → Except Failure (Option Advisory)
  | .map es => do
    let sources ← ((Value.get "via" es).orElse (.list [])).toItems
    match mappingsOf sources with
    | [] => pure none
    | source :: _ =>
      pure (some (advisory (Value.get "title" source) (Value.get "severity" es)
        ((Value.get "name" es).orElse name) (Value.get "range" es)))
  | _ => .ok none

/-- The advisories of entries, each read by `read`. -/
def collect (read : Value × Value → Except Failure (Option Advisory)) :
    List (Value × Value) → Except Failure (List Advisory)
  | [] => .ok []
  | e :: es => do
    let a ← read e
    let rest ← collect read es
    pure (a.toList ++ rest)

/-- The advisories of a report, in the common shape. -/
def advisories : Value → Except Failure (List Advisory)
  | .list items => .ok (mappingsOf items)
  | .map es =>
    match Value.get "advisories" es with
    | .map numbered => collect (fun e => ofNumbered? e.2) numbered
    | _ =>
      match Value.get "vulnerabilities" es with
      | .map packages => collect (fun e => ofPackage? e.1 e.2) packages
      | _ => .ok []
  | _ => .error .auditReportShape

/-- The severity of an advisory with a level. -/
def severityOf (level : Value) : Severity :=
  let word := (level.orElse (.text [])).toText
  if Text.lower word = ("critical" : Text) then .critical else .high

/-- The package that an advisory is about, with its version where it is known. -/
def packageOf (a : Advisory) : Text :=
  let module := ((Value.get "module_name" a).orElse (.text "unknown")).toText
  let version := Value.get "version" a
  if version.isTruthy then module ++ "@" ++ version.toText else module

/-- The finding of an advisory. -/
def findingOf (manifest : Text) (a : Advisory) : Finding where
  kind := .vulnerability
  severity := severityOf (Value.get "level" a)
  confidence := .high
  description := ((Value.get "title" a).orElse (.text "Vulnerable dependency")).toText ++ " in "
    ++ packageOf a ++ " [dependency-audit]"
  file := manifest
  line := 1

/-- The findings of a report. -/
def read (manifest : Text) (report : Value) : Except Failure (List Finding) :=
  (advisories report).map fun as => as.map (findingOf manifest)

end RepoScan.DependencyReport
