import RepoScan.Finding
import RepoScan.Path
import RepoScan.Value.Conversion

/-!
# Reports of the secret scanner

The scanner reports a list of hits.  Its versions spell the keys differently, so each part of a hit
is looked up under all of its spellings.  Hits without a file, and items that are no mappings, are
passed over.
-/

namespace RepoScan

/-- The line that a tool reports; whatever names no line from one on counts as the first line. -/
def lineNumber (v : Value) : Except Failure Int :=
  match v.toInt with
  | .ok n => .ok (if 1 ≤ n then n else 1)
  | .error .infinityToInteger => .error .infinityToInteger
  | .error _ => .ok 1

namespace SecretReport

/-- The path of a file as seen from the checkout; a file outside it keeps its path. -/
def relativePath (root : Option Path) (file : Text) : Text :=
  let p := Path.ofText file
  ((root.bind fun r => r.relativeTo? p).getD p).toText

/-- The keys that may hold what was found, in order of preference. -/
def descriptionKeys : List Text := ["description", "Description", "RuleID", "rule"]

/-- What was found. -/
def descriptionOf (hit : List (Value × Value)) : Text :=
  match (descriptionKeys.map fun k => Value.get k hit).find? Value.isTruthy with
  | some v => v.toText
  | none => "Secret detected"

/-- The finding of a hit; `none` where it names no file. -/
def findingOf? (root : Option Path) (hit : List (Value × Value)) :
    Except Failure (Option Finding) := do
  let file := (Value.get "file" hit).orElse (Value.get "File" hit)
  if !file.isTruthy then return none
  let line ← lineNumber ((Value.lookup (.text "lineNumber") hit).getD (Value.get "StartLine" hit))
  return some {
    kind := .secret
    severity := .critical
    confidence := .high
    description := descriptionOf hit ++ " [secret-scan]"
    file := relativePath root file.toText
    line := line }

/-- The finding of an item of the report. -/
def findingOfItem? (root : Option Path) : Value → Except Failure (Option Finding)
  | .map hit => findingOf? root hit
  | _ => .ok none

/-- The findings of the items of a report. -/
def findingsOf (root : Option Path) : List Value → Except Failure (List Finding)
  | [] => .ok []
  | v :: vs => do
    let f ← findingOfItem? root v
    let fs ← findingsOf root vs
    pure (f.toList ++ fs)

/-- The findings of a report. -/
def read (root : Option Path) : Value → Except Failure (List Finding)
  | .null => .ok []
  | .list items => findingsOf root items
  | _ => .error .secretReportShape

end SecretReport

end RepoScan
