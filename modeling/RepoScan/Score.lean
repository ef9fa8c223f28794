import RepoScan.FileKind
import RepoScan.Finding

/-!
# Scores and categories

The score of a finding is the weight of its severity and a bonus for paths that speak of security
or of an interface.  Its category says of which kind and severity it is and what its location looks
like; a path may be configuration and test at once.

`prioritise` orders findings by score, highest first, and keeps the order of equal ones.
-/

namespace RepoScan

/-- The weight of a severity. -/
def Severity.weight : Severity → Int
  | critical => 10
  | high => 7
  | medium => 4
  | low => 1

/-- What in a path speaks of security. -/
def securityMarks : List Text := ["auth", "security"]

/-- What in a path speaks of an interface. -/
def interfaceMarks : List Text := ["api", "endpoint"]

/-- The bonus of a path. -/
def pathBonus (path : Text) : Int :=
  (if securityMarks.any fun m => Text.hasInfix m path then 2 else 0)
    + (if interfaceMarks.any fun m => Text.hasInfix m path then 1 else 0)

/-- The score of a severity at a path. -/
def scoreAt (severity : Severity) (path : Text) : Int := severity.weight + pathBonus path

namespace Finding

/-- The score that the finding's severity and location give. -/
def computedScore (f : Finding) : Int := scoreAt f.severity f.file

/-- The score of the finding, computed where it has none yet. -/
def effectiveScore (f : Finding) : Int := f.score.getD f.computedScore

end Finding

/-- The endings of source files. -/
def sourceEndings : List Text := FileKind.frontend.endings ++ FileKind.backend.endings

/-- What a location looks like. -/
def locationFlags (path : Text) : Flags :=
  let lowered := Text.lower path
  [("isSource", FileKind.hasEnding lowered sourceEndings),
    ("isConfig", Text.hasInfix "config" path || Text.endsWith lowered ".json"),
    ("isTest", Text.hasInfix ".test." path || Text.hasInfix ".spec." path)]

/-- The category of a finding. -/
def categorize (f : Finding) : Category where
  byKind := FindingKind.all.map fun k => (k.label, f.kind == k)
  bySeverity := Severity.all.map fun s => (s.label, f.severity == s)
  byLocation := locationFlags f.file

/-- The findings by descending score, equal ones in their order. -/
def prioritise (fs : List Finding) : List Finding :=
  fs.mergeSort fun a b => b.effectiveScore ≤ a.effectiveScore

end RepoScan
