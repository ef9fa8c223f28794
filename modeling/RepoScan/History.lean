import RepoScan.Detection
import RepoScan.Diff
import RepoScan.Redaction

/-!
# Secrets in the history

The lines that commits added are held against the rules for secrets, whatever the file.  A finding
names the commit and the file in its description, since its location is the history itself.
-/

namespace RepoScan.History

/-- The location of all findings in the history. -/
def location : Text := "history"

/-- The finding in an added line of a patch, if there is one. -/
def findingIn? (p : Patch) (added : AddedLine) : Option Finding :=
  (firstMatch? added.content Rule.secretTable).map fun m => {
    kind := .secret
    severity := .critical
    confidence := m.confidence
    description := m.rule.description ++ " in commit history ("
      ++ (p.commit.getD "unknown").take 8 ++ " " ++ p.path.toText ++ ")"
    file := location
    line := added.number
    code := some (truncate (Text.strip added.content)) }

/-- The findings in the lines that patches add. -/
def scan (ps : List Patch) : List Finding := ps.flatMap fun p => p.lines.filterMap (findingIn? p)

end RepoScan.History
