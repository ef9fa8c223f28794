import RepoScan.Files
import RepoScan.Suppression

/-!
# Ignore files

A project keeps its ignore rules in a document of its own.
-/

namespace RepoScan.IgnoreRule

/-- The rules of the ignore file at a path; there are none where nothing is at the path. -/
def load (room : Nat) (fs : Files) (p : Path) : Except Failure (List IgnoreRule) := do
  match ← fs.document? room p with
  | none => pure []
  | some top => ofDocument top

end RepoScan.IgnoreRule
