import RepoScan.Detection
import RepoScan.Hosting.Source

/-!
# Scanning a repository

The directories of a repository are walked depth first, and each file is read when the walk comes
to it.  Files that are binary by their name are passed over, as are those that no rule applies to.

* `walk` : the walk, with what is done at each file;
* `scanTree` : the findings of the rules for lines in all files.
-/

namespace RepoScan

/-- What is done at the files of a directory and below it, one after the other.  `below` walks
through a directory. -/
def walkEntries {σ α : Type} (visit : TreeEntry → Session σ (List α))
    (below : Text → Session σ (List α)) : List TreeEntry → Session σ (List α)
  | [] => pure []
  | e :: es => do
    let here ← if e.isDirectory then below e.path else if e.isFile then visit e else pure []
    let rest ← walkEntries visit below es
    pure (here ++ rest)

/-- The walk through the directory at a path, which may be nested `depth` levels deep. -/
def walkWithin {σ α : Type} (src : ContentSource σ) (r : Repository)
    (visit : TreeEntry → Session σ (List α)) : (depth : Nat) → Text → Session σ (List α)
  | 0, _ => Session.lift (Outcome.fail .tooDeep)
  | depth + 1, path => do
    let entries ← src.list r path
    walkEntries visit (walkWithin src r visit depth) entries

/-- The walk through the directory at a path, which may be nested `nesting` levels deep: what
`visit` does at each file, in order. -/
def walk {σ α : Type} (nesting : Nat) (src : ContentSource σ) (r : Repository)
    (visit : TreeEntry → Session σ (List α)) (path : Text) : Session σ (List α) :=
  walkWithin src r visit nesting path

/-- The findings in a file.  It is told where rules apply but the body is not scanned. -/
def scanFile (body path : Text) : Outcome (List Finding) := do
  if !(Rule.forKinds (FileKind.ofPath path)).isEmpty && !isScannable body then
    Outcome.tell (.bodySkipped path)
  pure (scanBody body path)

/-- The findings in the file of an entry. -/
def scanEntry {σ : Type} (src : ContentSource σ) (r : Repository) (e : TreeEntry) :
    Session σ (List Finding) :=
  if FileKind.isBinary e.name then pure []
  else if (FileKind.ofPath e.path).isEmpty then do
    Session.lift (Outcome.tell (.noKind e.path))
    pure []
  else do
    let body ← src.fetch r e.path
    Session.lift (scanFile body e.path)

/-- The findings in the files below a path, where directories may be nested `nesting` levels
deep. -/
def scanTree {σ : Type} (nesting : Nat) (src : ContentSource σ) (r : Repository) (path : Text) :
    Session σ (List Finding) :=
  walk nesting src r (scanEntry src r) path

end RepoScan
