import RepoScan.Hosting.Service
import RepoScan.Text.Base64

/-!
# Snapshots

A `Snapshot` is a repository whose files are all known.  `Snapshot.host` is a hosting service that
has nothing but it, whatever repository is asked for.  Directories are not stored; a directory is
there when a file lies below it.
-/

namespace RepoScan

/-- A file of a snapshot. -/
structure SnapshotFile where
  path : Text
  /-- `file`, `symlink` or `submodule`. -/
  kind : Text
  body : Bytes
  /-- The body is sent along with the description. -/
  isInline : Bool
  size : Int

/-- The files of a repository. -/
abbrev Snapshot := List SnapshotFile

namespace Snapshot

/-- The file as the host describes it. -/
def describe (f : SnapshotFile) : RemoteFile where
  entry := ⟨(Text.splitOn '/' f.path).getLast?.getD [], f.path, f.kind⟩
  content := if f.isInline then Base64.encode f.body else []
  decoded := if f.isInline then some f.body else none
  size := f.size
  id := f.path

/-- What a file shows of itself in the directory with a path: itself, or the next directory on the
way to it. -/
def entryBelow? (directory : Text) (f : SnapshotFile) : Option TreeEntry :=
  let front : Text := if directory.isEmpty then [] else directory ++ "/"
  (Text.after? front f.path).map fun rest =>
    match Text.splitOn '/' rest with
    | name :: _ :: _ => ⟨name, front ++ name, "dir"⟩
    | _ => ⟨rest, front ++ rest, f.kind⟩

/-- The entries with names of their own, the first one of each name. -/
def distinct (entries : List TreeEntry) : List TreeEntry :=
  entries.foldl (fun done e => if done.any (·.name == e.name) then done else done ++ [e]) []

/-- What the directory with a path holds. -/
def entriesOf (s : Snapshot) (directory : Text) : List TreeEntry :=
  distinct (s.filterMap (entryBelow? directory))

/-- The answer to a request for something that is not there. -/
def unknown : HostError :=
  .refused ⟨.unknownObject, 404, .map [(.text "message", .text "Not Found")]⟩

/-- What is at a path. -/
def contents (s : Snapshot) (path : Text) : Except HostError Contents :=
  match s.find? fun f => f.path == path with
  | some f => .ok (.file (describe f))
  | none =>
    let entries := s.entriesOf path
    if entries.isEmpty && !path.isEmpty then .error unknown else .ok (.directory entries)

/-- The body of the file with a path in its text encoding. -/
def blob (s : Snapshot) (path : Text) : Except HostError Text :=
  match s.find? fun f => f.path == path with
  | some f => .ok (Base64.encode f.body)
  | none => .error unknown

/-- The snapshot as a repository at a host. -/
def remote (s : Snapshot) : RemoteRepository := ⟨s.contents, s.blob⟩

/-- A host that has nothing but the snapshot. -/
def host (s : Snapshot) : Host := ⟨fun _ => .ok s.remote⟩

end Snapshot

end RepoScan
