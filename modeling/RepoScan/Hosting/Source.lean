import RepoScan.Hosting.Service
import RepoScan.Outcome
import RepoScan.Repository
import RepoScan.Text.Base64
import RepoScan.Text.Utf8

/-!
# Sources of contents

A scan reads directories and files from a `ContentSource`.  `Hosted.source` is the one that asks a
hosting service.  It looks a repository up once and keeps the handle that it got, but a lookup that
failed is made again the next time.

A refused request becomes one failure that names the subject of the request: the repository in a
lookup, and the path in it otherwise.  A lookup is part of the request for a path, but once its
failure names a subject, it is left as it is.
-/

namespace RepoScan

/-- Where directories and files are read from.  Reading may change the state of the source. -/
structure ContentSource (σ : Type) where
  /-- What the directory at a path holds. -/
  list : Repository → Text → Session σ (List TreeEntry)
  /-- The text of the file at a path. -/
  fetch : Repository → Text → Session σ Text

namespace Hosted

/-- The failure of work that concerns a subject, given the failure that was met.  Only refusals do
not name a subject yet. -/
def failWith {α : Type} (subject : Text) : Failure → Outcome α
  | .refused kind status detail text =>
    match kind with
    | .rateLimit => Outcome.fail (.rateLimited subject)
    | .badCredentials => Outcome.fail (.badCredentials subject)
    | .unknownObject => Outcome.fail (.notFound subject)
    | .other => do
      Outcome.tell (.refusal subject (.refused kind status detail text))
      Outcome.fail (.host status subject detail)
  | f => Outcome.fail f

/-- Work that concerns a subject. -/
def concerning {σ α : Type} (subject : Text) (x : Session σ α) : Session σ α := do
  match ← x.attempt with
  | .ok a => pure a
  | .error f => Session.lift (failWith subject f)

/-- A request, with its answer. -/
def ask {α : Type} (q : Request) (reply : Except HostError α) : Outcome α := do
  Outcome.emit (.request q)
  match reply with
  | .ok a => pure a
  | .error e => Outcome.fail e.toFailure

/-- The handles of repositories that were looked up, by the full names of these. -/
abbrev Handles (ρ : Type) := List (Text × ρ)

/-- The handles at a host that always answers the same. -/
abbrev Known := Handles RemoteRepository

/-- The handle of a repository. -/
def repository {ρ : Type} (s : Service ρ) (r : Repository) : Session (Handles ρ) ρ := do
  let known ← Session.state
  match known.lookup r.fullName with
  | some remote => pure remote
  | none => do
    let remote ← concerning r.fullName
      (Session.lift (ask (.lookup r.fullName) (s.lookup r.fullName)))
    Session.change fun known => known ++ [(r.fullName, remote)]
    pure remote

/-- What failures to read a directory name as their subject. -/
def directorySubject (r : Repository) (path : Text) : Text :=
  r.fullName ++ ":" ++ (if path.isEmpty then ("/" : Text) else path)

/-- What failures to read a file name as their subject. -/
def fileSubject (r : Repository) (path : Text) : Text := r.fullName ++ ":" ++ path

/-- What the directory at a path holds; a file there is the only entry. -/
def list {ρ : Type} (s : Service ρ) (r : Repository) (path : Text) :
    Session (Handles ρ) (List TreeEntry) := do
  let contents ← concerning (directorySubject r path) do
    let remote ← repository s r
    Session.lift (ask (.contents path) (s.contents remote path))
  match contents with
  | .file f => pure [f.entry]
  | .directory entries => pure entries

/-- The body that the host sent along with the description of a file. -/
def sent? (f : RemoteFile) : Option Bytes := if f.content.isEmpty then none else f.decoded

/-- The body of a file, if there is one.  What the host did not send along is asked for, unless the
file is empty. -/
def body {ρ : Type} (s : Service ρ) (remote : ρ) (f : RemoteFile) : Outcome (Option Bytes) :=
  if (sent? f).isNone && f.size != 0 then do
    let encoded ← ask (.blob f.id) (s.blob remote f.id)
    match Base64.decode? encoded with
    | some bytes => pure (some bytes)
    | none => Outcome.fail .malformedBlob
  else pure (sent? f)

/-- The text of the file at a path. -/
def fetch {ρ : Type} (s : Service ρ) (r : Repository) (path : Text) :
    Session (Handles ρ) Text := do
  let bytes ← concerning (fileSubject r path) do
    let remote ← repository s r
    match ← Session.lift (ask (.contents path) (s.contents remote path)) with
    | .directory _ => Session.lift (Outcome.fail (.isDirectory path))
    | .file f => Session.lift (body s remote f)
  pure (Utf8.decode (bytes.getD []))

/-- The connection to a host of its own, if one is given, with credentials, if there are any. -/
def connect (address credentials : Option Text) : Outcome Unit :=
  let present (t : Option Text) : Option Text := t.filter fun t => !t.isEmpty
  Outcome.emit (.request (.connect (present address) (present credentials)))

/-- The source that asks a host. -/
def source (h : Host) : ContentSource Known where
  list := list h.service
  fetch := fetch h.service

end Hosted

end RepoScan
