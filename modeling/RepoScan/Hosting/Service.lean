import RepoScan.Failure
import RepoScan.Json.Writer

/-!
# The hosting service

What a hosting service answers: it looks repositories up by their full name, tells what is at a path
of one, and hands out the bodies of files that it does not send along.  The answers are data, so that
whatever is said of all services holds however they behave.

A repository that was looked up is a handle, through which the later requests are made.  `Service`
holds what is answered at one time; `Host` is a service that always answers the same.
-/

namespace RepoScan

/-- What a directory of a repository holds. -/
structure TreeEntry where
  name : Text
  path : Text
  /-- `file`, `dir`, `symlink` or `submodule`. -/
  kind : Text
deriving DecidableEq

namespace TreeEntry

/-- The entry is a file. -/
def isFile (e : TreeEntry) : Bool := e.kind == "file"

/-- The entry is a directory. -/
def isDirectory (e : TreeEntry) : Bool := e.kind == "dir"

end TreeEntry

/-- A refused request. -/
structure Refusal where
  kind : RefusalKind
  status : Int
  /-- What the host says about it, null where it says nothing. -/
  data : Value

namespace Refusal

/-- The refusal as text: its status and what the host says. -/
def text (r : Refusal) : Text :=
  match r.data with
  | .null => Text.ofInt r.status
  | v => Text.ofInt r.status ++ " " ++ Json.write v

/-- What the host says in words, or else the whole refusal. -/
def detail (r : Refusal) : Text :=
  match r.data with
  | .map es => if (Value.get "message" es).isTruthy then (Value.get "message" es).toText else r.text
  | _ => r.text

/-- The refusal as a failure. -/
def toFailure (r : Refusal) : Failure := .refused r.kind r.status r.detail r.text

end Refusal

/-- What keeps a request from being answered. -/
inductive HostError where
  | refused (r : Refusal)
  /-- The connection failed. -/
  | connection (text : Text)

/-- The error as a failure, as it is before anything is known of the request. -/
def HostError.toFailure : HostError → Failure
  | refused r => r.toFailure
  | connection text => .connection text

/-- A file as the host describes it. -/
structure RemoteFile where
  entry : TreeEntry
  /-- The body in its text encoding, where the host sends it along; empty otherwise. -/
  content : Text
  /-- The body itself, where the host sends it along. -/
  decoded : Option Bytes
  size : Int
  /-- What the host calls the body. -/
  id : Text

/-- What is at a path. -/
inductive Contents where
  | file (f : RemoteFile)
  | directory (entries : List TreeEntry)

/-- A repository at a host that always answers the same. -/
structure RemoteRepository where
  contents : Text → Except HostError Contents
  /-- The body of a file in its text encoding. -/
  blob : Text → Except HostError Text

/-- A hosting service that always answers the same: what it answers to the lookup of a
repository. -/
structure Host where
  lookup : Text → Except HostError RemoteRepository

/-- A hosting service at one time, with handles of some type for the repositories. -/
structure Service (ρ : Type) where
  lookup : Text → Except HostError ρ
  contents : ρ → Text → Except HostError Contents
  /-- The body of a file in its text encoding. -/
  blob : ρ → Text → Except HostError Text

/-- What the host answers at any time. -/
def Host.service (h : Host) : Service RemoteRepository :=
  ⟨h.lookup, RemoteRepository.contents, RemoteRepository.blob⟩

end RepoScan
