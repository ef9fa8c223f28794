import RepoScan.Repository.Address
import RepoScan.Text.Lines
import RepoScan.Value

/-!
# Repositories

A repository has an owner and a name.  It is asked for by an address, by the remote that a shell
login uses, or in short as owner and name.

`Repository.ofText` reads all three.  Addresses of pages may go on to a page of the repository; the
other spellings have to end with the name.
-/

namespace RepoScan

/-- A repository of the host. -/
structure Repository where
  owner : Text
  name : Text
deriving DecidableEq

namespace Repository

/-- The host of repositories. -/
def homeHost : Text := "github.com"

/-- The names of the host. -/
def hostNames : List Text := [homeHost, "www." ++ homeHost]

/-- Owner and name, as one text. -/
def fullName (r : Repository) : Text := r.owner ++ "/" ++ r.name

/-- A character of an owner or a name. -/
def isNameCharacter (c : CodePoint) : Bool := c.isAsciiAlnum || c.isIn "_.-"

/-- The text is an owner or a name: name characters and optionally a line feed after them. -/
def isName (t : Text) : Bool :=
  let body := if t.getLast? = some (CodePoint.ofChar '\n') then t.dropLast else t
  !body.isEmpty && body.all isNameCharacter

/-- A place of a repository: a host and a path on it. -/
structure Place where
  host : Text
  path : Text
  /-- The path may go on after the repository. -/
  isPage : Bool
deriving DecidableEq

/-- The place that a remote with a login names: the login, the host, a colon, and the path on one
line. -/
def ofRemote? (t : Text) : Option Place :=
  match (Text.after? "git@" t).bind (Text.cut? ":") with
  | some (host, path) =>
    if host.isEmpty || path.isEmpty || path.contains '\n' then none else some ⟨host, path, false⟩
  | none => none

/-- The schemes of addresses of repositories. -/
def schemes : List Text := ["http", "https", "ssh", "git"]

/-- The place that an address names; `given` is the identifier for messages. -/
def ofAddress (given : Text) (a : Address) : Except Failure Place :=
  match a.host? with
  | none => .error (.badRepository given)
  | some host =>
    if schemes.contains a.scheme then
      .ok ⟨host, a.path, Address.webSchemes.contains a.scheme⟩
    else .error (.badRepository given)

/-- The place that an identifier without surrounding white space names. -/
def placeOf (given t : Text) : Except Failure Place :=
  match ofRemote? t with
  | some place => .ok place
  | none =>
    if Text.hasInfix "://" t then do ofAddress given (← Address.ofText t)
    else .ok ⟨homeHost, t, false⟩

/-- The name without the ending that remotes have. -/
def bareName (t : Text) : Text :=
  if Text.endsWith t ".git" then t.take (t.length - 4) else t

/-- The components of a path that are not empty. -/
def components (path : Text) : List Text := (Text.splitOn '/' path).filter fun p => !p.isEmpty

/-- The repository at a place. -/
def ofPlace (given : Text) (p : Place) : Except Failure Repository :=
  if !hostNames.contains (Text.lower p.host) then .error (.foreignHost given)
  else
    let parts := components p.path
    match if p.isPage then parts.take 2 else parts with
    | [owner, name] =>
      if isName owner && isName (bareName name) then .ok ⟨owner, bareName name⟩
      else .error (.badRepository given)
    | _ => .error (.badRepository given)

/-- The repository that an identifier names. -/
def ofText (given : Text) : Except Failure Repository :=
  let t := Text.strip given
  if t.isEmpty then .error .noRepository
  else do ofPlace given (← placeOf given t)

/-- The repository that a value names; only texts do. -/
def ofValue : Value → Except Failure Repository
  | .text t => ofText t
  | _ => .error .noRepository

end Repository

end RepoScan
