import RepoScan.Command
import RepoScan.Redaction

/-!
# Clones

Detectors work on a clone of the repository.  Credentials become part of the address of the clone,
so whatever shows the address shows them redacted.

* `Clone.make` : a repository is cloned, or the failure is reported with the credentials redacted;
* `Clone.checkout` : the clone for the detectors, if it can be made in time;
* `Clone.history` : the history of a clone as a diff.
-/

namespace RepoScan

/-- A clone: where it is and the files it holds, with the paths from where it is kept. -/
structure Checkout where
  place : Path
  files : Files

namespace Clone

/-- Credentials; empty ones are as good as none. -/
def given (token : Option Text) : Option Text := token.filter fun t => !t.isEmpty

/-- The address that a repository is cloned from. -/
def address (host : Text) (r : Repository) (token : Option Text) : Text :=
  let credentials : Text := match given token with
    | some t => "x-access-token:" ++ t ++ "@"
    | none => []
  "https://" ++ credentials ++ host ++ "/" ++ r.owner ++ "/" ++ r.name ++ ".git"

/-- A number of commits, where zero means all. -/
def positiveDepth (depth : Option Int) : Option Int := depth.filter (· != 0)

/-- The number of commits as text, where there is one. -/
def depthText (depth : Option Int) : Except Failure (Option Text) :=
  match positiveDepth depth with
  | some n => (Value.int n).write.map some
  | none => .ok none

/-- The command that clones a repository, up to a number of commits given as text. -/
def cloneCommand (r : Repository) (destination : Path) (token depth : Option Text) : Command :=
  let depthWords : List Text := match depth with
    | some n => ["--depth", n]
    | none => []
  Command.ofWords ([("git" : Text), "clone", "--quiet", "--single-branch", "--no-tags"]
    ++ depthWords ++ [address Repository.homeHost r token, destination.toText])

/-- A failure with the credentials redacted, since a program may repeat its command line. -/
def redactFailure (token : Option Text) (e : Failure) : Failure :=
  if e.isTool then
    .tool (match given token with
      | some t => Text.replaceAll t (redact t) e.message
      | none => e.message)
  else e

/-- A repository is cloned. -/
def make (r : Repository) (destination : Path) (token : Option Text) (depth : Option Int) :
    Task Checkout := do
  let depth ← Task.ofExcept (depthText depth)
  Task.say (.cloning (address Repository.homeHost r ((given token).map redact)))
  match ← ((cloneCommand r destination token depth).finish [0]).attempt with
  | .error e => Task.fail (redactFailure token e)
  | .ok e => pure ⟨destination, e.files.below destination⟩

/-- The failures that make a clone missing and nothing else. -/
def isAbsorbed (e : Failure) : Bool := e.isTool || e.isSystem

/-- The clone of a repository in a directory for temporary files, which may fail to be made; none
where cloning fails or takes too long. -/
def checkout (temporary : Except Failure Path) (r : Repository) (token : Option Text)
    (depth : Option Int) (limit : Option Binary64) : Task (Option Checkout) := do
  let directory ← Task.ofExcept temporary
  match ← ((make r (directory.joinText r.name) token depth).within limit).attempt with
  | .ok c => pure (some c)
  | .error .timedOut => do
    Task.say (.cloneTimedOut r.fullName (limit.getD .zero))
    pure none
  | .error e =>
    if isAbsorbed e then do
      Task.say (.cloneFailed r.fullName e)
      pure none
    else Task.fail e

/-- The command that shows the history, up to a number of commits given as text. -/
def historyCommand (place : Path) (depth : Option Text) : Command :=
  let depthWords : List Text := match depth with
    | some n => ["--max-count=" ++ n]
    | none => []
  Command.inDirectory place ([("git" : Text), "log", "-p", "--no-color", "--unified=0",
    "--format=commit %H"] ++ depthWords)

/-- The history of a clone as a diff with the name of each commit before its changes. -/
def history (place : Path) (depth : Option Int) : Task Text := do
  let depth ← Task.ofExcept (depthText depth)
  (historyCommand place depth).run [0]

end Clone

end RepoScan
