import RepoScan.Failure
import RepoScan.Repository
import RepoScan.Scan.Stage

/-!
# Notices

What the program tells about its work besides its results.  A notice is kept as what it tells;
`Notice.text?` words it, given a wording for failures.  What cannot be worded is not told.
-/

namespace RepoScan

/-- How much a notice matters. -/
inductive Level where
  | debug
  | info
  | warning
deriving DecidableEq

/-- The level in front of a notice. -/
def Level.label : Level → Text
  | debug => "DEBUG"
  | info => "INFO"
  | warning => "WARNING"

/-- What the program tells. -/
inductive Notice where
  /-- A configuration file has a key that means nothing. -/
  | unknownKey (key : Value)
  /-- A variable that should hold a number does not. -/
  | notNumeric (name value : Text)
  /-- The host refused a request. -/
  | refusal (subject : Text) (reason : Failure)
  /-- No rule applies to a file. -/
  | noKind (path : Text)
  /-- The body of a file is not scanned. -/
  | bodySkipped (path : Text)
  /-- A repository is cloned from an address. -/
  | cloning (address : Text)
  /-- A clone took longer than allowed. -/
  | cloneTimedOut (repository : Text) (limit : Binary64)
  /-- A clone failed. -/
  | cloneFailed (repository : Text) (reason : Failure)
  /-- A detector does not run, since there is no checkout. -/
  | detectorSkipped (name repository : Text)
  /-- A detector took longer than allowed. -/
  | detectorTimedOut (name : Text) (limit : Binary64)
  /-- A detector failed. -/
  | detectorFailed (name : Text) (reason : Failure)
  /-- A detector is done. -/
  | detectorReported (name : Text) (findings : Nat)
  /-- A scan enters a stage. -/
  | entered (identifier : Value) (before after : Stage)
  /-- A scan failed in a stage. -/
  | scanFailed (identifier : Value) (during : Stage) (reason : Failure)
  /-- A scan could not begin. -/
  | setupFailed (identifier : Value) (reason : Failure)

namespace Notice

/-- How much the notice matters. -/
def level : Notice → Level
  | refusal .. | noKind _ | bodySkipped _ | cloning _ | detectorSkipped .. | entered .. => .debug
  | detectorReported .. => .info
  | unknownKey _ | notNumeric .. | cloneTimedOut .. | cloneFailed .. | detectorTimedOut ..
  | detectorFailed .. | scanFailed .. | setupFailed .. => .warning

/-- The notice comes from the detectors. -/
def isFromDetector : Notice → Bool
  | detectorSkipped .. | detectorTimedOut .. | detectorFailed .. | detectorReported .. => true
  | _ => false

/-- A limit in notices. -/
def seconds (limit : Binary64) : Text := limit.toWholeText ++ "s"

/-- The notice in words, if it can be worded; `wording` words the failures in it. -/
def text? (wording : Failure → Option Text) : Notice → Option Text
  | unknownKey key =>
    if key.hasTooLong then none else some ("Ignoring unknown config key " ++ key.shown)
  | notNumeric name value => some ("Ignoring non-numeric " ++ name ++ "=" ++ value.quoted)
  | refusal subject reason => do
    some ("GitHub API error for " ++ subject ++ ": " ++ (← wording reason))
  | noKind path => some ("No file category for " ++ path ++ "; skipping pattern scan")
  | bodySkipped path => some ("Skipping " ++ path ++ ": too large or binary")
  | cloning address => some ("Cloning " ++ address)
  | cloneTimedOut repository limit =>
    some ("Clone of " ++ repository ++ " timed out after " ++ seconds limit)
  | cloneFailed repository reason => do
    some ("Could not clone " ++ repository ++ ": " ++ (← wording reason))
  | detectorSkipped name repository => some (name ++ " skipped: no checkout of " ++ repository)
  | detectorTimedOut name limit => some (name ++ " timed out after " ++ seconds limit)
  | detectorFailed name reason => do some (name ++ " failed: " ++ (← wording reason))
  | detectorReported name n => some (name ++ " reported " ++ Text.ofNat n ++ " finding(s)")
  | entered identifier a b => do
    some ((← identifier.write.toOption) ++ ": " ++ a.label ++ " -> " ++ b.label)
  | scanFailed identifier stage reason => do
    some ("Scan of " ++ (← identifier.write.toOption) ++ " failed during " ++ stage.label ++ ": "
      ++ (← wording reason))
  | setupFailed identifier reason => do
    some ("Could not set up scan of " ++ (← identifier.write.toOption) ++ ": "
      ++ (← wording reason))

/-- The notice as a line, its level and its words, if it can be worded. -/
def line? (wording : Failure → Option Text) (n : Notice) : Option Text :=
  (n.text? wording).map fun t => n.level.label ++ " " ++ t

end Notice

end RepoScan
