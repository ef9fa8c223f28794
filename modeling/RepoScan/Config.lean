import RepoScan.Files
import RepoScan.Outcome
import RepoScan.Text.Case

/-!
# Configuration

A scan is configured by a document with a mapping of keys to values, and then by variables of the
environment, which have the last word.  Values are converted to what their key asks for; keys that
mean nothing are told of and passed over.

* `Config.readSetting` : what one key sets, given its value;
* `Config.load` : the configuration from a document and the environment.
-/

namespace RepoScan

open Yaml (Place)

/-- The variables of the environment. -/
abbrev Environment := List (Text × Text)

/-- How to scan. -/
structure Config where
  /-- How many seconds a detector may take. -/
  detectorLimit : Binary64
  /-- How many seconds a clone may take. -/
  cloneLimit : Binary64
  /-- The repository is cloned for the detectors. -/
  clones : Bool
  /-- The history is searched for secrets. -/
  readsHistory : Bool
  /-- How many commits are cloned and searched, if not all. -/
  historyDepth : Option Int
  /-- The command of the secret scanner, as templates. -/
  secretCommand : List Text
  /-- The command of the dependency audit, as templates. -/
  auditCommand : List Text
  /-- The exit statuses that mean that the audit was done. -/
  auditStatuses : List Int
  /-- The file that lists the dependencies, as it is given; it has to be a text to be of use. -/
  manifest : Place
  /-- The file of the ignore rules. -/
  ignoreFile : Option Path

namespace Config

/-- The configuration where nothing is said. -/
def default : Config where
  detectorLimit := .ofRatio false 120 1
  cloneLimit := .ofRatio false 300 1
  clones := true
  readsHistory := true
  historyDepth := some 100
  secretCommand := ["gitleaks", "detect", "--source", "\x7bcheckout\x7d", "--no-git",
    "--report-format", "json", "--report-path", "-", "--exit-code", "0"]
  auditCommand := ["npm", "audit", "--json"]
  auditStatuses := [0, 1]
  manifest := .ofPart (.scalar (.text "package.json"))
  ignoreFile := none

instance : Inhabited Config := ⟨default⟩

/-! ### Settings -/

/-- What can be set. -/
inductive Key where
  | detectorLimit
  | cloneLimit
  | clones
  | readsHistory
  | historyDepth
  | secretCommand
  | auditCommand
  | auditStatuses
  | manifest
  | ignoreFile
deriving DecidableEq

/-- The keys with their names in documents. -/
def Key.table : List (Text × Key) := [
  ("adapter_timeout", detectorLimit), ("clone_timeout", cloneLimit), ("clone", clones),
  ("history", readsHistory), ("history_depth", historyDepth),
  ("secret_scan_command", secretCommand), ("audit_command", auditCommand),
  ("audit_ok_exit_codes", auditStatuses), ("manifest_path", manifest),
  ("ignore_file", ignoreFile)]

/-- The key that a value of a document names. -/
def Key.ofValue? : Value → Option Key
  | .text t => Key.table.lookup t
  | _ => none

/-- A key with a value of its type. -/
inductive Setting where
  | detectorLimit (limit : Binary64)
  | cloneLimit (limit : Binary64)
  | clones (b : Bool)
  | readsHistory (b : Bool)
  | historyDepth (depth : Option Int)
  | secretCommand (words : List Text)
  | auditCommand (words : List Text)
  | auditStatuses (statuses : List Int)
  | manifest (p : Place)
  | ignoreFile (p : Option Path)

/-- The words of a command: the items of a list, or the words of a text. -/
def commandWords (p : Place) : Except Failure (List Text) :=
  match p.items? with
  | some items => items.mapM Place.toText
  | none => p.toText.map Text.words

/-- Exit statuses: the items of a list, or a single one. -/
def statuses (p : Place) : Except Failure (List Int) :=
  match p.items? with
  | some items => items.mapM Place.toInt
  | none => p.toInt.map fun n => [n]

/-- What a key sets, given its value in a document that lies in `base`. -/
def readSetting (base : Path) (k : Key) (v : Place) : Except Failure Setting :=
  match k with
  | .detectorLimit => v.toReal.map .detectorLimit
  | .cloneLimit => v.toReal.map .cloneLimit
  | .clones => .ok (.clones v.isTruthy)
  | .readsHistory => .ok (.readsHistory v.isTruthy)
  | .historyDepth =>
    if v.isTruthy then v.toInt.map fun n => .historyDepth (some n) else .ok (.historyDepth none)
  | .secretCommand => (commandWords v).map .secretCommand
  | .auditCommand => (commandWords v).map .auditCommand
  | .auditStatuses => (statuses v).map .auditStatuses
  | .manifest => .ok (.manifest v)
  | .ignoreFile =>
    if v.isTruthy then v.toText.map fun t => .ignoreFile (some (base.joinText t))
    else .ok (.ignoreFile none)

/-- The configuration with a setting. -/
def put (c : Config) : Setting → Config
  | .detectorLimit limit => { c with detectorLimit := limit }
  | .cloneLimit limit => { c with cloneLimit := limit }
  | .clones b => { c with clones := b }
  | .readsHistory b => { c with readsHistory := b }
  | .historyDepth depth => { c with historyDepth := depth }
  | .secretCommand words => { c with secretCommand := words }
  | .auditCommand words => { c with auditCommand := words }
  | .auditStatuses statuses => { c with auditStatuses := statuses }
  | .manifest p => { c with manifest := p }
  | .ignoreFile p => { c with ignoreFile := p }

/-- The configuration with what an entry of a document sets. -/
def putEntry (base : Path) (c : Config) (entry : Value × Place) : Outcome Config :=
  match Key.ofValue? entry.1 with
  | none => do
    Outcome.tell (.unknownKey entry.1)
    pure c
  | some k => Outcome.ofExcept ((readSetting base k entry.2).map c.put)

/-- The configuration with what the entries of a document set, one after the other. -/
def putEntries (base : Path) (c : Config) (entries : List (Value × Place)) : Outcome Config :=
  entries.foldlM (putEntry base) c

/-! ### The environment -/

/-- The variable with the seconds that a detector may take. -/
def limitVariable : Text := "DEVSECGUARD_ADAPTER_TIMEOUT"

/-- The variable that turns cloning off. -/
def noCloneVariable : Text := "DEVSECGUARD_NO_CLONE"

/-- The variable with the credentials. -/
def tokenVariable : Text := "GITHUB_TOKEN"

/-- The value of a variable; an empty one is as good as none. -/
def valueOf? (env : Environment) (name : Text) : Option Text :=
  (env.lookup name).filter fun t => !t.isEmpty

/-- The values of a variable that mean yes. -/
def meansYes (t : Text) : Bool := [("1" : Text), "true", "yes"].contains (Text.lower t)

/-- The configuration with the limit from the environment, if there is one. -/
def putLimit (env : Environment) (c : Config) : Outcome Config :=
  match valueOf? env limitVariable with
  | none => pure c
  | some t =>
    match Number.readReal? t with
    | some limit => pure { c with detectorLimit := limit }
    | none => do
      Outcome.tell (.notNumeric limitVariable t)
      pure c

/-- The configuration with what the environment sets. -/
def putEnvironment (env : Environment) (c : Config) : Outcome Config := do
  let c ← c.putLimit env
  pure (if (valueOf? env noCloneVariable).any meansYes then { c with clones := false } else c)

/-- The credentials in the environment. -/
def token? (env : Environment) : Option Text := valueOf? env tokenVariable

/-! ### Loading -/

/-- The entries of a configuration document, seen from its root. -/
def documentEntries (path : Path) (top : Place) : Except Failure (List (Value × Place)) :=
  match top.entries? with
  | some es => .ok es
  | none => if top.isTruthy then .error (.configShape path.toText) else .ok []

/-- The configuration from the document at a path, if there is one. -/
def ofDocument (room : Nat) (fs : Files) (path : Path) : Outcome Config := do
  match ← Outcome.ofExcept (fs.document? room path) with
  | none => pure default
  | some top =>
    let entries ← Outcome.ofExcept (documentEntries path top)
    putEntries path.parent default entries

/-- The configuration from a document and the environment. -/
def load (room : Nat) (fs : Files) (path : Option Path) (env : Environment) : Outcome Config := do
  let c ← match path with
    | none => pure default
    | some p => ofDocument room fs p
  c.putEnvironment env

end Config

end RepoScan
