import RepoScan.IgnoreFile
import RepoScan.Scan

/-!
# Setting up scans

`Outside` is all that a scan depends on besides what it is told.  `scanRepository` connects to the
hosting service, scans one repository and closes the connection; like the scan itself it always has
a result.
-/

namespace RepoScan

/-- What a scan depends on. -/
structure Outside where
  /-- The hosting service, if it can be connected to. -/
  host : Except HostError Host
  programs : Programs
  /-- The files in the working directory. -/
  files : Files
  environment : Environment
  /-- The directory for temporary files, or why none can be made. -/
  temporary : Except Failure Path
  today : Date
  /-- How deep directories may be nested in a repository. -/
  nesting : Nat
  /-- How many collections may lie inside of each other where a value of a document is shown. -/
  room : Nat

namespace Outside

/-- The connection to the hosting service. -/
def connect (o : Outside) (credentials : Option Text) : Outcome Host :=
  match o.host with
  | .error e => Outcome.fail e.toFailure
  | .ok h => do
    Hosted.connect none credentials
    pure h

/-- The scanner for a configuration, with the detectors that the configuration asks for unless
others are given. -/
def scanner {σ : Type} (o : Outside) (source : ContentSource σ) (config : Config)
    (detectors : Option (List Detector)) (token : Option Text) : Except Failure (Scanner σ) := do
  let rules ← match config.ignoreFile with
    | none => pure []
    | some p => IgnoreRule.load o.room o.files p
  pure {
    source := source
    detectors := detectors.getD (Detector.ofConfig config)
    config := config
    rules := rules
    token := token
    programs := o.programs
    temporary := o.temporary
    today := o.today
    nesting := o.nesting }

/-- The result of a scan that could not begin or end. -/
def setupFailed (stamp : Stamp) (identifier : Value) (e : Failure) : Outcome ScanResult := do
  Outcome.tell (.setupFailed identifier e)
  let reason ← Outcome.ofExcept e.report
  pure (ScanResult.failed stamp.id stamp.time identifier reason)

/-- What a scan starts from: its configuration, that of the environment unless one is given, and
the connection to the host. -/
def prepare (o : Outside) (token : Option Text) (config : Option Config) :
    Outcome (Config × Host) := do
  let c ← match config with
    | some c => pure c
    | none => Config.load o.room o.files none o.environment
  let h ← o.connect token
  pure (c, h)

/-- The scan of a repository at a host that is connected. -/
def scanAt (o : Outside) (h : Host) (c : Config) (token : Option Text) (stamp : Stamp)
    (identifier : Value) : Outcome ScanResult := do
  let s ← Outcome.ofExcept (o.scanner (Hosted.source h) c none token)
  ((s.scan stamp identifier).run []).1

/-- The scan of a repository at the host. -/
def scanRepository (o : Outside) (token : Option Text) (config : Option Config) (stamp : Stamp)
    (identifier : Value) : Outcome ScanResult := do
  match ← (o.prepare token config).attempt with
  | .error e => setupFailed stamp identifier e
  | .ok (c, h) =>
    let result ← (do
      match ← (o.scanAt h c token stamp identifier).attempt with
      | .error e => setupFailed stamp identifier e
      | .ok r => pure r : Outcome ScanResult).attempt
    Outcome.emit (.request .close)
    Outcome.ofExcept result

end Outside

end RepoScan
