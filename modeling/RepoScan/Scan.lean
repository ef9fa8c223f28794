import RepoScan.Detector.External
import RepoScan.ScanResult
import RepoScan.Tree
import RepoScan.Triage

/-!
# Scans

A `Scanner` scans repositories: it reads their files, runs the detectors and triages the findings.
A scan has a result even where something goes wrong on the way; unless that is in a detector, the
result is that of a failed scan, which has no findings.

* `Scanner.detect` : the findings of the detectors, which are run one after the other;
* `Scanner.stages` : the stages of a scan up to its findings or its failure;
* `Scanner.scan` : the result.
-/

namespace RepoScan

/-- What is new about each result. -/
structure Stamp where
  id : Text
  time : Moment

/-- What scans repositories. -/
structure Scanner (σ : Type) where
  source : ContentSource σ
  detectors : List Detector
  config : Config
  rules : List IgnoreRule
  /-- The credentials for cloning. -/
  token : Option Text
  programs : Programs
  /-- The directory for temporary files, or why none can be made. -/
  temporary : Except Failure Path
  today : Date
  /-- How deep directories may be nested. -/
  nesting : Nat

namespace Scanner

/-- A clone is made for the detectors. -/
def needsClone {σ : Type} (s : Scanner σ) : Bool :=
  s.config.clones && s.detectors.any (·.needsCheckout)

/-- How many commits are cloned, if not all: without the history only the last one is needed. -/
def cloneDepth {σ : Type} (s : Scanner σ) : Option Int :=
  if s.config.readsHistory then s.config.historyDepth else some 1

/-- The clone for the detectors, if one is to be made and can be made. -/
def checkout {σ : Type} (s : Scanner σ) (r : Repository) : Task (Option Checkout) :=
  if s.needsClone then
    Clone.checkout s.temporary r s.token s.cloneDepth (some s.config.cloneLimit)
  else pure none

/-- The findings of the detectors, which are run one after the other. -/
def detect {σ : Type} (s : Scanner σ) (r : Repository) : Outcome (List Finding) :=
  if s.detectors.isEmpty then pure []
  else do
    let clone ← (s.checkout r).run s.programs
    Detector.collectAll s.programs s.detectors ⟨r, clone⟩

/-! ### Stages -/

/-- A scan goes from a stage to the next. -/
def enter {σ : Type} (identifier : Value) (before after : Stage) : Session σ Unit :=
  Session.lift (Outcome.tell (.entered identifier before after))

/-- The stages of a scan whose detection comes to what is given.  A failure is given with the stage
that it ended. -/
def stagesWith {σ : Type} (s : Scanner σ) (detection : Repository → Outcome (List Finding))
    (identifier : Value) : Session σ (Except (Stage × Failure) (List Finding)) := do
  match Repository.ofValue identifier with
  | .error e => pure (.error (.pending, e))
  | .ok r =>
    enter identifier .pending .traversing
    match ← (scanTree s.nesting s.source r []).attempt with
    | .error e => pure (.error (.traversing, e))
    | .ok inFiles =>
      enter identifier .traversing .detecting
      match ← Session.lift (detection r).attempt with
      | .error e => pure (.error (.detecting, e))
      | .ok detected =>
        enter identifier .detecting .postProcessing
        match triage s.rules s.today (inFiles ++ detected) with
        | .error e => pure (.error (.postProcessing, e))
        | .ok fs =>
          enter identifier .postProcessing .completed
          pure (.ok fs)

/-- The stages of a scan. -/
def stages {σ : Type} (s : Scanner σ) (identifier : Value) :
    Session σ (Except (Stage × Failure) (List Finding)) :=
  s.stagesWith s.detect identifier

/-- The scan whose detection comes to what is given. -/
def scanWith {σ : Type} (s : Scanner σ) (detection : Repository → Outcome (List Finding))
    (stamp : Stamp) (identifier : Value) : Session σ ScanResult := do
  match ← s.stagesWith detection identifier with
  | .ok fs => pure (ScanResult.completed stamp.id stamp.time identifier fs)
  | .error (stage, e) =>
    Session.lift (Outcome.tell (.scanFailed identifier stage e))
    enter identifier stage .failed
    let reason ← Session.lift (Outcome.ofExcept e.report)
    pure (ScanResult.failed stamp.id stamp.time identifier reason)

/-- The scan of the repository with an identifier. -/
def scan {σ : Type} (s : Scanner σ) (stamp : Stamp) (identifier : Value) :
    Session σ ScanResult :=
  s.scanWith s.detect stamp identifier

end Scanner

end RepoScan
