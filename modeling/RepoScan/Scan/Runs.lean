import RepoScan.Crew
import RepoScan.Scan

/-!
# Runs of scans

The detectors of a scan run side by side, so a scan may run in many ways.

* `Scanner.Detection` : one way in which detection may run, from its start to its end;
* `Scanner.Run` : one way in which a scan may run, with what has happened in it (`Run.outcome`) and
  the processes that were started (`Run.processes`).
-/

namespace RepoScan.Scanner

variable {σ : Type} {s : Scanner σ}

/-- The work of the detectors on a clone, if there is one. -/
def collects (s : Scanner σ) (r : Repository) (clone : Option Checkout) :
    List (Task (List Finding)) :=
  s.detectors.map fun d => d.collect ⟨r, clone⟩

/-! ### Detection -/

/-- A run of the detection: the clone is made first, and then the detectors run side by side. -/
inductive Detection (s : Scanner σ) (r : Repository) where
  /-- There are no detectors. -/
  | idle (h : s.detectors = [])
  /-- The detectors do not begin. -/
  | stopped (h : s.detectors ≠ []) (y : Crew (Option Checkout)) (e : Halt)
      (hy : Crew.Reachable s.programs (.start [s.checkout r]) y) (he : y.EndsIn [.error e])
  /-- All detectors have ended. -/
  | joined (h : s.detectors ≠ []) (y : Crew (Option Checkout)) (clone : Option Checkout)
      (hy : Crew.Reachable s.programs (.start [s.checkout r]) y) (he : y.EndsIn [.ok clone])
      (z : Crew (List Finding)) (rs : List (Except Halt (List Finding)))
      (hz : Crew.Reachable s.programs (.start (s.collects r clone)) z) (hrs : z.EndsIn rs)

/-- The findings of detectors that have ended, in the order of the detectors; where one of them has
none, why the first such one has none. -/
def joinedResult (rs : List (Except Halt (List Finding))) : Except Failure (List Finding) :=
  ((rs.mapM id).mapError Halt.toFailure).map List.flatten

namespace Detection

variable {r : Repository}

/-- What has happened, and what detection came to. -/
def outcome : s.Detection r → Outcome (List Finding)
  | idle _ => pure []
  | stopped _ y e _ _ => ⟨y.log, .error e.toFailure⟩
  | joined _ y _ _ _ z rs _ _ => ⟨y.log ++ z.log, joinedResult rs⟩

/-- The processes that were started. -/
def processes : s.Detection r → List Process
  | idle _ => []
  | stopped _ y _ _ _ => y.processes
  | joined _ y _ _ _ z _ _ _ => y.processes ++ z.processes

/-- The time for the clone was over before it was made. -/
def isCloneLate : s.Detection r → Bool
  | idle _ => false
  | stopped _ y _ _ _ | joined _ y _ _ _ _ _ _ _ => y.isLate.any id

/-- The clone that the detectors work on, if there is one. -/
def clone? : s.Detection r → Option Checkout
  | joined _ _ clone _ _ _ _ _ _ => clone
  | _ => none

/-- The detectors whose time was over before they had ended. -/
def isLate : s.Detection r → List Bool
  | joined _ _ _ _ _ z _ _ _ => z.isLate
  | _ => []

end Detection

/-! ### Scans -/

/-- The scan comes to the detectors, with this repository. -/
def Detects (s : Scanner σ) (identifier : Value) (w : σ) (r : Repository) : Prop :=
  Repository.ofValue identifier = .ok r ∧
    ∃ fs, ((scanTree s.nesting s.source r []).run w).1.result = .ok fs

/-- A run of the scan of an identifier, with a source in some state. -/
inductive Run (s : Scanner σ) (identifier : Value) (w : σ) where
  /-- It does not come to the detectors. -/
  | early (h : ∀ r, ¬ s.Detects identifier w r)
  /-- It comes to the detectors, which run so. -/
  | detected {r : Repository} (h : s.Detects identifier w r) (d : s.Detection r)

namespace Run

variable {identifier : Value} {w : σ}

/-- The detection in the run; nothing is detected where it is not come to. -/
def detection : s.Run identifier w → Outcome (List Finding)
  | early _ => pure []
  | detected _ d => d.outcome

/-- The clone that the detectors work on, if there is one. -/
def clone? : s.Run identifier w → Option Checkout
  | early _ => none
  | detected _ d => d.clone?

/-- The processes that were started. -/
def processes : s.Run identifier w → List Process
  | early _ => []
  | detected _ d => d.processes

/-- What has happened, and what the scan came to. -/
def outcome (x : s.Run identifier w) (stamp : Stamp) : Outcome ScanResult :=
  ((s.scanWith (fun _ => x.detection) stamp identifier).run w).1

end Run

end RepoScan.Scanner
