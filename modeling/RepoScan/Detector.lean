import RepoScan.Clone
import RepoScan.Finding

/-!
# Detectors

Besides the rules for lines there are detectors that look at a clone as a whole.  They are an extra:
`Detector.collect` absorbs whatever goes wrong in one and has no findings then, so no detector can
fail a scan.
-/

namespace RepoScan

/-- What detectors look at. -/
structure Target where
  repository : Repository
  checkout : Option Checkout

/-- A detector. -/
structure Detector where
  name : Text
  /-- How many seconds it may take. -/
  limit : Binary64
  /-- It looks at a clone. -/
  needsCheckout : Bool
  detect : Target → Task (List Finding)

namespace Detector

/-- The findings of a detector; none where it fails, takes too long or lacks a clone. -/
def collect (d : Detector) (t : Target) : Task (List Finding) :=
  if d.needsCheckout && t.checkout.isNone then do
    Task.say (.detectorSkipped d.name t.repository.fullName)
    pure []
  else do
    match ← ((d.detect t).within (some d.limit)).attempt with
    | .error .timedOut => do
      Task.say (.detectorTimedOut d.name d.limit)
      pure []
    | .error e => do
      Task.say (.detectorFailed d.name e)
      pure []
    | .ok fs => do
      Task.say (.detectorReported d.name fs.length)
      pure fs

/-- The findings of detectors that run one after the other, those of the first one first. -/
def collectAll (ps : Programs) (ds : List Detector) (t : Target) : Outcome (List Finding) := do
  let found ← ds.mapM fun d => (d.collect t).run ps
  pure found.flatten

end Detector

end RepoScan
