import RepoScan.Text.Basic

/-!
# Stages of a scan

A scan goes through its stages in order, from the walk through the repository to its end, and may
fail in any of them.
-/

namespace RepoScan

/-- How far a scan has come. -/
inductive Stage where
  | pending
  /-- The files of the repository are read. -/
  | traversing
  /-- The detectors run. -/
  | detecting
  /-- The findings are triaged. -/
  | postProcessing
  | completed
  | failed
deriving DecidableEq

/-- The stage in notices. -/
def Stage.label : Stage → Text
  | pending => "pending"
  | traversing => "traversing"
  | detecting => "detecting"
  | postProcessing => "post_processing"
  | completed => "completed"
  | failed => "failed"

end RepoScan
