import RepoScan.CommandLine.Options
import RepoScan.Report
import RepoScan.Scan.Setup

/-!
# The command

`CommandLine.run` scans one repository, writes the reports and ends with a status: 0 where the scan
reached its end and no finding is as severe as the threshold, 1 otherwise.  `CommandLine.main` does
so with the options that its arguments give.
-/

namespace RepoScan.CommandLine

/-- The credentials: those given as an option, or else those of the environment. -/
def tokenFor (o : Outside) (q : Options) : Option Text :=
  match q.token with
  | some (c :: t) => some (c :: t)
  | _ => Config.token? o.environment

/-- The findings of a result that the options ask for, ordered by their scores. -/
def selected (q : Options) (r : ScanResult) : List Finding :=
  prioritise (selectFindings q.severity q.kind r.findings)

/-- The reports that the options ask for. -/
def reports (q : Options) : ReportRequest := ⟨q.out.parent, some q.out, q.formats⟩

/-- The place of a report in the output of the command. -/
def placeText (p : Option Path) : Text :=
  match p with
  | some p => p.toText
  | none => "skipped"

/-- What the command prints about its reports. -/
def reportLine (p : ReportPaths) : Text :=
  "Generated report at JSON=" ++ placeText p.json ++ " MD=" ++ placeText p.markdown

/-- A value is there for a switch that needs one. -/
def require (q : Options) (s : Switch) : Except Failure Unit :=
  if q.lacks s then .error .noValue else .ok ()

/-- The status of the command, and why it is not 0. -/
def verdict (q : Options) (r : ScanResult) : Except Failure (Nat × Option Text) :=
  if r.status = .failed then .ok (1, some ("Scan failed: " ++ r.error.getD "None"))
  else do
    require q .threshold
    pure (if !passesThreshold q.threshold (selected q r) then
        (1, some ("Failing due to findings at or above " ++ q.threshold.label))
      else (0, none))

/-- A line is printed. -/
def print (line : Text) : Session Files Unit := Session.lift (Outcome.emit (.print line))

/-- The reports on a result are written. -/
def write (q : Options) (r : ScanResult) : Session Files ReportPaths := do
  Session.lift (Outcome.ofExcept (require q .out))
  let request := reports q
  let files ← Session.state
  Session.lift (Outcome.ofExcept (do
    let _ ← files.makeDirectory request.directory
    require q .format))
  fun files =>
    let (paths, files) := writeReports request r (selected q r) files
    (Outcome.ofExcept paths, files)

/-- The scan that the options ask for. -/
def scan (o : Outside) (stamp : Stamp) (q : Options) : Outcome ScanResult := do
  Outcome.ofExcept (require q .config)
  let config ← Config.load o.room o.files (some q.config) o.environment
  o.scanRepository (tokenFor o q) (some config) stamp (.text q.repository)

/-- The command: the status that it ends with. -/
def run (o : Outside) (stamp : Stamp) (q : Options) : Session Files Nat := do
  let r ← Session.lift (scan o stamp q)
  let paths ← write q r
  print (reportLine paths)
  let (status, reason) ← Session.lift (Outcome.ofExcept (verdict q r))
  if let some line := reason then print line
  pure status

/-- The command with its arguments: the status that it ends with. -/
def main (o : Outside) (stamp : Stamp) (arguments : List Text) : Session Files Nat :=
  match Options.parse arguments with
  | .error stop => pure stop.status
  | .ok q => run o stamp q

end RepoScan.CommandLine
