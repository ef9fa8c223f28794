import RepoScan.Config
import RepoScan.Detector
import RepoScan.History
import RepoScan.Json.Reader
import RepoScan.Template.Layout
import RepoScan.ToolReport.Dependencies
import RepoScan.ToolReport.Secrets

/-!
# Detectors that run other programs

* `Detector.secrets` : a secret scanner, whose report is a JSON array;
* `Detector.dependencies` : a dependency audit, which runs where the manifest is there;
* `Detector.history` : the rules for secrets on the lines that commits added.

Their commands are templates that may refer to the clone.
-/

namespace RepoScan.Detector

open Yaml (Place)

/-- Work on the clone of a target. -/
def onCheckout (t : Target) (f : Checkout → Task (List Finding)) : Task (List Finding) :=
  match t.checkout with
  | none => pure []
  | some c => f c

/-- The findings in a report of the secret scanner; an empty output is a report without any. -/
def secretFindings (place : Path) (output : Text) : Except Failure (List Finding) := do
  let report ← if (Text.strip output).isEmpty then pure (.list []) else Json.read output
  SecretReport.read (some place) report

/-- The detector that runs a secret scanner. -/
def secrets (command : List Text) (limit : Binary64) : Detector where
  name := "secret-scan"
  limit := limit
  needsCheckout := true
  detect t := onCheckout t fun c => do
    let words ← Task.ofExcept (Template.fillAll [("checkout", .path c.place),
      ("owner", .text t.repository.owner), ("repo", .text t.repository.name)] command)
    let output ← (Command.inDirectory c.place words).run [0]
    Task.ofExcept (secretFindings c.place output)

/-- The text of a manifest's path. -/
def manifestText (manifest : Place) : Except Failure Text :=
  match manifest.part with
  | .scalar (.text m) => .ok m
  | _ => .error (.notPath manifest.typeName)

/-- The findings in a report of the dependency audit. -/
def auditFindings (manifest output : Text) : Except Failure (List Finding) := do
  let report ← Json.read output
  DependencyReport.read manifest report

/-- The detector that runs a dependency audit. -/
def dependencies (command : List Text) (manifest : Place) (statuses : List Int)
    (limit : Binary64) : Detector where
  name := "dependency-audit"
  limit := limit
  needsCheckout := true
  detect t := onCheckout t fun c => do
    let m ← Task.ofExcept (manifestText manifest)
    if !(← Task.ofExcept (c.files.isFile (c.place.joinText m))) then pure []
    else
      let words ← Task.ofExcept
        (Template.fillAll [("checkout", .path c.place), ("manifest", .text m)] command)
      let output ← (Command.inDirectory c.place words).run statuses
      Task.ofExcept (auditFindings m output)

/-- The detector that searches the history. -/
def history (depth : Option Int) (limit : Binary64) : Detector where
  name := "history-scan"
  limit := limit
  needsCheckout := true
  detect t := onCheckout t fun c => do
    let diff ← Clone.history c.place depth
    let patches ← Task.ofExcept (Diff.read diff)
    pure (History.scan patches)

/-- The detectors that a configuration asks for. -/
def ofConfig (c : Config) : List Detector :=
  [secrets c.secretCommand c.detectorLimit,
    dependencies c.auditCommand c.manifest c.auditStatuses c.detectorLimit]
    ++ (if c.readsHistory then [history c.historyDepth c.detectorLimit] else [])

end RepoScan.Detector
