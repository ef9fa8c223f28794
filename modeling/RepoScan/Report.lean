import RepoScan.Files
import RepoScan.Json.Writer
import RepoScan.Summary
import RepoScan.Text.Case
import RepoScan.Value.Conversion

/-!
# Reports

A scan is reported in two formats, JSON for other programs and Markdown for people.  Both hold the
same summary: the Markdown report is rendered from the entries that the JSON report contains.

`writeReports` writes what is asked for, the JSON report first.
-/

namespace RepoScan

/-! ### Markdown -/

namespace Markdown

/-- The value at a key that has to be there. -/
def required (key : Text) (es : List (Value × Value)) : Except Failure Value :=
  match Value.lookup (.text key) es with
  | some v => .ok v
  | none => .error (.missingEntry key)

/-- The entries of a value that has to be a mapping. -/
def entriesOf : Value → Except Failure (List (Value × Value))
  | .map es => .ok es
  | v => .error (.noEntries v.typeName)

/-- A count of the summary, zero where it is missing. -/
def countAt (key : Text) (es : List (Value × Value)) : Text :=
  ((Value.lookup (.text key) es).getD (.int 0)).toText

/-- The name of a kind as a heading. -/
def headingOf (kind : Text) : Text := Text.title (Text.replaceChar '_' ' ' kind)

/-- The line of a file. -/
def fileLine (v : Value) : Except Failure Text := do
  let es ← entriesOf v
  let name ← required "name" es
  let count ← required "count" es
  let score ← required "score" es
  pure ("- " ++ name.toText ++ " (" ++ count.toText ++ " findings, max score " ++ score.toText
    ++ ")")

/-- The line of a finding. -/
def findingLine (f : Finding) : Text :=
  let score : Text := match f.score with
    | some n => Text.ofInt n
    | none => "None"
  "- " ++ f.severity.label ++ " | " ++ f.kind.label ++ " | " ++ f.file ++ ":" ++ Text.ofInt f.line
    ++ " | " ++ f.description ++ " | confidence=" ++ f.confidence.label ++ " | score=" ++ score

/-- The report on findings under a summary. -/
def render (summary : List (Value × Value)) (fs : List Finding) : Except Failure Text := do
  let repository ← required "repositoryUrl" summary
  let timestamp ← required "timestamp" summary
  let status ← required "status" summary
  let error := Value.get "error" summary
  let errorLines : List Text := if error.isTruthy then ["Error: " ++ error.toText] else []
  let severityLines : List Text := Severity.reported.map fun s =>
    "- " ++ Text.title s.label ++ ": " ++ countAt s.label summary
  let kinds ← entriesOf (← required "byType" summary)
  let kindLines : List Text := kinds.map fun e =>
    "- " ++ headingOf e.1.toText ++ ": " ++ e.2.toText
  let top := Value.get "top_files" summary
  let fileLines ← if top.isTruthy then do
      let lines ← (← top.toItems).mapM fileLine
      pure (("## Top Files" : Text) :: lines ++ [[]])
    else pure []
  let findingLines := if fs.isEmpty then [] else ("## Findings" : Text) :: fs.map findingLine
  pure (Text.join "\n"
    (["# Scan of " ++ repository.toText, [], "Scanned: " ++ timestamp.toText,
        "Status: " ++ status.toText]
      ++ errorLines ++ [[], "## Counts"] ++ severityLines ++ kindLines
      ++ ["- Total: " ++ countAt "total" summary, []] ++ fileLines ++ findingLines))

end Markdown

/-! ### Writing reports -/

/-- Where reports were written. -/
structure ReportPaths where
  json : Option Path
  markdown : Option Path
deriving DecidableEq

/-- Which reports are asked for, and where. -/
structure ReportRequest where
  /-- The directory of the reports. -/
  directory : Path
  /-- The place of the JSON report, if it is not to have its usual name. -/
  jsonPath : Option Path
  /-- The formats; all where none is given. -/
  formats : List Text

namespace ReportRequest

/-- The formats that are asked for, in lower case. -/
def wanted (q : ReportRequest) : List Text :=
  (if q.formats.isEmpty then [("json" : Text), "md"] else q.formats).map Text.lower

/-- The place of the JSON report, where one is asked for. -/
def json? (q : ReportRequest) : Option Path :=
  if q.wanted.contains "json" then some (q.jsonPath.getD (q.directory.joinText "scan.json"))
  else none

/-- The place of the Markdown report, where one is asked for. -/
def markdown? (q : ReportRequest) : Option Path :=
  if q.wanted.contains "md" then some (q.directory.joinText "scan.md") else none

end ReportRequest

/-- The summary in the reports on findings. -/
def reportSummary (r : ScanResult) (fs : List Finding) : List (Value × Value) :=
  (Summary.of fs Summary.listedFiles).toEntries r

/-- The value of the JSON report. -/
def jsonReport (r : ScanResult) (fs : List Finding) : Value :=
  .map (r.entriesWith fs ++ [(.text "summary", .map (reportSummary r fs))])

/-- The text of the JSON report, unless it has an integer that is too long to be written. -/
def jsonText (r : ScanResult) (fs : List Finding) : Except Failure Text :=
  if (jsonReport r fs).hasTooLong then .error .tooLongToWrite
  else .ok (Json.writeIndented (jsonReport r fs))

/-- The text of the Markdown report, in which the same integers stand. -/
def markdownText (r : ScanResult) (fs : List Finding) : Except Failure Text :=
  if (jsonReport r fs).hasTooLong then .error .tooLongToWrite
  else Markdown.render (reportSummary r fs) fs

/-- The text of a report is put into a file, if there is such a text. -/
def writeText (p : Path) (text : Except Failure Text) (files : Files) :
    Except Failure Unit × Files :=
  match text with
  | .error e => (.error e, files)
  | .ok t => files.writeFile p t

/-- The JSON report is written, if it is asked for. -/
def writeJson (q : ReportRequest) (r : ScanResult) (fs : List Finding) (files : Files) :
    Except Failure Unit × Files :=
  match q.json? with
  | none => (.ok (), files)
  | some p =>
    match files.makeDirectory p.parent with
    | .error e => (.error e, files)
    | .ok files => writeText p (jsonText r fs) files

/-- The Markdown report is written, if it is asked for. -/
def writeMarkdown (q : ReportRequest) (r : ScanResult) (fs : List Finding) (files : Files) :
    Except Failure Unit × Files :=
  match q.markdown? with
  | none => (.ok (), files)
  | some p => writeText p (markdownText r fs) files

/-- The reports that are asked for are written, the JSON report first. -/
def writeReports (q : ReportRequest) (r : ScanResult) (fs : List Finding) (files : Files) :
    Except Failure ReportPaths × Files :=
  match files.makeDirectory q.directory with
  | .error e => (.error e, files)
  | .ok files =>
    match writeJson q r fs files with
    | (.error e, files) => (.error e, files)
    | (.ok (), files) =>
      match writeMarkdown q r fs files with
      | (.error e, files) => (.error e, files)
      | (.ok (), files) => (.ok ⟨q.json?, q.markdown?⟩, files)

/-! ### Choosing findings -/

/-- The findings of a severity and a kind; without either, all of them. -/
def selectFindings (severity : Option Severity) (kind : Option FindingKind) (fs : List Finding) :
    List Finding :=
  fs.filter fun f => severity.all (f.severity == ·) && kind.all (f.kind == ·)

/-- The label of a filter; an empty one does not filter. -/
def filterLabel {α : Type} (read : Text → Except Failure α) (t : Option Text) :
    Except Failure (Option α) :=
  match t with
  | some (c :: cs) => (read (Text.lower (c :: cs))).map some
  | _ => .ok none

/-- The findings that filters given by labels leave. -/
def filterByLabels (severity kind : Option Text) (fs : List Finding) :
    Except Failure (List Finding) := do
  let s ← filterLabel Severity.ofLabel severity
  let k ← filterLabel FindingKind.ofLabel kind
  pure (selectFindings s k fs)

/-- No finding is as severe as the threshold. -/
def passesThreshold (threshold : Severity) (fs : List Finding) : Bool :=
  fs.all fun f => f.severity.rank < threshold.rank

end RepoScan
