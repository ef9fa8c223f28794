import RepoScan.ScanResult

/-!
# Summaries

The counts of a report: how many findings there are, of each severity and of each kind, and the
files with the highest scores.  A file's score is the highest of its findings, and a finding
without a score counts as zero.
-/

namespace RepoScan

/-- A file in a summary. -/
structure FileTally where
  name : Text
  count : Nat
  score : Int
deriving DecidableEq

namespace FileTally

/-- The tally with one more finding. -/
def record (t : FileTally) (f : Finding) : FileTally :=
  { t with count := t.count + 1, score := max t.score (f.score.getD 0) }

/-- The tallies with one more finding; a file takes its place when it is first met. -/
def recordAll : List FileTally → Finding → List FileTally
  | [], f => [record ⟨f.file, 0, 0⟩ f]
  | t :: ts, f => if t.name = f.file then t.record f :: ts else t :: recordAll ts f

/-- `a` ranks at least as high as `b`: by score, and by count among equal scores. -/
def ranksBefore (a b : FileTally) : Bool :=
  b.score < a.score || (b.score = a.score && b.count ≤ a.count)

/-- The tally as a value of a document. -/
def toValue (t : FileTally) : Value :=
  .map [(.text "name", .text t.name), (.text "count", .int t.count), (.text "score", .int t.score)]

end FileTally

/-- The severities in the order of reports. -/
def Severity.reported : List Severity := [.critical, .high, .medium, .low]

/-- The counts of a report. -/
structure Summary where
  total : Nat
  bySeverity : List (Severity × Nat)
  byKind : List (FindingKind × Nat)
  topFiles : List FileTally
deriving DecidableEq

namespace Summary

/-- How many files a summary lists. -/
def listedFiles : Int := 10

/-- The counts of the findings, with the first `top` of the ranked files. -/
def of (fs : List Finding) (top : Int) : Summary where
  total := fs.length
  bySeverity := Severity.reported.map fun s => (s, fs.countP fun f => f.severity = s)
  byKind := FindingKind.all.map fun k => (k, fs.countP fun f => f.kind = k)
  topFiles :=
    Text.slice 0 top ((fs.foldl FileTally.recordAll []).mergeSort FileTally.ranksBefore)

/-- The summary as the entries of a document, headed by the result that it belongs to. -/
def toEntries (s : Summary) (r : ScanResult) : List (Value × Value) :=
  r.header
    ++ [(.text "total", .int s.total),
      (.text "byType", .map (s.byKind.map fun p => (.text p.1.label, .int p.2))),
      (.text "top_files", .list (s.topFiles.map FileTally.toValue))]
    ++ (match r.error with
      | some (c :: t) => [(.text "error", .text (c :: t))]
      | _ => [])
    ++ s.bySeverity.map fun p => (.text p.1.label, .int p.2)

end Summary

end RepoScan
