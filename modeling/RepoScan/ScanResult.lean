import RepoScan.Finding

/-!
# Results

What a scan reports of one repository.  A scan that fails has no findings but an error.
-/

namespace RepoScan

/-- Whether a scan reached its end. -/
inductive ScanStatus where
  | completed
  | failed
deriving DecidableEq

namespace ScanStatus

/-- The status in reports. -/
def label : ScanStatus → Text
  | completed => "completed"
  | failed => "failed"

/-- The status with a label. -/
def ofLabel (t : Text) : Except Failure ScanStatus :=
  match [completed, failed].find? fun s => s.label == t with
  | some s => .ok s
  | none => .error (.unknownLabel "ScanStatus" t)

end ScanStatus

/-- The outcome of one scan.  The repository is kept as it was asked for, whatever it was. -/
structure ScanResult where
  id : Text
  repository : Value
  timestamp : Moment
  status : ScanStatus
  findings : List Finding
  error : Option Text

namespace ScanResult

/-- The result of a scan that reached its end. -/
def completed (id : Text) (timestamp : Moment) (repository : Value) (findings : List Finding) :
    ScanResult :=
  ⟨id, repository, timestamp, .completed, findings, none⟩

/-- The result of a scan that failed. -/
def failed (id : Text) (timestamp : Moment) (repository : Value) (error : Text) : ScanResult :=
  ⟨id, repository, timestamp, .failed, [], some error⟩

/-- The entries that tell which scan it was, as reports begin with. -/
def header (r : ScanResult) : List (Value × Value) :=
  [(.text "id", .text r.id), (.text "repositoryUrl", r.repository),
    (.text "timestamp", .text r.timestamp.toIso), (.text "status", .text r.status.label)]

/-- What a failed scan reports as its error. -/
def errorText (r : ScanResult) : Text :=
  match r.error with
  | some (c :: t) => c :: t
  | _ => "Unknown error occurred"

/-- The entries of the result with the given findings. -/
def entriesWith (r : ScanResult) (fs : List Finding) : List (Value × Value) :=
  r.header ++ [(.text "findings", .list (fs.map Finding.toValue))]
    ++ (if r.status = .failed then [(.text "error", .text r.errorText)] else [])

/-- The result as a value of a document. -/
def toValue (r : ScanResult) : Value := .map (r.entriesWith r.findings)

end ScanResult

end RepoScan
