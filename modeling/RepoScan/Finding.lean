import RepoScan.Failure
import RepoScan.Value

/-!
# Findings

A finding is one detected issue: what kind it is, how severe and how certain, and where it stands.
Its score and category are derived later, for all findings of a scan together, so a fresh finding
has neither.

Each enumeration lists its values with their labels in `all`, from which reading and writing the
labels are defined.
-/

namespace RepoScan

/-- The kind of issue that a finding reports. -/
inductive FindingKind where
  | secret
  | vulnerability
  | codeSmell
deriving DecidableEq

/-- How severe a finding is, lowest first. -/
inductive Severity where
  | low
  | medium
  | high
  | critical
deriving DecidableEq

/-- How certain it is that a finding is a true positive. -/
inductive Confidence where
  | low
  | medium
  | high
deriving DecidableEq

namespace FindingKind

/-- The kinds, in the order of summaries. -/
def all : List FindingKind := [secret, vulnerability, codeSmell]

/-- The kind in reports. -/
def label : FindingKind → Text
  | secret => "secret"
  | vulnerability => "vulnerability"
  | codeSmell => "code_smell"

/-- The kind with a label. -/
def ofLabel (t : Text) : Except Failure FindingKind :=
  match all.find? fun k => k.label == t with
  | some k => .ok k
  | none => .error (.unknownLabel "FindingType" t)

end FindingKind

namespace Severity

/-- The severities, lowest first. -/
def all : List Severity := [low, medium, high, critical]

/-- The severity in reports. -/
def label : Severity → Text
  | low => "low"
  | medium => "medium"
  | high => "high"
  | critical => "critical"

/-- The severity with a label. -/
def ofLabel (t : Text) : Except Failure Severity :=
  match all.find? fun s => s.label == t with
  | some s => .ok s
  | none => .error (.unknownLabel "Severity" t)

/-- The place of a severity among all. -/
def rank : Severity → Nat
  | low => 0
  | medium => 1
  | high => 2
  | critical => 3

end Severity

namespace Confidence

/-- The degrees of certainty, lowest first. -/
def all : List Confidence := [low, medium, high]

/-- The certainty in reports. -/
def label : Confidence → Text
  | low => "low"
  | medium => "medium"
  | high => "high"

/-- The certainty with a label. -/
def ofLabel (t : Text) : Except Failure Confidence :=
  match all.find? fun c => c.label == t with
  | some c => .ok c
  | none => .error (.unknownLabel "Confidence" t)

end Confidence

/-- Named yes-or-no marks, in the order in which they are written. -/
abbrev Flags := List (Text × Bool)

namespace Flags

/-- The same marks, in whatever order. -/
def same (a b : Flags) : Bool :=
  a.length == b.length && a.all fun f => b.lookup f.1 == some f.2

/-- The marks as a value of a document. -/
def toValue (fs : Flags) : Value := .map (fs.map fun f => (.text f.1, .bool f.2))

end Flags

/-- The marks by which findings are grouped. -/
structure Category where
  byKind : Flags
  bySeverity : Flags
  byLocation : Flags
deriving DecidableEq

namespace Category

/-- The same marks in each group, in whatever order. -/
def same (a b : Category) : Bool :=
  a.byKind.same b.byKind && a.bySeverity.same b.bySeverity && a.byLocation.same b.byLocation

/-- The category as a value of a document. -/
def toValue (c : Category) : Value :=
  .map [(.text "byType", c.byKind.toValue), (.text "bySeverity", c.bySeverity.toValue),
    (.text "byLocation", c.byLocation.toValue)]

end Category

/-- One detected issue. -/
structure Finding where
  kind : FindingKind
  severity : Severity
  confidence : Confidence
  description : Text
  file : Text
  line : Int
  code : Option Text := none
  score : Option Int := none
  category : Option Category := none
deriving DecidableEq

namespace Finding

/-- The finding has a score and a category. -/
def isEnriched (f : Finding) : Bool := f.score.isSome && f.category.isSome

/-- The two findings agree in everything, the order of their marks aside. -/
def same (f g : Finding) : Bool :=
  { f with category := none } = { g with category := none } &&
    match f.category, g.category with
    | none, none => true
    | some a, some b => a.same b
    | _, _ => false

/-- The finding as a value of a document; parts that it lacks are left out. -/
def toValue (f : Finding) : Value :=
  .map ([(.text "type", .text f.kind.label), (.text "severity", .text f.severity.label),
      (.text "confidence", .text f.confidence.label), (.text "description", .text f.description),
      (.text "file", .text f.file), (.text "line", .int f.line)]
    ++ (match f.code with
      | some t => [(.text "code", .text t)]
      | none => [])
    ++ (match f.score with
      | some n => [(.text "severityScore", .int n)]
      | none => [])
    ++ match f.category with
      | some c => [(.text "category", c.toValue)]
      | none => [])

end Finding

end RepoScan
