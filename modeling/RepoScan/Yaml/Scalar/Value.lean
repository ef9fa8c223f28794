import RepoScan.Text.Base64
import RepoScan.Yaml.Merge
import RepoScan.Yaml.Number

/-!
# The values of scalars

A scalar becomes what its tag asks for.  A mapping may stand for a scalar: it then has an entry whose
key is the key of a default value, and the value of that entry is the scalar.
-/

namespace RepoScan.Yaml

/-- The value of a scalar. -/
def scalarValue (k : Tag) (t : Text) : Except Failure Value :=
  match k with
  | .null => .ok .null
  | .bool =>
    match Tag.truths.lookup (Text.lower t) with
    | some b => .ok (.bool b)
    | none => .error (.missingEntry (Text.lower t))
  | .int => (intOf t).map .int
  | .real => (realOf t).map .real
  | .bytes =>
    if t.all (·.isAscii) then
      match Base64.decode? t with
      | some b => .ok (.bytes b)
      | none => .error .malformedYaml
    else .error .malformedYaml
  | .moment => momentOf t
  | .text => .ok (.text t)
  | _ => .error .malformedYaml

namespace Nodes

/-- How many mappings can stand for one another in a row. -/
def maxStanding : Nat := 980

/-- The text that a node stands for, after at most `fuel` defaults. -/
def textAt (ns : Nodes) : (fuel : Nat) → (i : Nat) → Except Failure Text
  | 0, _ => .error .tooDeep
  | fuel + 1, i =>
    match ns.at i with
    | .scalar _ t => .ok t
    | .sequence .. => .error .malformedYaml
    | .mapping _ es =>
      match es.find? fun e => (ns.at e.1).tag == .default with
      | some e => textAt ns fuel e.2
      | none => .error .malformedYaml

/-- The value of a node with the tag of a scalar.  A moment is read from a scalar only. -/
def valueAt (ns : Nodes) (i : Nat) : Except Failure Value := do
  let t ← textAt ns maxStanding i
  match (ns.at i), (ns.at i).tag with
  | .mapping .., .moment => throw .collectionAsMoment
  | _, k => scalarValue k t

/-- The node is a name for what is not a number, of which there is one; every other spelling of it
is a number of its own. -/
def isNamedNan (ns : Nodes) (i : Nat) : Bool :=
  match textAt ns maxStanding i with
  | .ok t => Tag.unsigned (Text.lower (withoutLines t)) == ".nan"
  | .error _ => false

end Nodes

end RepoScan.Yaml
