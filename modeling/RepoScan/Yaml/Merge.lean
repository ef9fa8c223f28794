import RepoScan.Yaml.Node

/-!
# Merging

A mapping can merge others: the entries of the mappings that its merging keys name are put before
its own entries, so that its own count where both have a key.  `Nodes.flatten` carries this out for
one mapping, and before that for those that it merges, and leaves no merging key in any of them.

A mapping may merge itself, which adds its own entries once more.
-/

namespace RepoScan.Yaml

/-- The keys and values of a mapping. -/
abbrev Entries := List (Nat × Nat)

namespace Nodes

/-- The entries of a node; one that is no mapping has none. -/
def entriesAt (ns : Nodes) (i : Nat) : Entries :=
  match ns.at i with
  | .mapping _ es => es
  | _ => []

/-- The nodes with other entries for a mapping. -/
def withEntries (ns : Nodes) (i : Nat) (es : Entries) : Nodes :=
  ns.setIfInBounds i (.mapping (ns.at i).tag es)

/-- How many mappings can merge one another in a row. -/
def maxMerging : Nat := 980

mutual

/-- The mapping `i` without merging keys. -/
def flattenFor : (fuel depth : Nat) → (i : Nat) → Nodes → Except Failure Nodes
  | 0, _, _, _ => .error .tooDeep
  | fuel + 1, depth, i, ns =>
    if maxMerging ≤ depth then .error .tooDeep
    else flattenFrom fuel depth i [] (ns.entriesAt i) [] ns

/-- The mapping `i` without the merging keys among its entries `rest`, which `passed`, reversed,
come before.  `merged` holds the entries that are merged so far. -/
def flattenFrom : (fuel depth : Nat) → (i : Nat) → (passed rest merged : Entries) → Nodes →
    Except Failure Nodes
  | 0, _, _, _, _, _, _ => .error .tooDeep
  | _, _, i, _, [], merged, ns =>
    .ok (if merged.isEmpty then ns else ns.withEntries i (merged ++ ns.entriesAt i))
  | fuel + 1, depth, i, passed, (k, v) :: rest, merged, ns =>
    match (ns.at k).tag with
    | .merge => do
      let ns := ns.withEntries i (passed.reverseAux rest)
      let (more, ns) ← mergedFor fuel depth v ns
      let es := ns.entriesAt i
      flattenFrom fuel depth i (es.take passed.length).reverse (es.drop passed.length)
        (merged ++ more) ns
    | .default =>
      flattenFrom fuel depth i ((k, v) :: passed) rest merged
        (ns.setIfInBounds k ((ns.at k).withTag .text))
    | _ => flattenFrom fuel depth i ((k, v) :: passed) rest merged ns

/-- The entries that the value of a merging key stands for: those of a mapping, or those of a
sequence of mappings, the last one first. -/
def mergedFor : (fuel depth : Nat) → (v : Nat) → Nodes → Except Failure (Entries × Nodes)
  | 0, _, _, _ => .error .tooDeep
  | fuel + 1, depth, v, ns =>
    match ns.at v with
    | .mapping .. => do
      let ns ← flattenFor fuel (depth + 1) v ns
      pure (ns.entriesAt v, ns)
    | .sequence _ items => mergedFrom fuel depth items [] ns
    | .scalar .. => .error .malformedYaml

/-- The entries of mappings, the last one first; those of the mappings so far are `merged`. -/
def mergedFrom : (fuel depth : Nat) → (items : List Nat) → (merged : Entries) → Nodes →
    Except Failure (Entries × Nodes)
  | 0, _, _, _, _ => .error .tooDeep
  | _, _, [], merged, ns => .ok (merged, ns)
  | fuel + 1, depth, i :: items, merged, ns =>
    match ns.at i with
    | .mapping .. => do
      let ns ← flattenFor fuel (depth + 1) i ns
      mergedFrom fuel depth items (ns.entriesAt i ++ merged) ns
    | _ => .error .malformedYaml

end

/-- More steps than merging takes. -/
def manySteps : Nat := Nat.pow 2 32

/-- The mapping `i` without merging keys, the entries that they name put before its own. -/
def flatten (i : Nat) (ns : Nodes) : Except Failure Nodes := flattenFor manySteps 0 i ns

end Nodes

end RepoScan.Yaml
