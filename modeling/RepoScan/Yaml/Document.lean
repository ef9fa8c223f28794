import RepoScan.Value.MemberOrder
import RepoScan.Yaml.Scalar.Value

/-!
# Documents

What the nodes of a document become.  A `Part` is a scalar or a collection of other parts, given by
their numbers; `Document.read` makes the parts of a text.

The parts are made in rounds.  Making a collection leaves it empty until the next round, which
makes what belongs into it; scalars are made at once.  So of several nodes that cannot be made the
one nearest to the root is reported, and a collection may be a part of itself.
-/

namespace RepoScan.Yaml

/-- What a node became.  Parts that belong to another one are given by their numbers. -/
inductive Part where
  | scalar (v : Value)
  | list (items : List Nat)
  | pair (first second : Nat)
  | set (items : List Nat)
  | map (entries : Entries)

instance : Inhabited Part := ⟨.scalar .null⟩

/-- A document: its parts by their numbers, and the number of its root. -/
structure Document where
  parts : Array Part
  root : Nat

/-- What is made so far. -/
structure Making where
  nodes : Nodes
  /-- The parts by the numbers of their nodes; pairs, which are no nodes, come after them. -/
  parts : Array (Option Part)
  /-- The collections that are to be filled, the last one first. -/
  due : List Nat

namespace Making

/-- The part of a node, if it is made. -/
def part? (m : Making) (i : Nat) : Option Part := m.parts.getD i none

/-- The value of a made scalar. -/
def scalarAt (m : Making) (i : Nat) : Value :=
  match m.part? i with
  | some (.scalar v) => v
  | _ => .null

/-- The making with a part. -/
def put (i : Nat) (p : Part) (m : Making) : Making :=
  { m with parts := m.parts.setIfInBounds i (some p) }

/-- A collection is made, empty, and is to be filled. -/
def begin (i : Nat) (p : Part) (m : Making) : Making :=
  let m := m.put i p
  { m with due := i :: m.due }

/-- The node is made, if it is not yet. -/
def make (i : Nat) (m : Making) : Except Failure Making :=
  if (m.part? i).isSome then .ok m
  else match (m.nodes.at i).tag with
    | .sequence | .pairs => .ok (m.begin i (.list []))
    | .mapping => .ok (m.begin i (.map []))
    | .set => .ok (m.begin i (.set []))
    | _ => (m.nodes.valueAt i).map fun v => m.put i (.scalar v)

/-! ### Keys -/

/-- A key of a mapping: the number of its node, its value, and whether it is a number that equals
no number of another node. -/
structure Key where
  index : Nat
  value : Value
  isUnequal : Bool

/-- Two keys are the same. -/
def Key.same (a b : Key) : Bool :=
  a.index == b.index || (!a.isUnequal && !b.isUnequal && a.value.sameKey b.value)

/-- The key that a made node is; a collection is none. -/
def key (i : Nat) (m : Making) : Except Failure Key :=
  match m.part? i with
  | some (.scalar v) =>
    let isNan := match v with
      | .real .nan => true
      | _ => false
    .ok ⟨i, v, isNan && !m.nodes.isNamedNan i⟩
  | _ => .error .malformedYaml

/-- The entries with one more.  A key that is there already keeps its place and gets the new
value. -/
def putEntry (k : Key) (v : Nat) (entries : List (Key × Nat)) : List (Key × Nat) :=
  if entries.any fun e => e.1.same k then
    entries.map fun e => if e.1.same k then (e.1, v) else e
  else (k, v) :: entries

/-! ### Filling collections -/

/-- The nodes are made. -/
def makeAll (m : Making) (items : List Nat) : Except Failure Making :=
  items.foldlM (fun m i => m.make i) m

/-- The keys and values of entries are made.  `done` holds the entries so far, the last one
first. -/
def makeEntries : Entries → (done : List (Key × Nat)) → Making → Except Failure (Entries × Making)
  | [], done, m => .ok (done.reverse.map fun e => (e.1.index, e.2), m)
  | (k, v) :: es, done, m => do
    let m ← m.make k
    let key ← m.key k
    let m ← m.make v
    makeEntries es (putEntry key v done) m

/-- The pairs of mappings with one entry each are made.  `done` holds the numbers of the pairs so
far, reversed. -/
def makePairs : (items : List Nat) → (done : List Nat) → Making →
    Except Failure (List Nat × Making)
  | [], done, m => .ok (done.reverse, m)
  | i :: items, done, m =>
    match m.nodes.at i with
    | .mapping _ [(k, v)] => do
      let m ← m.make k
      let m ← m.make v
      makePairs items (m.parts.size :: done) { m with parts := m.parts.push (some (.pair k v)) }
    | _ => .error .malformedYaml

/-- The entries of a node that has to be a mapping. -/
def fillEntries (i : Nat) (m : Making) : Except Failure (Entries × Making) :=
  match m.nodes.at i with
  | .mapping .. => do
    let nodes ← m.nodes.flatten i
    makeEntries (nodes.entriesAt i) [] { m with nodes := nodes }
  | _ => .error .malformedYaml

/-- A collection is filled. -/
def fill (i : Nat) (m : Making) : Except Failure Making :=
  match (m.nodes.at i).tag, m.nodes.at i with
  | .sequence, .sequence _ items => do
    let m ← m.makeAll items
    pure (m.put i (.list items))
  | .pairs, .sequence _ items => do
    let (pairs, m) ← makePairs items [] m
    pure (m.put i (.list pairs))
  | .mapping, _ => do
    let (es, m) ← m.fillEntries i
    pure (m.put i (.map es))
  | .set, _ => do
    let (es, m) ← m.fillEntries i
    pure (m.put i (.set (Value.listed (es.map fun e => (e.1, m.scalarAt e.1)))))
  | _, _ => .error .malformedYaml

/-- The collections that are due are filled, and then those that became due by that.  `fuel` bounds
the number of rounds; each round makes a node at least. -/
def rounds : (fuel : Nat) → Making → Except Failure Making
  | 0, m => .ok m
  | fuel + 1, m =>
    if m.due.isEmpty then .ok m
    else do
      let m ← m.due.reverse.foldlM (fun m i => m.fill i) { m with due := [] }
      rounds fuel m

end Making

namespace Document

/-- The document that nodes make up. -/
def ofGraph (g : Graph) : Except Failure Document := do
  let m : Making := ⟨g.nodes, Array.replicate g.nodes.size none, []⟩
  let m ← m.make g.root
  let m ← m.rounds (g.nodes.size + 1)
  pure ⟨m.parts.map fun p => p.getD (.scalar .null), g.root⟩

/-- The document of a text. -/
def read (t : Text) : Except Failure Document := do
  if !t.all isAllowed then throw .malformedYaml
  ofGraph (← Graph.ofText t)

end Document

end RepoScan.Yaml
