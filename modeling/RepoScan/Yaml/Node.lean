import RepoScan.Yaml.Tag
import RepoScan.Yaml.Tokens

/-!
# Nodes

The nodes of a document are numbered, and a collection holds the numbers of its parts.  An alias is
the number of the node that it names.  A collection may be named by an alias before it is complete,
so it can be a part of itself.

`Graph.ofText` reads the nodes of a text.  The tokens are used from left to right, so that of two
faults the one that is met first is reported.

A function of this module takes the longest form at the start of the tokens and gives the rest.
-/

namespace RepoScan.Yaml

/-- A node of a document. -/
inductive Node where
  | scalar (tag : Tag) (t : Text)
  | sequence (tag : Tag) (items : List Nat)
  | mapping (tag : Tag) (entries : List (Nat × Nat))

namespace Node

/-- The node that stands where nothing is written. -/
def empty : Node := scalar .null []

instance : Inhabited Node := ⟨empty⟩

/-- The type of the node. -/
def tag : Node → Tag
  | scalar k _ | sequence k _ | mapping k _ => k

/-- The node with another type. -/
def withTag (k : Tag) : Node → Node
  | scalar _ t => scalar k t
  | sequence _ items => sequence k items
  | mapping _ entries => mapping k entries

end Node

/-- The nodes of a document by their numbers. -/
abbrev Nodes := Array Node

/-- The node with a number. -/
def Nodes.at (ns : Nodes) (i : Nat) : Node := ns.getD i Node.empty

/-- The nodes of a document and the number of its root. -/
structure Graph where
  nodes : Nodes
  root : Nat

/-- How deep collections may be nested. -/
def maxNesting : Nat := 485

/-! ### Anchors and tags -/

/-- The short forms of tags that are known without a directive. -/
def standardHandles : List (Text × Text) := [("!", "!"), ("!!", Tag.namespaceName)]

/-- What stands before the content of a node. -/
structure Properties where
  anchor : Option Text
  /-- The full name of the tag. -/
  tag : Option Text

namespace Properties

/-- The tag leaves the type open. -/
def isOpen (p : Properties) : Bool :=
  match p.tag with
  | none => true
  | some name => name = ("!" : Text)

/-- The type of a node, `k` where the tag leaves it open. -/
def typeOr (k : Tag) (p : Properties) : Tag :=
  match p.tag with
  | none => k
  | some name => if name = ("!" : Text) then k else Tag.ofName name

/-- The type of a scalar.  Where the tag leaves the type open, the form of a plain scalar gives it;
a quoted scalar without a tag is a text. -/
def scalarType (plain : Bool) (t : Text) (p : Properties) : Tag :=
  p.typeOr (if plain || p.tag.isSome then Tag.ofPlain t else .text)

end Properties

/-- What is left to read, and what was read. -/
structure Pending where
  tokens : List Token
  /-- What is met behind the tokens, if not the end of the text. -/
  fault : Option Failure
  nodes : Nodes
  /-- The nodes with anchors, those included that are not complete. -/
  anchors : List (Text × Nat)

namespace Pending

/-- The next token is looked at. -/
def look (s : Pending) : Except Failure Unit :=
  match s.tokens, s.fault with
  | [], some e => .error e
  | _, _ => .ok ()

/-- What is left behind the next token. -/
def skip (s : Pending) : Pending := { s with tokens := s.tokens.drop 1 }

/-- One more node, which may have an anchor, and its number.  An anchor must be new. -/
def add (p : Properties) (n : Node) (s : Pending) : Except Failure (Nat × Pending) :=
  let i := s.nodes.size
  match p.anchor with
  | none => .ok (i, { s with nodes := s.nodes.push n })
  | some a =>
    if (s.anchors.lookup a).isSome then .error .malformedYaml
    else .ok (i, { s with nodes := s.nodes.push n, anchors := (a, i) :: s.anchors })

/-- One more collection inside of `depth` others. -/
def addCollection (depth : Nat) (p : Properties) (n : Node) (s : Pending) :
    Except Failure (Nat × Pending) :=
  if maxNesting ≤ depth then .error .tooDeep else s.add p n

/-- One more node where nothing is written. -/
def addEmpty (s : Pending) : Nat × Pending :=
  (s.nodes.size, { s with nodes := s.nodes.push Node.empty })

/-- The node with a number is complete. -/
def complete (i : Nat) (n : Node) (s : Pending) : Pending :=
  { s with nodes := s.nodes.setIfInBounds i n }

end Pending

/-- The full name of a tag, if its handle is known. -/
def fullName (handles : List (Text × Text)) : (handle : Option Text) → Text → Except Failure Text
  | none, rest => .ok rest
  | some h, rest => orMalformed ((handles.lookup h).map (· ++ rest))

/-- The anchor and the tag at the start of the tokens, in either order. -/
def takeProperties (handles : List (Text × Text)) (s : Pending) :
    Except Failure (Properties × Pending) :=
  match s.tokens with
  | .anchor a :: rest => do
    let s := { s with tokens := rest }
    s.look
    match rest with
    | .tag h t :: rest => pure (⟨some a, some (← fullName handles h t)⟩, { s with tokens := rest })
    | _ => pure (⟨some a, none⟩, s)
  | .tag h t :: rest => do
    let s := { s with tokens := rest }
    s.look
    match rest with
    | .anchor a :: rest =>
      pure (⟨some a, some (← fullName handles h t)⟩, { s with tokens := rest })
    | _ => pure (⟨none, some (← fullName handles h t)⟩, s)
  | _ => .ok (⟨none, none⟩, s)

/-! ### Content -/

/-- The form of node that may stand somewhere. -/
inductive Slot where
  /-- Inside brackets or braces. -/
  | flow
  /-- An item of a block sequence, or the document itself. -/
  | block
  /-- A key or value of a block mapping, where the items of a sequence need no indentation. -/
  | loose
deriving DecidableEq

/-- Nothing is written before this token in a block sequence. -/
def endsItem : List Token → Bool
  | .item :: _ | .blockEnd :: _ => true
  | _ => false

/-- Nothing is written before this token in a sequence without indentation. -/
def endsLooseItem : List Token → Bool
  | .item :: _ | .key :: _ | .value :: _ | .blockEnd :: _ => true
  | _ => false

/-- Nothing is written before this token in a block mapping. -/
def endsEntry : List Token → Bool
  | .key :: _ | .value :: _ | .blockEnd :: _ => true
  | _ => false

/-- Nothing is written before this token between brackets or braces, where `close` ends them. -/
def endsFlow (close : Token) : List Token → Bool
  | .comma :: _ => true
  | k :: _ => k == close
  | [] => false

/-- As `endsFlow`, for a key. -/
def endsFlowKey (close : Token) : List Token → Bool
  | .value :: _ => true
  | ks => endsFlow close ks

/-- The reader behind the comma before an item or entry that is not the first one.  A closing mark
needs no comma before it. -/
def takeComma (close : Token) (first : Bool) (s : Pending) : Except Failure Pending := do
  s.look
  match s.tokens with
  | .comma :: _ =>
    if first then pure s
    else
      let s := s.skip
      s.look
      pure s
  | k :: _ => if first || k == close then pure s else throw .malformedYaml
  | [] => if first then pure s else throw .malformedYaml

mutual

/-- The node at the start of the tokens, inside of `depth` collections. -/
def takeNode (handles : List (Text × Text)) : (fuel depth : Nat) → Slot → Pending →
    Except Failure (Nat × Pending)
  | 0, _, _, _ => .error .tooDeep
  | fuel + 1, depth, slot, s => do
    s.look
    match s.tokens with
    | .alias name :: rest => pure (← orMalformed (s.anchors.lookup name), { s with tokens := rest })
    | _ =>
      let (p, s) ← takeProperties handles s
      s.look
      takeContent handles fuel depth slot p s

/-- The content of a node with the given properties. -/
def takeContent (handles : List (Text × Text)) : (fuel depth : Nat) → Slot → Properties →
    Pending → Except Failure (Nat × Pending)
  | 0, _, _, _, _ => .error .tooDeep
  | fuel + 1, depth, slot, p, s =>
    match s.tokens, slot with
    | .scalar plain t :: _, _ => s.skip.add p (.scalar (p.scalarType plain t) t)
    | .openBracket :: _, _ => do
      let k := p.typeOr .sequence
      let (i, s) ← s.skip.addCollection depth p (.sequence k [])
      let (items, s) ← takeFlowItems handles fuel (depth + 1) true [] s
      pure (i, s.complete i (.sequence k items))
    | .openBrace :: _, _ => do
      let k := p.typeOr .mapping
      let (i, s) ← s.skip.addCollection depth p (.mapping k [])
      let (entries, s) ← takeFlowEntries handles fuel (depth + 1) true [] s
      pure (i, s.complete i (.mapping k entries))
    | .item :: _, .loose => do
      let k := p.typeOr .sequence
      let (i, s) ← s.addCollection depth p (.sequence k [])
      let (items, s) ← takeItems handles fuel (depth + 1) true [] s
      pure (i, s.complete i (.sequence k items))
    | .blockSequence :: _, .block | .blockSequence :: _, .loose => do
      let k := p.typeOr .sequence
      let (i, s) ← s.skip.addCollection depth p (.sequence k [])
      let (items, s) ← takeItems handles fuel (depth + 1) false [] s
      pure (i, s.complete i (.sequence k items))
    | .blockMapping :: _, .block | .blockMapping :: _, .loose => do
      let k := p.typeOr .mapping
      let (i, s) ← s.skip.addCollection depth p (.mapping k [])
      let (entries, s) ← takeEntries handles fuel (depth + 1) [] s
      pure (i, s.complete i (.mapping k entries))
    | _, _ =>
      if p.anchor.isSome || p.tag.isSome then
        s.add p (.scalar (if p.isOpen then .null else p.typeOr .null) [])
      else .error .malformedYaml

/-- The items of a block sequence and its end; a loose sequence, which is not indented, has no end
of its own.  `done` holds the items so far, reversed. -/
def takeItems (handles : List (Text × Text)) : (fuel depth : Nat) → (loose : Bool) →
    (done : List Nat) → Pending → Except Failure (List Nat × Pending)
  | 0, _, _, _, _ => .error .tooDeep
  | fuel + 1, depth, loose, done, s => do
    s.look
    match s.tokens with
    | .item :: rest =>
      let s := s.skip
      s.look
      let (i, s) ←
        if (if loose then endsLooseItem rest else endsItem rest) then pure s.addEmpty
        else takeNode handles fuel depth .block s
      takeItems handles fuel depth loose (i :: done) s
    | .blockEnd :: _ => pure (done.reverse, if loose then s else s.skip)
    | _ => if loose then pure (done.reverse, s) else throw .malformedYaml

/-- The value after a key of a block mapping. -/
def takeValue (handles : List (Text × Text)) : (fuel depth : Nat) → Pending →
    Except Failure (Nat × Pending)
  | 0, _, _ => .error .tooDeep
  | fuel + 1, depth, s => do
    s.look
    match s.tokens with
    | .value :: rest =>
      let s := s.skip
      s.look
      if endsEntry rest then pure s.addEmpty else takeNode handles fuel depth .loose s
    | _ => pure s.addEmpty

/-- The entries of a block mapping and its end.  `done` holds the entries so far, reversed. -/
def takeEntries (handles : List (Text × Text)) : (fuel depth : Nat) →
    (done : List (Nat × Nat)) → Pending → Except Failure (List (Nat × Nat) × Pending)
  | 0, _, _, _ => .error .tooDeep
  | fuel + 1, depth, done, s => do
    s.look
    match s.tokens with
    | .key :: rest =>
      let s := s.skip
      s.look
      let (k, s) ←
        if endsEntry rest then pure s.addEmpty else takeNode handles fuel depth .loose s
      let (v, s) ← takeValue handles fuel depth s
      takeEntries handles fuel depth ((k, v) :: done) s
    | .blockEnd :: _ => pure (done.reverse, s.skip)
    | _ => throw .malformedYaml

/-- The key and value of an entry between brackets or braces whose key has a mark. -/
def takeFlowEntry (handles : List (Text × Text)) (close : Token) : (fuel depth : Nat) →
    Pending → Except Failure ((Nat × Nat) × Pending)
  | 0, _, _ => .error .tooDeep
  | fuel + 1, depth, s => do
    s.look
    let (k, s) ←
      if endsFlowKey close s.tokens then pure s.addEmpty else takeNode handles fuel depth .flow s
    s.look
    match s.tokens with
    | .value :: rest =>
      let s := s.skip
      s.look
      let (v, s) ←
        if endsFlow close rest then pure s.addEmpty else takeNode handles fuel depth .flow s
      pure ((k, v), s)
    | _ =>
      let (v, s) := s.addEmpty
      pure ((k, v), s)

/-- The items between brackets from the next one on, and the closing bracket.  Before the first
one there is no comma.  `done` holds the items so far, reversed. -/
def takeFlowItems (handles : List (Text × Text)) : (fuel depth : Nat) → (first : Bool) →
    (done : List Nat) → Pending → Except Failure (List Nat × Pending)
  | 0, _, _, _, _ => .error .tooDeep
  | fuel + 1, depth, first, done, s => do
    let s ← takeComma .closeBracket first s
    match s.tokens with
    | .closeBracket :: _ => pure (done.reverse, s.skip)
    | .key :: _ =>
      let (i, s) ← s.skip.addCollection depth ⟨none, none⟩ (.mapping .mapping [])
      let (e, s) ← takeFlowEntry handles .closeBracket fuel (depth + 1) s
      s.look
      takeFlowItems handles fuel depth false (i :: done) (s.complete i (.mapping .mapping [e]))
    | _ =>
      let (i, s) ← takeNode handles fuel depth .flow s
      takeFlowItems handles fuel depth false (i :: done) s

/-- The entries between braces from the next one on, and the closing brace.  A key without a mark
has no value.  `done` holds the entries so far, reversed. -/
def takeFlowEntries (handles : List (Text × Text)) : (fuel depth : Nat) → (first : Bool) →
    (done : List (Nat × Nat)) → Pending → Except Failure (List (Nat × Nat) × Pending)
  | 0, _, _, _, _ => .error .tooDeep
  | fuel + 1, depth, first, done, s => do
    let s ← takeComma .closeBrace first s
    match s.tokens with
    | .closeBrace :: _ => pure (done.reverse, s.skip)
    | .key :: _ =>
      let (e, s) ← takeFlowEntry handles .closeBrace fuel depth s.skip
      takeFlowEntries handles fuel depth false (e :: done) s
    | _ =>
      let (k, s) ← takeNode handles fuel depth .flow s
      s.look
      let (v, s) := s.addEmpty
      takeFlowEntries handles fuel depth false ((k, v) :: done) s

end

/-! ### Documents -/

/-- What the directives of a document set. -/
structure Settings where
  hasVersion : Bool
  handles : List (Text × Text)

namespace Settings

/-- One more directive.  A version, which has to be the first major one, and each short form are
set once. -/
def add (s : Settings) : Directive → Except Failure Settings
  | .version major =>
    if s.hasVersion || major != 1 then .error .malformedYaml else .ok { s with hasVersion := true }
  | .tag handle full =>
    if (s.handles.lookup handle).isSome then .error .malformedYaml
    else .ok { s with handles := (handle, full) :: s.handles }
  | .other => .ok s

/-- What the directives at the start of the tokens set, and the rest. -/
def take (settings : Settings) : (tokens : List Token) → Pending →
    Except Failure (Settings × Pending)
  | .directive d :: rest, s => do
    let settings ← settings.add d
    let s := { s with tokens := rest }
    s.look
    settings.take rest s
  | _, s => .ok (settings, s)

end Settings

/-- Nothing is written in the document. -/
def isBlankDocument : List Token → Bool
  | [] => true
  | .directive _ :: _ | .documentStart :: _ | .documentEnd :: _ => true
  | _ => false

/-- The node of a document whose start is behind the tokens. -/
def takeRoot (handles : List (Text × Text)) (s : Pending) : Except Failure (Nat × Pending) :=
  takeNode handles (4 * s.tokens.length + 4) 0 .block s

/-- The directives of a document and the mark of its start. -/
def takeStart (s : Pending) : Except Failure (Settings × Pending) := do
  let (settings, s) ← Settings.take ⟨false, []⟩ s.tokens s
  match s.tokens with
  | .documentStart :: _ => pure (settings, s.skip)
  | _ => throw .malformedYaml

/-- The document at the start of the tokens. -/
def takeDocument (s : Pending) : Except Failure (Nat × Pending) :=
  match s.tokens with
  | .directive _ :: _ | .documentStart :: _ => do
    let (settings, s) ← takeStart s
    s.look
    if isBlankDocument s.tokens then pure s.addEmpty
    else takeRoot (settings.handles ++ standardHandles) s
  | _ => takeRoot standardHandles s

/-- Nothing but marks of the document's end is left. -/
def checkEnd (s : Pending) : Except Failure Unit := do
  let s : Pending := { s with tokens := s.tokens.dropWhile (· == Token.documentEnd) }
  s.look
  if !s.tokens.isEmpty then
    let _ ← takeStart s
    throw Failure.malformedYaml

/-- The nodes of the only document of a text. -/
def Graph.ofText (t : Text) : Except Failure Graph := do
  let (tokens, fault) := tokensOf (prepare t)
  let s : Pending := ⟨tokens, fault, #[], []⟩
  s.look
  if s.tokens.isEmpty then pure ⟨#[Node.empty], 0⟩
  else
    let (root, s) ← takeDocument s
    checkEnd s
    pure ⟨s.nodes, root⟩

end RepoScan.Yaml
