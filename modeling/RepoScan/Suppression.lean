import RepoScan.Calendar.Iso
import RepoScan.Glob
import RepoScan.Finding
import RepoScan.Yaml.Place

/-!
# Ignore rules

A project accepts findings by ignore rules.  A rule names path patterns, parts of descriptions and
kinds of findings, and matches a finding that meets all that it names; a rule that names nothing
matches nothing.  A rule with an expiry no longer matches after that day.

`IgnoreRule.ofDocument` takes the rules from an ignore file.
-/

namespace RepoScan

open Yaml (Place)

/-- When a rule ends.  A document can give a moment instead of a day; such an expiry cannot be
compared with a day. -/
inductive Expiry where
  | day (d : Date)
  | moment (m : Moment)
deriving DecidableEq

/-- A rule that accepts findings. -/
structure IgnoreRule where
  /-- Path patterns, one of which has to match. -/
  paths : List Text
  /-- Parts of descriptions, one of which has to occur. -/
  descriptions : List Text
  /-- Labels of kinds, one of which has to be the finding's. -/
  kinds : List Text
  /-- The last day of the rule. -/
  expiry : Option Expiry
  /-- Why the findings are accepted. -/
  reason : Place

namespace IgnoreRule

/-- The rule names something. -/
def isSpecific (r : IgnoreRule) : Bool :=
  !(r.paths.isEmpty && r.descriptions.isEmpty && r.kinds.isEmpty)

/-- The finding meets all that the rule names. -/
def covers (r : IgnoreRule) (f : Finding) : Bool :=
  r.isSpecific
    && (r.kinds.isEmpty || r.kinds.contains f.kind.label)
    && (r.paths.isEmpty || r.paths.any fun p => Glob.covers p f.file)
    && (r.descriptions.isEmpty || r.descriptions.any fun d => Text.hasInfix d f.description)

/-- The rule is over on a day. -/
def isExpired (r : IgnoreRule) (today : Date) : Except Failure Bool :=
  match r.expiry with
  | none => .ok false
  | some (.day d) => .ok (d.before today)
  | some (.moment _) => .error .momentAgainstDay

/-- The rule matches the finding on a day. -/
def matchesOn (r : IgnoreRule) (today : Date) (f : Finding) : Except Failure Bool := do
  if ← r.isExpired today then pure false else pure (r.covers f)

/-- Some rule matches the finding on a day; the rules are asked in order up to the first. -/
def anyMatches (today : Date) (f : Finding) : List IgnoreRule → Except Failure Bool
  | [] => .ok false
  | r :: rs => do
    if ← r.matchesOn today f then pure true else anyMatches today f rs

/-- The findings that no rule matches on a day. -/
def filterFindings (rules : List IgnoreRule) (today : Date) :
    List Finding → Except Failure (List Finding)
  | [] => .ok []
  | f :: fs => do
    let ignored ← anyMatches today f rules
    let kept ← filterFindings rules today fs
    pure (if ignored then kept else f :: kept)

/-! ### Ignore files -/

/-- The expiry that a value gives: a day, a moment, or the text of a day. -/
def expiryOf (p : Place) : Option Expiry :=
  match p.scalar? with
  | some (.date d) => some (.day d)
  | some (.moment m) => some (.moment m)
  | some (.text t) => (Date.ofIso? t).map .day
  | _ => none

/-- The texts that a value gives: those of its items, or its own. -/
def textsOf (p : Place) : Except Failure (List Text) :=
  match p.members?, p.scalar? with
  | some items, _ => items.mapM Place.toText
  | none, some .null => .ok []
  | none, _ => p.toText.map fun t => [t]

/-- The rule that the entries of a mapping give. -/
def ofEntries (es : List (Value × Place)) : Except Failure IgnoreRule := do
  pure {
    paths := ← textsOf ((Place.get "paths" es).orElse (Place.get "path" es))
    descriptions := ← textsOf ((Place.get "descriptions" es).orElse (Place.get "description" es))
    kinds := ← textsOf ((Place.get "types" es).orElse (Place.get "type" es))
    expiry := expiryOf ((Place.get "until" es).orElse (Place.get "expires" es))
    reason := Place.get "reason" es }

/-- The mappings among the items of a value that has items. -/
def mappingsOf (p : Place) : Except Failure (List (List (Value × Place))) :=
  match p.members?, p.scalar? with
  | some items, _ => .ok (items.filterMap Place.entries?)
  | none, some v => v.toItems.map fun _ => []
  | none, none => .ok []

/-- The rules of an ignore file, seen from the root of its document. -/
def ofDocument (top : Place) : Except Failure (List IgnoreRule) :=
  match top.entries? with
  | some es => do
    let rules := Place.get "rules" es
    if rules.isTruthy then (← mappingsOf rules).mapM ofEntries else pure []
  | none => if top.isTruthy then .error (.noEntries top.typeName) else .ok []

end IgnoreRule

end RepoScan
