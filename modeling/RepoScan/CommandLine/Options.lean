import RepoScan.Finding
import RepoScan.Path
import RepoScan.Pattern.Search

/-!
# Options of the command line

The arguments of the command are one repository and switches, in any order.  A long switch may be
shortened as long as it stays unambiguous, may have its value attached by an equals sign, and
letters of short switches may be joined.  What follows a lone `--` is never a switch.

A switch whose attached value is `--` is given without a value.  For credentials and filters that
means none; the other switches then lack a value that they need.

* `Word.ofArgument` : what an argument is by itself;
* `Options.parse` : the options that arguments give.
-/

namespace RepoScan

/-- Why no options come from the arguments. -/
inductive Stop where
  /-- Help is asked for. -/
  | help
  /-- The arguments make no sense. -/
  | misuse
deriving DecidableEq

/-- The status that the command ends with where it stops. -/
def Stop.status : Stop → Nat
  | help => 0
  | misuse => 2

/-- A switch. -/
inductive Switch where
  | help
  | token
  | config
  | out
  | format
  | severity
  | kind
  | threshold
  | verbose
deriving DecidableEq

namespace Switch

/-- The switches by their names. -/
def names : List (Text × Switch) := [
  ("-h", help), ("--help", help), ("--token", token), ("--config", config), ("--out", out),
  ("--format", format), ("--severity", severity), ("--type", kind), ("--fail-on", threshold),
  ("-v", verbose), ("--verbose", verbose)]

/-- The switch has a value. -/
def hasValue : Switch → Bool
  | help | verbose => false
  | _ => true

end Switch

/-- The options of the command. -/
structure Options where
  repository : Text
  token : Option Text
  config : Path
  /-- The place of the JSON report; the Markdown report is put beside it. -/
  out : Path
  /-- The formats of the reports; all where none is given. -/
  formats : List Text
  severity : Option Severity
  kind : Option FindingKind
  /-- The least severity that makes the command fail. -/
  threshold : Severity
  isVerbose : Bool
  /-- The switches that lack a value, which fails where the value is used. -/
  lacking : List Switch

namespace Options

/-- The options where only the repository is given. -/
def ofRepository (repository : Text) : Options where
  repository := repository
  token := none
  config := Path.ofText "devsecguard.yml"
  out := Path.ofText "reports/scan.json"
  formats := []
  severity := none
  kind := none
  threshold := .critical
  isVerbose := false
  lacking := []

/-- The switch lacks a value. -/
def lacks (o : Options) (s : Switch) : Bool := o.lacking.contains s

end Options

/-! ### Words -/

/-- What is written with a switch in the same argument. -/
inductive Attachment where
  | nothing
  /-- What follows an equals sign. -/
  | value (t : Text)
  /-- What follows the letter of a short switch, after an equals sign if there is one. -/
  | letters (t : Text)

/-- What an argument is. -/
inductive Word where
  | plain (t : Text)
  /-- A lone `--`. -/
  | separator
  | switch (s : Switch) (attached : Attachment)
  /-- Something that looks like a switch and is none. -/
  | unknown

namespace Word

open Pattern in
/-- What looks like a negative number. -/
def negativeNumber : Pattern :=
  start ++ literal "-"
    ++ ((some1 CodePoint.isDecimal ++ stop)
      ||| (many CodePoint.isDecimal ++ literal "." ++ some1 CodePoint.isDecimal ++ stop))

/-- The name in front of an equals sign and what is after the sign, if there is one. -/
def cutValue (t : Text) : Text × Attachment :=
  match Text.cut? "=" t with
  | some (front, back) => (front, .value back)
  | none => (t, .nothing)

/-- The switches that an argument that is no name of one may mean. -/
def candidates (t : Text) : List Word :=
  if t.startsWith "--" then
    let (front, attached) := cutValue t
    (Switch.names.filter fun n => n.1.startsWith front).map fun n => .switch n.2 attached
  else
    (Switch.names.filter fun n => n.1 == t.take 2).map fun n => .switch n.2 (.letters (t.drop 2))

/-- What an argument that is no switch is. -/
def ofOther (t : Text) : Word :=
  if negativeNumber.occursIn t || t.contains ' ' then .plain t else .unknown

/-- What an argument in front of a lone `--` is. -/
def ofArgument (t : Text) : Except Stop Word :=
  if !t.startsWith "-" || t.length = 1 then .ok (.plain t)
  else match Switch.names.lookup t with
    | some s => .ok (.switch s .nothing)
    | none =>
      let (front, attached) := cutValue t
      match attached, Switch.names.lookup front with
      | .value v, some s =>
        .ok (.switch s (if front.startsWith "--" then .value v else .letters v))
      | _, _ =>
        match candidates t with
        | [w] => .ok w
        | [] => .ok (ofOther t)
        | _ => .error .misuse

/-- What the arguments are. -/
def ofArguments : List Text → Except Stop (List Word)
  | [] => .ok []
  | t :: ts =>
    if t = ("--" : Text) then .ok (.separator :: ts.map .plain)
    else do
      let w ← ofArgument t
      let ws ← ofArguments ts
      pure (w :: ws)

end Word

/-! ### Reading options -/

/-- The options as far as they are read. -/
structure Draft where
  /-- The repository is given. -/
  isGiven : Bool
  options : Options
  /-- Something is given that has no meaning. -/
  isOdd : Bool

namespace Draft

/-- The label is one of a list. -/
def choose {α : Type} (label : α → Text) (all : List α) (t : Text) : Except Stop α :=
  match all.find? fun a => label a == t with
  | some a => .ok a
  | none => .error .misuse

/-- The draft with the value of a switch. -/
def put (d : Draft) (s : Switch) (t : Text) : Except Stop Draft :=
  let lacking := d.options.lacking.filter fun l => l == Switch.format || l != s
  let o := { d.options with lacking := lacking }
  match s with
  | .token => .ok { d with options := { o with token := some t } }
  | .config => .ok { d with options := { o with config := Path.ofText t } }
  | .out => .ok { d with options := { o with out := Path.ofText t } }
  | .format => do
    let f ← choose id ["json", "md"] t
    pure { d with options := { o with formats := o.formats ++ [f] } }
  | .severity => do
    let s ← choose Severity.label Severity.all t
    pure { d with options := { o with severity := some s } }
  | .kind => do
    let k ← choose FindingKind.label FindingKind.all t
    pure { d with options := { o with kind := some k } }
  | .threshold => do
    let s ← choose Severity.label Severity.all t
    pure { d with options := { o with threshold := s } }
  | .help | .verbose => .error .misuse

/-- The draft with a switch that has no value. -/
def turnOn (d : Draft) (s : Switch) : Except Stop Draft :=
  match s with
  | .help => .error .help
  | .verbose => .ok { d with options := { d.options with isVerbose := true } }
  | _ => .error .misuse

/-- The draft with a switch that is given without a value. -/
def putNothing (d : Draft) (s : Switch) : Draft :=
  let o := d.options
  match s with
  | .token => { d with options := { o with token := none } }
  | .severity => { d with options := { o with severity := none } }
  | .kind => { d with options := { o with kind := none } }
  | s => { d with options := { o with lacking := s :: o.lacking } }

/-- The switches that a switch and the letters after it stand for. -/
def joined (s : Switch) : Text → Except Stop (List Switch)
  | [] => .ok [s]
  | c :: rest =>
    match Switch.names.lookup [('-' : CodePoint), c] with
    | none => .error .misuse
    | some next => (joined next rest).map fun more => s :: more

/-- The draft with a switch and the letters after it. -/
def putJoined (d : Draft) (s : Switch) (letters : Text) : Except Stop Draft := do
  (← joined s letters).foldlM turnOn d

/-- The draft with a switch and what is attached to it. -/
def putAttached (d : Draft) (s : Switch) (attached : Attachment) : Except Stop Draft :=
  match attached with
  | .nothing => d.turnOn s
  | .value t =>
    if s.hasValue then if t = ("--" : Text) then .ok (d.putNothing s) else d.put s t
    else .error .misuse
  | .letters t => if t.isEmpty then .error .misuse else d.putJoined s t

/-- The draft with the repository, unless that is given already. -/
def putPlain (d : Draft) (t : Text) : Draft :=
  if d.isGiven then { d with isOdd := true }
  else { d with isGiven := true, options := { d.options with repository := t } }

/-- The draft with words.  A `--` belongs to the repository before or after it and has no meaning
elsewhere; a switch that has a value takes the next word. -/
def putWords (d : Draft) : List Word → Except Stop Draft
  | [] => .ok d
  | .unknown :: ws => putWords { d with isOdd := true } ws
  | .separator :: .plain t :: ws => putWords ({ d with isOdd := d.isOdd || d.isGiven }.putPlain t) ws
  | .separator :: ws => putWords { d with isOdd := true } ws
  | .plain t :: .separator :: ws =>
    putWords ({ d with isOdd := d.isOdd || d.isGiven }.putPlain t) ws
  | .plain t :: ws => putWords (d.putPlain t) ws
  | .switch s .nothing :: ws =>
    if s.hasValue then
      match ws with
      | .plain t :: ws => do
        let d ← d.put s t
        putWords d ws
      | _ => .error .misuse
    else do
      let d ← d.turnOn s
      putWords d ws
  | .switch s attached :: ws => do
    let d ← d.putAttached s attached
    putWords d ws

end Draft

/-- The options that the arguments of the command give. -/
def Options.parse (arguments : List Text) : Except Stop Options := do
  let ws ← Word.ofArguments arguments
  let d ← Draft.putWords ⟨false, ofRepository [], false⟩ ws
  if d.isGiven && !d.isOdd then pure d.options else throw .misuse

end RepoScan
