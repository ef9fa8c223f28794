import RepoScan.Files
import RepoScan.Outcome

/-!
# Programs

Other programs do part of the work: version control, the secret scanner, the dependency audit.
`Programs` says what each of them does when it is started, so that whatever is said of all
`Programs` holds however they behave.

* `Command.launch` : what happens when a command is started;
* `Programs.checked` : programs of an operating system that checks what it is given.
-/

namespace RepoScan

/-- What a program leaves when it ends. -/
structure Exit where
  status : Int
  output : Bytes
  complaint : Bytes
  /-- The files that it made, seen from its destination. -/
  files : Files

/-- Why a command does not start. -/
inductive Denial where
  | noSuchFile (path : Text)
  /-- The operating system refuses it for another reason. -/
  | system (name : FailureName) (text : Text)
  /-- A text holds unpaired surrogates that stand for no byte. -/
  | unpaired (given : Text)
  /-- A text holds the character that ends texts. -/
  | null
  /-- The name of a variable holds an equals sign. -/
  | badVariable
  /-- What starts programs fails in a way of its own. -/
  | foreign (name : FailureName) (text : Text)
deriving DecidableEq

/-- The failure to start a command. -/
def Denial.toFailure : Denial → Failure
  | noSuchFile path => .noSuchFile path
  | system name text => .system name text
  | unpaired given => .unpairedForSystem given
  | null => .nullForSystem
  | badVariable => .badVariable
  | foreign name text => .foreign name text

/-- What happens when a command is started. -/
inductive Program where
  /-- It does not start. -/
  | refused (reason : Denial)
  /-- It does not come to an end. -/
  | hangs
  /-- It comes to its end. -/
  | exits (e : Exit)

/-- The program comes to its end if nobody kills it. -/
def Program.ends : Program → Bool
  | exits _ => true
  | refused _ | hangs => false

/-- What each command does; `none` where there is no such program. -/
abbrev Programs := Command → Option Program

namespace Command

/-- The command with these words, run where the program itself runs. -/
def ofWords (words : List Text) : Command := ⟨words, none, none⟩

/-- The command with these words, run in a directory. -/
def inDirectory (directory : Path) (words : List Text) : Command := ⟨words, some directory, none⟩

/-- What a command does once it is started, or why it does not start. -/
def launch (ps : Programs) (c : Command) : Except Denial Program :=
  match ps c with
  | none => .error (.noSuchFile (c.words.headD []))
  | some (.refused reason) => .error reason
  | some p => .ok p

/-! ### What the operating system checks -/

/-- Why the operating system cannot be given a text, if it cannot. -/
def textFault? (t : Text) : Option Denial :=
  if t.any fun c => c.isSurrogate && !c.isHiddenByte then some (.unpaired t)
  else if t.contains '\x00' then some .null
  else none

/-- Why the operating system cannot be given a variable, if it cannot. -/
def variableFault? (v : Text × Text) : Option Denial :=
  if v.1.contains '=' then some .badVariable else (textFault? v.1).or (textFault? v.2)

/-- Why the operating system cannot be given a command, if it cannot. -/
def fault? (c : Command) : Option Denial :=
  ((c.environment.getD []).findSome? variableFault?).or
    ((c.words.findSome? textFault?).or ((c.directory.map Path.toText).bind textFault?))

end Command

/-- The programs of an operating system that checks commands before it looks for programs. -/
def Programs.checked (ps : Programs) : Programs := fun c =>
  match c.fault? with
  | some reason => some (.refused reason)
  | none => ps c

end RepoScan
