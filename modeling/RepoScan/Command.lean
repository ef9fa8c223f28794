import RepoScan.Task
import RepoScan.Text.Lines
import RepoScan.Text.Utf8

/-!
# Running commands

* `Command.execute` : a command is started, and killed if the work is called off before it ends;
* `Command.run` : a command is run and its output is taken.
-/

namespace RepoScan.Command

/-- What is done where the work is called off while a command is running: it is killed, which does
not matter if it is gone, and the work ends when it is gone. -/
def abandon {α : Type} (c : Command) : Task α := do
  Task.suppress (fun e => e != .noProcess) (Task.killing c)
  Task.reap c (.done (.error .calledOff))

/-- A command is started and runs to its end, or is killed. -/
def execute (c : Command) : Task Exit :=
  match c.words with
  | [] => Task.fail .emptyCommand
  | program :: _ => .start c fun
    | .error (.failed (.noSuchFile _)) => Task.fail (.notInstalled program)
    | .error h => .done (.error h)
    | .ok () => .await c fun
      | some e => pure e
      | none => c.abandon

/-- How many characters of a complaint are reported. -/
def complaintLimit : Nat := 200

/-- What a program complains of, as it is reported. -/
def complaintText (complaint : Bytes) : Text :=
  (Text.strip (Utf8.decodeValid complaint)).take complaintLimit

/-- A command is run; any status but the given ones is a failure. -/
def finish (statuses : List Int) (c : Command) : Task Exit := do
  let e ← c.execute
  if statuses.contains e.status then pure e
  else Task.fail (.exited (c.words.headD []) e.status (complaintText e.complaint))

/-- The output of a command as text; any status but the given ones is a failure. -/
def run (statuses : List Int) (c : Command) : Task Text := do
  let e ← c.finish statuses
  pure (Utf8.decode e.output)

end RepoScan.Command
