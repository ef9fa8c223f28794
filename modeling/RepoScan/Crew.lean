import Mathlib.Data.List.Forall2
import Mathlib.Logic.Relation
import RepoScan.Task

/-!
# Tasks side by side

Tasks that do not wait for each other take turns in any order, while their programs run.  A `Worker`
is a task with the processes that it started, and `Worker.Step` is what may happen next: the task
goes on, one of its processes comes to its end, or its time is over while it waits.  A `Crew` is
workers side by side.

* `Worker.Step`, `Crew.Step` : one step;
* `Crew.Reachable` : steps in any order;
* `Crew.EndsIn` : the results of all tasks, once these have ended.
-/

namespace RepoScan

/-! ### Processes -/

/-- How far a process has come. -/
inductive Life where
  | running
  /-- It was killed and is not gone yet. -/
  | dying
  /-- It is gone, and ended by itself. -/
  | ended
  /-- It is gone, since it was killed. -/
  | killed
deriving DecidableEq

/-- The process is gone. -/
def Life.isGone : Life → Bool
  | running | dying => false
  | ended | killed => true

/-- What becomes of a process that is killed. -/
def Life.struck : Life → Life
  | running => dying
  | l => l

/-- What becomes of a process that comes to its end. -/
def Life.finished : Life → Life
  | running => ended
  | dying => killed
  | l => l

/-- A process that was started. -/
structure Process where
  command : Command
  program : Program
  life : Life
  /-- How many times it was killed. -/
  kills : Nat

/-- The process of a command before anything happens to it. -/
def Process.start (c : Command) (p : Program) : Process := ⟨c, p, .running, 0⟩

/-! ### Workers -/

/-- How it is with the time of a task. -/
inductive Alarm where
  /-- It is not limited. -/
  | off
  /-- It is limited. -/
  | set
  /-- It was over before the task was. -/
  | rung
deriving DecidableEq

/-- The alarm of a task whose time is not limited any more. -/
def Alarm.stop : Alarm → Alarm
  | rung => rung
  | _ => off

/-- A task at work. -/
structure Worker (α : Type) where
  task : Task α
  /-- The processes that it started, the last one first. -/
  processes : List Process
  alarm : Alarm

namespace Worker

variable {α : Type}

/-- A task before its first step. -/
def start (x : Task α) : Worker α := ⟨x, [], .off⟩

/-- The task has ended so. -/
def EndsIn (w : Worker α) (r : Except Halt α) : Prop := w.task = .done r

/-- A step of a task or of its processes, with the events in it.  A task deals with the process that
it started last. -/
inductive Step (ps : Programs) : Worker α → List Event → Worker α → Prop
  | tell {n : Notice} {rest : Task α} {procs : List Process} {a : Alarm} :
      Step ps ⟨.tell n rest, procs, a⟩ [.notice n] ⟨rest, procs, a⟩
  | refuse {c : Command} {rest : Except Halt Unit → Task α} {procs : List Process} {a : Alarm}
      {e : Denial} (h : c.launch ps = .error e) :
      Step ps ⟨.start c rest, procs, a⟩ [.start c]
        ⟨rest (.error (.failed e.toFailure)), procs, a⟩
  | launch {c : Command} {rest : Except Halt Unit → Task α} {procs : List Process} {a : Alarm}
      {p : Program} (h : c.launch ps = .ok p) :
      Step ps ⟨.start c rest, procs, a⟩ [.start c] ⟨rest (.ok ()), .start c p :: procs, a⟩
  /-- The time is over while a command is being started, and what was started is killed. -/
  | cut {c : Command} {rest : Except Halt Unit → Task α} {procs : List Process} {p : Program}
      (h : c.launch ps = .ok p) :
      Step ps ⟨.start c rest, procs, .set⟩ [.start c, .kill c]
        ⟨rest (.error .calledOff), ⟨c, p, .killed, 1⟩ :: procs, .rung⟩
  /-- The time is over while a command is being started, and what was started has ended. -/
  | cutEnded {c : Command} {rest : Except Halt Unit → Task α} {procs : List Process} {p : Program}
      (h : c.launch ps = .ok p) (hp : p.ends = true) :
      Step ps ⟨.start c rest, procs, .set⟩ [.start c]
        ⟨rest (.error .calledOff), ⟨c, p, .ended, 0⟩ :: procs, .rung⟩
  /-- What a process leaves is there when it has ended. -/
  | hear {c : Command} {rest : Option Exit → Task α} {e : Exit} {kills : Nat}
      {procs : List Process} {a : Alarm} :
      Step ps ⟨.await c rest, ⟨c, .exits e, .ended, kills⟩ :: procs, a⟩ []
        ⟨rest (some e), ⟨c, .exits e, .ended, kills⟩ :: procs, a⟩
  /-- The time is over while the work waits. -/
  | ring {c : Command} {rest : Option Exit → Task α} {procs : List Process} :
      Step ps ⟨.await c rest, procs, .set⟩ [] ⟨rest none, procs, .rung⟩
  /-- A process that is there is killed, or one that is gone and not known to be. -/
  | kill {c : Command} {rest : Bool → Task α} {p : Program} {l : Life} {kills : Nat}
      {procs : List Process} {a : Alarm} :
      Step ps ⟨.kill c rest, ⟨c, p, l, kills⟩ :: procs, a⟩ [.kill c]
        ⟨rest true, ⟨c, p, l.struck, kills + 1⟩ :: procs, a⟩
  /-- A process is killed that is known to be gone. -/
  | killGone {c : Command} {rest : Bool → Task α} {p : Program} {l : Life} {kills : Nat}
      {procs : List Process} {a : Alarm} (h : l.isGone = true) :
      Step ps ⟨.kill c rest, ⟨c, p, l, kills⟩ :: procs, a⟩ [.kill c]
        ⟨rest false, ⟨c, p, l, kills + 1⟩ :: procs, a⟩
  | reap {c : Command} {rest : Task α} {p : Program} {l : Life} {kills : Nat}
      {procs : List Process} {a : Alarm} (h : l.isGone = true) :
      Step ps ⟨.reap c rest, ⟨c, p, l, kills⟩ :: procs, a⟩ [] ⟨rest, ⟨c, p, l, kills⟩ :: procs, a⟩
  | arm {rest : Task α} {procs : List Process} {a : Alarm} :
      Step ps ⟨.arm rest, procs, a⟩ [] ⟨rest, procs, .set⟩
  | disarm {rest : Task α} {procs : List Process} {a : Alarm} :
      Step ps ⟨.disarm rest, procs, a⟩ [] ⟨rest, procs, a.stop⟩
  /-- A process comes to its end, since it was killed or by itself. -/
  | finish {x : Task α} {before after : List Process} {c : Command} {p : Program} {l : Life}
      {kills : Nat} {a : Alarm} (h : l.isGone = false) (hp : l = .running → p.ends = true) :
      Step ps ⟨x, before ++ ⟨c, p, l, kills⟩ :: after, a⟩ []
        ⟨x, before ++ ⟨c, p, l.finished, kills⟩ :: after, a⟩

end Worker

/-! ### Crews -/

/-- Tasks at work side by side, and what has happened so far. -/
structure Crew (α : Type) where
  workers : List (Worker α)
  log : List Event

namespace Crew

variable {α : Type}

/-- Tasks before the first step of any of them. -/
def start (xs : List (Task α)) : Crew α := ⟨xs.map Worker.start, []⟩

/-- A step of one of the workers. -/
inductive Step (ps : Programs) : Crew α → Crew α → Prop
  | turn (before after : List (Worker α)) (log : List Event) {w w' : Worker α} {es : List Event}
      (h : w.Step ps es w') :
      Step ps ⟨before ++ w :: after, log⟩ ⟨before ++ w' :: after, log ++ es⟩

/-- Steps in any order lead from one state to another. -/
abbrev Reachable (ps : Programs) : Crew α → Crew α → Prop := Relation.ReflTransGen (Step ps)

/-- The tasks have ended so. -/
def EndsIn (y : Crew α) (rs : List (Except Halt α)) : Prop :=
  List.Forall₂ Worker.EndsIn y.workers rs

/-- All processes that were started. -/
def processes (y : Crew α) : List Process := y.workers.flatMap Worker.processes

/-- For each task whether its time was over before it was. -/
def isLate (y : Crew α) : List Bool := y.workers.map fun w => w.alarm == .rung

end Crew

end RepoScan
