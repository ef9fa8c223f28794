import RepoScan.Program

/-!
# Tasks

Work that waits for other programs can be called off while it waits.  A `Task` is such work step by
step, so that it can be said what happens if it is called off at any of its waits, and what happens
meanwhile in other tasks.

* `Task.settle` : what comes after a task, however it ends;
* `Task.attempt` : failures are results, but work that was called off stays called off;
* `Task.within` : a task under a time limit, which calls it off;
* `Task.run` : a task alone, with programs that hang until it is called off.
-/

namespace RepoScan

/-- Why work has no result. -/
inductive Halt where
  | failed (e : Failure)
  /-- It was called off while it waited. -/
  | calledOff
deriving DecidableEq

/-- The failure of work that has no result. -/
def Halt.toFailure : Halt → Failure
  | failed e => e
  | calledOff => .calledOff

/-- Work step by step.  It may wait for programs that it started. -/
inductive Task (α : Type) where
  /-- The work is over. -/
  | done (r : Except Halt α)
  /-- Something is told. -/
  | tell (n : Notice) (rest : Task α)
  /-- A command is started, or fails to start.  If the work is called off meanwhile, what was
  started is killed. -/
  | start (c : Command) (rest : Except Halt Unit → Task α)
  /-- The work waits for what a program leaves; nothing comes if it is called off meanwhile. -/
  | await (c : Command) (rest : Option Exit → Task α)
  /-- A program is killed, if it is still there. -/
  | kill (c : Command) (rest : Bool → Task α)
  /-- The work waits until a program is gone. -/
  | reap (c : Command) (rest : Task α)
  /-- From here on the time is limited. -/
  | arm (rest : Task α)
  /-- From here on the time is not limited. -/
  | disarm (rest : Task α)

namespace Task

variable {α β : Type}

/-- A task and what comes after it, however it ends. -/
def settle (x : Task α) (k : Except Halt α → Task β) : Task β :=
  match x with
  | done r => k r
  | tell n rest => tell n (rest.settle k)
  | start c rest => start c fun r => (rest r).settle k
  | await c rest => await c fun e => (rest e).settle k
  | kill c rest => kill c fun found => (rest found).settle k
  | reap c rest => reap c (rest.settle k)
  | arm rest => arm (rest.settle k)
  | disarm rest => disarm (rest.settle k)

/-- Two tasks in a row; the second one is not begun unless the first one succeeds. -/
def bind (x : Task α) (f : α → Task β) : Task β :=
  x.settle fun r => match r with
    | .ok a => f a
    | .error s => done (.error s)

instance : Monad Task where
  pure a := done (.ok a)
  bind := Task.bind

/-- A task that fails. -/
def fail (e : Failure) : Task α := done (.error (.failed e))

/-- A task without steps that may fail. -/
def ofExcept (r : Except Failure α) : Task α := done (r.mapError .failed)

/-- The task of telling something. -/
def say (n : Notice) : Task Unit := tell n (done (.ok ()))

/-- The result of a task, a failure included. -/
def attempt (x : Task α) : Task (Except Failure α) :=
  x.settle fun r => match r with
    | .ok a => done (.ok (.ok a))
    | .error (.failed e) => done (.ok (.error e))
    | .error .calledOff => done (.error .calledOff)

/-- A task of which some failures do not matter. -/
def suppress (matters : Failure → Bool) (x : Task Unit) : Task Unit :=
  x.settle fun r => match r with
    | .error (.failed e) => if matters e then fail e else done (.ok ())
    | r => done r

/-- The program of a command is killed. -/
def killing (c : Command) : Task Unit :=
  kill c fun found => if found then done (.ok ()) else fail .noProcess

end Task

/-- There is no time to begin anything under the limit. -/
def Binary64.isNoTime (limit : Binary64) : Bool :=
  match limit with
  | .nan => false
  | x => !x.isPositive

namespace Task

variable {α : Type}

/-- A task under a time limit, if there is one.  Where the limit leaves no time the task does not
begin.  Otherwise it is called off if the time is over while it waits, and it is over when it has
ended.  When that is, is not said, so the time may be over at any wait; a limit that is not a number
is over at the first one. -/
def within (limit : Option Binary64) (x : Task α) : Task α :=
  match limit with
  | none => x
  | some limit =>
    if limit.isNoTime then fail .timedOut
    else arm (x.settle fun r => disarm (match r with
      | .error .calledOff => fail .timedOut
      | r => done r))

/-- What has happened when a task is over, and how it ended. -/
structure Course (α : Type) where
  events : List Event
  result : Except Halt α

/-- The course with an event before it. -/
def Course.after (e : Event) (x : Course α) : Course α := ⟨e :: x.events, x.result⟩

/-- A task alone, in the case that programs that end do so while there is time.  Where it waits for
one that hangs it is called off. -/
def course (ps : Programs) : Task α → Course α
  | done r => ⟨[], r⟩
  | tell n rest => (rest.course ps).after (.notice n)
  | start c rest => ((rest (match c.launch ps with
    | .ok _ => .ok ()
    | .error e => .error (.failed e.toFailure))).course ps).after (.start c)
  | await c rest => (rest (match c.launch ps with
    | .ok (.exits e) => some e
    | _ => none)).course ps
  | kill c rest => ((rest true).course ps).after (.kill c)
  | reap _ rest => rest.course ps
  | arm rest => rest.course ps
  | disarm rest => rest.course ps

/-- The events of a task alone and its result. -/
def run (ps : Programs) (x : Task α) : Outcome α :=
  ⟨(x.course ps).events, (x.course ps).result.mapError Halt.toFailure⟩

end Task

end RepoScan
