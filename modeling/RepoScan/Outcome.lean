import RepoScan.Notice
import RepoScan.Path

/-!
# Outcomes

What the program does to the world outside is kept as a list of events.  An `Outcome` holds the
events of some work, in order, and its result; the events of failed work are kept too.

* `Outcome.bind` : of two pieces of work in a row the second one runs only if the first one
  succeeds, and its events follow those of the first one;
* `Outcome.attempt` : the result of work, a failure included;
* `Session` : work that also changes a state, which is kept even where the work fails.
-/

namespace RepoScan

/-- A request to the hosting service. -/
inductive Request where
  /-- A connection is made, to a host of its own or with credentials. -/
  | connect (host credentials : Option Text)
  /-- A repository is looked up by its full name. -/
  | lookup (name : Text)
  /-- What is at a path is asked for. -/
  | contents (path : Text)
  /-- The body of a file is asked for. -/
  | blob (id : Text)
  /-- The connection is closed. -/
  | close
deriving DecidableEq

/-- A command to be run by the operating system. -/
structure Command where
  words : List Text
  directory : Option Path
  /-- The environment, where it is not that of the program itself. -/
  environment : Option (List (Text × Text))
deriving DecidableEq

/-- What the program does to the world outside. -/
inductive Event where
  | notice (n : Notice)
  | request (r : Request)
  /-- A process is started, or the attempt to start it fails. -/
  | start (c : Command)
  /-- A process is killed. -/
  | kill (c : Command)
  /-- A line is printed. -/
  | print (line : Text)

/-- The events of some work and its result. -/
structure Outcome (α : Type) where
  events : List Event
  result : Except Failure α

namespace Outcome

/-- Work without events. -/
def pure {α : Type} (a : α) : Outcome α := ⟨[], .ok a⟩

/-- Two pieces of work in a row. -/
def bind {α β : Type} (x : Outcome α) (f : α → Outcome β) : Outcome β :=
  match x.result with
  | .error e => ⟨x.events, .error e⟩
  | .ok a => ⟨x.events ++ (f a).events, (f a).result⟩

instance : Monad Outcome where
  pure := Outcome.pure
  bind := Outcome.bind

/-- Work that fails. -/
def fail {α : Type} (e : Failure) : Outcome α := ⟨[], .error e⟩

/-- Work that is one event. -/
def emit (e : Event) : Outcome Unit := ⟨[e], .ok ()⟩

/-- Work that tells something. -/
def tell (n : Notice) : Outcome Unit := emit (.notice n)

/-- Work without events that may fail. -/
def ofExcept {α : Type} (r : Except Failure α) : Outcome α := ⟨[], r⟩

/-- The result of work, a failure included. -/
def attempt {α : Type} (x : Outcome α) : Outcome (Except Failure α) := ⟨x.events, .ok x.result⟩

/-- The notices among the events. -/
def notices {α : Type} (x : Outcome α) : List Notice :=
  x.events.filterMap fun e => match e with
    | .notice n => some n
    | _ => none

end Outcome

/-- Work that changes a state.  The state is kept even where the work fails. -/
def Session (σ α : Type) := σ → Outcome α × σ

namespace Session

/-- Work on a state that is given. -/
def run {σ α : Type} (x : Session σ α) (s : σ) : Outcome α × σ := x s

/-- Work that leaves the state alone. -/
def lift {σ α : Type} (x : Outcome α) : Session σ α := fun s => (x, s)

/-- Two pieces of work in a row. -/
def bind {σ α β : Type} (x : Session σ α) (f : α → Session σ β) : Session σ β := fun s =>
  match x s with
  | (⟨events, .error e⟩, s) => (⟨events, .error e⟩, s)
  | (⟨events, .ok a⟩, s) =>
    let (y, s) := f a s
    (⟨events ++ y.events, y.result⟩, s)

instance {σ : Type} : Monad (Session σ) where
  pure a := lift (Outcome.pure a)
  bind := Session.bind

/-- The state. -/
def state {σ : Type} : Session σ σ := fun s => (Outcome.pure s, s)

/-- Work that changes the state and nothing else. -/
def change {σ : Type} (f : σ → σ) : Session σ Unit := fun s => (Outcome.pure (), f s)

/-- The result of work, a failure included. -/
def attempt {σ α : Type} (x : Session σ α) : Session σ (Except Failure α) := fun s =>
  let (y, s) := x s
  (y.attempt, s)

end Session

end RepoScan
