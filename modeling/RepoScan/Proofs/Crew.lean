import RepoScan.Proofs.Result
import RepoScan.Proofs.Task

/-!
# Orderly tasks side by side

A task that is orderly on its own leaves no process behind whatever goes on beside it: what its
worker keeps to does not mention the others.

* `Process.Settled` : what may have become of a process in the end;
* `Worker.Safe.step` : what a worker with an orderly task keeps to at every step;
* `Crew.Holds.step`, `Crew.holds_of_reachable` : a crew keeps to what its workers keep to;
* `Crew.Holds.settled` : **when all tasks have ended no process is running**, and each one has ended
  by itself, without being killed, or was killed once;
* `Crew.Holds.exists_step`, `Crew.Holds.acc` : no run gets stuck, and every run ends;
* `Crew.Holds.results`, `Crew.mayEndIn_of_endsIn` : how tasks end in a crew;
* `Crew.launched_of_reachable`, `Crew.perm_of_booked` : the processes are those of their commands,
  and they are those that the events tell of;
* `Crew.exists_alone` : the tasks may take their turns one after the other.
-/

namespace RepoScan

open Relation (ReflTransGen)

/-! ### Processes -/

/-- What may have become of a process in the end: it ended by itself and was not killed, or it was
killed once, when it was there or already gone. -/
inductive Process.Settled : Process → Prop
  | ended (c : Command) {p : Program} (hp : p.ends = true) : Settled ⟨c, p, .ended, 0⟩
  | killed (c : Command) (p : Program) : Settled ⟨c, p, .killed, 1⟩
  | gone (c : Command) {p : Program} (hp : p.ends = true) : Settled ⟨c, p, .ended, 1⟩

theorem Process.Settled.isGone {q : Process} (h : q.Settled) : q.life.isGone = true := by
  cases h <;> rfl

/-- How many steps a process has left. -/
def Life.left : Life → Nat
  | .running => 2
  | .dying => 1
  | .ended | .killed => 0

/-- The sum of a number for each item. -/
def total {β : Type} (f : β → Nat) : List β → Nat
  | [] => 0
  | x :: xs => f x + total f xs

theorem total_append {β : Type} (f : β → Nat) (xs ys : List β) :
    total f (xs ++ ys) = total f xs + total f ys := by
  induction xs with
  | nil => rw [List.nil_append, total, Nat.zero_add]
  | cons x xs ih => rw [List.cons_append, total, total, ih, Nat.add_assoc]

theorem Life.left_finished {l : Life} (h : l.isGone = false) : l.finished.left < l.left := by
  cases l with
  | running => decide
  | dying => decide
  | ended => cases h
  | killed => cases h

theorem Life.left_struck (l : Life) : l.struck.left ≤ l.left := by
  cases l <;> decide

theorem Life.struck_of_isGone {l : Life} (h : l.isGone = true) : l.struck = l := by
  cases l with
  | running => cases h
  | dying => rfl
  | ended => rfl
  | killed => rfl

/-! ### Workers -/

/-- How the alarm and the processes of a worker go with the phase that its task is in. -/
inductive Task.Phase.Fits (ps : Programs) : Task.Phase → Alarm → List Process → Prop
  | free {a : Alarm} {procs : List Process} (h : ∀ q ∈ procs, q.Settled) :
      Fits ps (.free a) a procs
  | waiting {c : Command} {p : Program} {l : Life} {procs : List Process}
      (hc : c.launch ps = .ok p) (hl : l = .running ∨ l = .ended ∧ p.ends = true)
      (h : ∀ q ∈ procs, q.Settled) : Fits ps (.waiting c) .set (⟨c, p, l, 0⟩ :: procs)
  | killing {c : Command} {p : Program} {l : Life} {procs : List Process}
      (hl : l = .running ∨ l = .ended ∧ p.ends = true) (h : ∀ q ∈ procs, q.Settled) :
      Fits ps (.killing c) .rung (⟨c, p, l, 0⟩ :: procs)
  | reaping {c : Command} {p : Program} {l : Life} {procs : List Process}
      (hl : l ≠ .running) (hp : l = .ended → p.ends = true) (h : ∀ q ∈ procs, q.Settled) :
      Fits ps (.reaping c) .rung (⟨c, p, l, 1⟩ :: procs)

/-- The processes of a worker may come to their ends at any time. -/
theorem Task.Phase.Fits.finish {ps : Programs} {ph : Task.Phase} {a : Alarm}
    {before after : List Process} {c : Command} {p : Program} {l : Life} {kills : Nat}
    (h : ph.Fits ps a (before ++ ⟨c, p, l, kills⟩ :: after)) (hl : l.isGone = false)
    (hp : l = .running → p.ends = true) :
    ph.Fits ps a (before ++ ⟨c, p, l.finished, kills⟩ :: after) := by
  -- a process that is settled has come to its end
  have settled {procs : List Process} (h : ∀ q ∈ procs, q.Settled) :
      ⟨c, p, l, kills⟩ ∉ procs := by
    intro hq
    cases (h _ hq).isGone.symm.trans hl
  have middle (front : List Process) :
      ⟨c, p, l, kills⟩ ∈ front ++ (⟨c, p, l, kills⟩ : Process) :: after :=
    List.mem_append_right _ List.mem_cons_self
  generalize hprocs : before ++ (⟨c, p, l, kills⟩ : Process) :: after = procs at h
  cases h with
  | free h => exact absurd (middle before) (hprocs ▸ settled h)
  | waiting hc hl' h =>
    cases before with
    | nil =>
      cases hprocs
      rcases hl' with rfl | ⟨rfl, -⟩
      · exact .waiting hc (.inr ⟨rfl, hp rfl⟩) h
      · cases hl
    | cons q before =>
      obtain ⟨-, rfl⟩ := List.cons.inj hprocs
      exact absurd (middle before) (settled h)
  | killing hl' h =>
    cases before with
    | nil =>
      cases hprocs
      rcases hl' with rfl | ⟨rfl, -⟩
      · exact .killing (.inr ⟨rfl, hp rfl⟩) h
      · cases hl
    | cons q before =>
      obtain ⟨-, rfl⟩ := List.cons.inj hprocs
      exact absurd (middle before) (settled h)
  | reaping hl' _ h =>
    cases before with
    | nil =>
      cases hprocs
      cases l with
      | running => exact absurd rfl hl'
      | dying => exact .reaping nofun nofun h
      | ended => cases hl
      | killed => cases hl
    | cons q before =>
      obtain ⟨-, rfl⟩ := List.cons.inj hprocs
      exact absurd (middle before) (settled h)

theorem Task.Phase.Fits.kill {ps : Programs} {c : Command} {p : Program} {l : Life} {kills : Nat}
    {procs : List Process} {a : Alarm}
    (h : (Task.Phase.killing c).Fits ps a (⟨c, p, l, kills⟩ :: procs)) :
    (Task.Phase.reaping c).Fits ps a (⟨c, p, l.struck, kills + 1⟩ :: procs) := by
  cases h with
  | killing hl hsettled =>
    rcases hl with rfl | ⟨rfl, hp⟩
    · exact .reaping (by decide) (fun h => Life.noConfusion h) hsettled
    · exact .reaping (by decide) (fun _ => hp) hsettled

theorem Task.Phase.Fits.reap {ps : Programs} {c : Command} {p : Program} {l : Life} {kills : Nat}
    {procs : List Process} {a : Alarm}
    (h : (Task.Phase.reaping c).Fits ps a (⟨c, p, l, kills⟩ :: procs)) (hl : l.isGone = true) :
    (Task.Phase.free .rung).Fits ps a (⟨c, p, l, kills⟩ :: procs) := by
  cases h with
  | reaping _ hp hsettled =>
    refine .free (List.forall_mem_cons.mpr ⟨?_, hsettled⟩)
    cases l with
    | running => cases hl
    | dying => cases hl
    | ended => exact .gone c (hp rfl)
    | killed => exact .killed c p

namespace Worker

variable {α : Type} {ps : Programs} {P : Event → Prop} {Q : Alarm → Except Halt α → Prop}
  {w w' : Worker α} {es : List Event}

/-- The task of the worker is orderly, and its processes are as the task has it. -/
inductive Safe (ps : Programs) (P : Event → Prop) (Q : Alarm → Except Halt α → Prop) :
    Worker α → Prop
  | mk {ph : Task.Phase} {x : Task α} {a : Alarm} {procs : List Process} (hx : x.Orderly P Q ph)
      (h : ph.Fits ps a procs) : Safe ps P Q ⟨x, procs, a⟩

theorem safe_start {x : Task α} (h : x.Orderly P Q (.free .off)) : (start x).Safe ps P Q :=
  .mk h (.free nofun)

/-- What a step of a safe worker leads to: it stays safe, and unless its time is over, the task ends
as it would have ended alone. -/
structure Keeps (ps : Programs) (P : Event → Prop) (Q : Alarm → Except Halt α → Prop)
    (w w' : Worker α) : Prop where
  safe : w'.Safe ps P Q
  course : w'.alarm ≠ .rung → w.alarm ≠ .rung ∧
    (w'.task.course ps).result = (w.task.course ps).result

/-- **A safe worker stays safe.** -/
theorem Safe.step (h : w.Safe ps P Q) (hs : w.Step ps es w') : Keeps ps P Q w w' := by
  cases h with
  | mk hx hfits =>
    cases hs with
    | finish hl hp => exact ⟨.mk hx (hfits.finish hl hp), fun ha => ⟨ha, rfl⟩⟩
    | tell =>
      cases hx with
      | tell _ hx => exact ⟨.mk hx hfits, fun ha => ⟨ha, rfl⟩⟩
    | refuse hc =>
      cases hx with
      | start _ _ refused _ _ =>
        refine ⟨.mk (refused _) hfits, fun ha => ⟨ha, ?_⟩⟩
        simp only [Task.course, Task.Course.after, hc]
    | launch hc =>
      cases hx with
      | start _ _ _ _ begun =>
        cases hfits with
        | free hsettled =>
          refine ⟨.mk begun (.waiting hc (.inl rfl) hsettled), fun ha => ⟨ha, ?_⟩⟩
          simp only [Task.course, Task.Course.after, hc]
    | cut hc =>
      cases hx with
      | start _ _ _ cut _ =>
        cases hfits with
        | free hsettled =>
          exact ⟨.mk cut (.free (List.forall_mem_cons.mpr ⟨.killed .., hsettled⟩)),
            fun ha => absurd rfl ha⟩
    | cutEnded hc hp =>
      cases hx with
      | start _ _ _ cut _ =>
        cases hfits with
        | free hsettled =>
          exact ⟨.mk cut (.free (List.forall_mem_cons.mpr ⟨.ended _ hp, hsettled⟩)),
            fun ha => absurd rfl ha⟩
    | hear =>
      cases hx with
      | await heard _ =>
        cases hfits with
        | waiting hc _ hsettled =>
          refine ⟨.mk (heard _) (.free (List.forall_mem_cons.mpr ⟨.ended _ rfl, hsettled⟩)),
            fun ha => ⟨ha, ?_⟩⟩
          simp only [Task.course, hc]
    | ring =>
      cases hx with
      | await _ late =>
        cases hfits with
        | waiting _ hl hsettled =>
          exact ⟨.mk late (.killing hl hsettled), fun ha => absurd rfl ha⟩
    | kill =>
      cases hx with
      | kill _ next =>
        refine ⟨.mk (next true) hfits.kill, fun ha => ?_⟩
        cases hfits with
        | killing => exact absurd rfl ha
    | killGone hgone =>
      cases hx with
      | kill _ next =>
        refine ⟨.mk (next false) ?_, fun ha => ?_⟩
        · have killed := hfits.kill
          rwa [Life.struck_of_isGone hgone] at killed
        · cases hfits with
          | killing => exact absurd rfl ha
    | reap hgone =>
      cases hx with
      | reap hx =>
        refine ⟨.mk hx (hfits.reap hgone), fun ha => ?_⟩
        cases hfits with
        | reaping => exact absurd rfl ha
    | arm =>
      cases hx with
      | arm hx =>
        cases hfits with
        | free hsettled =>
          exact ⟨.mk hx (.free hsettled), fun _ => ⟨fun h => Alarm.noConfusion h, rfl⟩⟩
    | disarm =>
      cases hx with
      | @disarm a _ hx =>
        cases hfits with
        | free hsettled =>
          refine ⟨.mk hx (.free hsettled), fun ha => ⟨?_, rfl⟩⟩
          rintro rfl
          exact ha rfl

theorem Step.finish_head {x : Task α} {c : Command} {p : Program} {l : Life} {kills : Nat}
    {procs : List Process} {a : Alarm} (h : l.isGone = false) (hp : l = .running → p.ends = true) :
    Step ps ⟨x, ⟨c, p, l, kills⟩ :: procs, a⟩ [] ⟨x, ⟨c, p, l.finished, kills⟩ :: procs, a⟩ :=
  @Step.finish _ _ _ [] _ _ _ _ _ _ h hp

/-- Where a safe worker has not ended something can happen. -/
theorem Safe.exists_step (h : w.Safe ps P Q) (hw : ∀ r, ¬ w.EndsIn r) :
    ∃ es w', w.Step ps es w' := by
  cases h with
  | mk hx hfits =>
    cases hx with
    | done => exact absurd rfl (hw _)
    | tell => exact ⟨_, _, .tell⟩
    | arm => exact ⟨_, _, .arm⟩
    | disarm => exact ⟨_, _, .disarm⟩
    | @start c =>
      cases hc : c.launch ps with
      | ok p => exact ⟨_, _, .launch hc⟩
      | error d => exact ⟨_, _, .refuse hc⟩
    | await =>
      cases hfits with
      | waiting => exact ⟨_, _, .ring⟩
    | kill =>
      cases hfits with
      | killing => exact ⟨_, _, .kill⟩
    | reap =>
      cases hfits with
      | @reaping _ _ l _ hl _ =>
        cases hgone : l.isGone with
        | true => exact ⟨_, _, .reap hgone⟩
        | false => exact ⟨_, _, .finish_head hgone fun hrunning => absurd hrunning hl⟩

/-- How the task of a safe worker has ended, and what has become of its processes then. -/
theorem Safe.ended {r : Except Halt α} (h : w.Safe ps P Q) (he : w.EndsIn r) :
    Q w.alarm r ∧ ∀ q ∈ w.processes, q.Settled := by
  cases h with
  | mk hx hfits =>
    obtain rfl : _ = Task.done r := he
    cases hx with
    | done hr =>
      cases hfits with
      | free hsettled => exact ⟨hr, hsettled⟩

end Worker

theorem Worker.only_step {α : Type} {ps : Programs} {P : Event → Prop} {Q : Except Halt α → Prop}
    {w w' : Worker α} {es : List Event} (h : w.task.Only ps P Q) (hs : w.Step ps es w') :
    w'.task.Only ps P Q ∧ ∀ e ∈ es, P e := by
  cases hs with
  | tell => exact ⟨h.2, List.forall_mem_singleton.mpr h.1⟩
  | refuse hc => exact ⟨h.2.2 _ hc, List.forall_mem_singleton.mpr h.1⟩
  | launch hc => exact ⟨(h.2.1 _ hc).2.1, List.forall_mem_singleton.mpr h.1⟩
  | cut hc =>
    obtain ⟨hkill, -, hcut⟩ := h.2.1 _ hc
    exact ⟨hcut, List.forall_mem_cons.mpr ⟨h.1, List.forall_mem_singleton.mpr hkill⟩⟩
  | cutEnded hc _ => exact ⟨(h.2.1 _ hc).2.2, List.forall_mem_singleton.mpr h.1⟩
  | hear => exact ⟨h _, nofun⟩
  | ring => exact ⟨h _, nofun⟩
  | kill => exact ⟨h.2 _, List.forall_mem_singleton.mpr h.1⟩
  | killGone => exact ⟨h.2 _, List.forall_mem_singleton.mpr h.1⟩
  | reap => exact ⟨h, nofun⟩
  | arm => exact ⟨h, nofun⟩
  | disarm => exact ⟨h, nofun⟩
  | finish => exact ⟨h, nofun⟩

/-! ### Runs come to an end -/

/-- A bound for the steps that a task has left, with two for each process that it starts. -/
def Task.left {α : Type} (ps : Programs) : Task α → Nat
  | done _ => 0
  | tell _ rest => rest.left ps + 1
  | start c rest => (match c.launch ps with
    | .ok _ => (rest (.ok ())).left ps
    | .error d => (rest (.error (.failed d.toFailure))).left ps)
      + (rest (.error .calledOff)).left ps + 3
  | await c rest => (match c.launch ps with
    | .ok (.exits e) => (rest (some e)).left ps
    | _ => 0) + (rest none).left ps + 1
  | kill _ rest => (rest true).left ps + (rest false).left ps + 1
  | reap _ rest => rest.left ps + 1
  | arm rest => rest.left ps + 1
  | disarm rest => rest.left ps + 1

namespace Worker

variable {α : Type} {ps : Programs} {P : Event → Prop} {Q : Alarm → Except Halt α → Prop}
  {w w' : Worker α} {es : List Event}

/-- How many steps a worker has left. -/
def left (ps : Programs) (w : Worker α) : Nat :=
  w.task.left ps + total (fun q => q.life.left) w.processes

theorem Safe.left_lt (h : w.Safe ps P Q) (hs : w.Step ps es w') : w'.left ps < w.left ps := by
  cases hs with
  | tell => simp only [left, Task.left]; omega
  | refuse hc => simp only [left, Task.left, hc]; omega
  | launch hc => simp only [left, Task.left, hc, total, Process.start, Life.left]; omega
  | cut hc => simp only [left, Task.left, hc, total, Life.left]; omega
  | cutEnded hc _ => simp only [left, Task.left, hc, total, Life.left]; omega
  | @hear c rest e =>
    cases h with
    | mk hx hfits =>
      cases hx with
      | await =>
        cases hfits with
        | waiting hc => simp only [left, Task.left, hc]; omega
  | ring => simp only [left, Task.left]; omega
  | @kill c rest p l =>
    have := l.left_struck
    simp only [left, Task.left, total]; omega
  | killGone => simp only [left, Task.left, total]; omega
  | reap => simp only [left, Task.left]; omega
  | arm => simp only [left, Task.left]; omega
  | disarm => simp only [left, Task.left]; omega
  | finish hl _ =>
    have := Life.left_finished hl
    simp only [left, total_append, total]; omega

/-! ### One task after the other -/

/-- Steps of one worker, with the events in them. -/
inductive Runs (ps : Programs) : Worker α → List Event → Worker α → Prop
  | done (w : Worker α) : Runs ps w [] w
  | step {w w' w'' : Worker α} {es es' : List Event} (hs : w.Step ps es w')
      (h : Runs ps w' es' w'') : Runs ps w (es ++ es') w''

theorem Runs.snoc {w w' w'' : Worker α} {es es' : List Event} (h : Runs ps w es w')
    (hs : w'.Step ps es' w'') : Runs ps w (es ++ es') w'' := by
  induction h with
  | done w =>
    have step : Runs ps w (es' ++ []) w'' := .step hs (.done _)
    rwa [List.append_nil] at step
  | step hs' _ ih =>
    rw [List.append_assoc]
    exact .step hs' (ih hs)

/-- A worker may go through its task as if there was nothing else. -/
theorem exists_alone {ph : Task.Phase} {x : Task α} (hx : x.Orderly P Q ph) {a : Alarm}
    {procs : List Process} (h : ph.Fits ps a procs) : ∃ procs' a',
      Runs ps ⟨x, procs, a⟩ (x.course ps).events ⟨.done (x.course ps).result, procs', a'⟩ := by
  induction hx generalizing a procs with
  | done => exact ⟨_, _, .done _⟩
  | tell _ _ ih =>
    cases h with
    | free hsettled =>
      obtain ⟨procs', a', hruns⟩ := ih (.free hsettled)
      exact ⟨procs', a', .step .tell hruns⟩
  | arm _ ih =>
    cases h with
    | free hsettled =>
      obtain ⟨procs', a', hruns⟩ := ih (.free hsettled)
      exact ⟨procs', a', .step .arm hruns⟩
  | disarm _ ih =>
    cases h with
    | free hsettled =>
      obtain ⟨procs', a', hruns⟩ := ih (.free hsettled)
      exact ⟨procs', a', .step .disarm hruns⟩
  | @start c rest _ _ _ _ _ refused _ begun =>
    cases h with
    | free hsettled =>
      rw [Task.course]
      cases hc : c.launch ps with
      | error d =>
        obtain ⟨procs', a', hruns⟩ := refused d (.free hsettled)
        exact ⟨procs', a', .step (.refuse hc) hruns⟩
      | ok p =>
        obtain ⟨procs', a', hruns⟩ := begun (.waiting hc (.inl rfl) hsettled)
        exact ⟨procs', a', .step (.launch hc) hruns⟩
  | @await c _ _ _ heard late =>
    cases h with
    | @waiting _ p l procs hc hl hsettled =>
      rw [Task.course, hc]
      cases p with
      | exits e =>
        have settled : Process.Settled ⟨c, .exits e, .ended, 0⟩ := .ended c rfl
        obtain ⟨procs', a', hruns⟩ :=
          heard e (.free (List.forall_mem_cons.mpr ⟨settled, hsettled⟩))
        rcases hl with rfl | ⟨rfl, -⟩
        · exact ⟨procs', a', .step (.finish_head rfl fun _ => rfl) (.step .hear hruns)⟩
        · exact ⟨procs', a', .step .hear hruns⟩
      | _ =>
        obtain ⟨procs', a', hruns⟩ := late (.killing hl hsettled)
        exact ⟨procs', a', .step .ring hruns⟩
  | @kill c _ _ _ ih =>
    cases h with
    | killing hl hsettled =>
      obtain ⟨procs', a', hruns⟩ := ih true (Task.Phase.Fits.killing hl hsettled).kill
      exact ⟨procs', a', .step .kill hruns⟩
  | @reap c _ _ ih =>
    cases h with
    | @reaping _ p l procs hl hp hsettled =>
      cases l with
      | running => exact absurd rfl hl
      | dying =>
        obtain ⟨procs', a', hruns⟩ :=
          ih (.free (List.forall_mem_cons.mpr ⟨.killed c p, hsettled⟩))
        exact ⟨procs', a', .step (.finish_head rfl fun h => Life.noConfusion h)
          (.step (.reap rfl) hruns)⟩
      | ended =>
        obtain ⟨procs', a', hruns⟩ :=
          ih (.free (List.forall_mem_cons.mpr ⟨.gone c (hp rfl), hsettled⟩))
        exact ⟨procs', a', .step (.reap rfl) hruns⟩
      | killed =>
        obtain ⟨procs', a', hruns⟩ :=
          ih (.free (List.forall_mem_cons.mpr ⟨.killed c p, hsettled⟩))
        exact ⟨procs', a', .step (.reap rfl) hruns⟩

end Worker

/-- The task may end so if nothing goes on beside it. -/
def Task.MayEndIn {α : Type} (ps : Programs) (x : Task α) (r : Except Halt α) : Prop :=
  ∃ es w, Worker.Runs ps (.start x) es w ∧ w.EndsIn r

/-! ### Books -/

namespace Worker

/-- What is counted of processes goes with what is counted of events. -/
def Booked (ps : Programs) (ofProcess : Process → List Command) (ofEvent : Event → Option Command) :
    Prop :=
  ∀ (α : Type) (w w' : Worker α) (es : List Event), w.Step ps es w' →
    (w'.processes.flatMap ofProcess).Perm (es.filterMap ofEvent ++ w.processes.flatMap ofProcess)

end Worker

/-- A process is that of its command. -/
def Process.IsLaunched (ps : Programs) (q : Process) : Prop := q.command.launch ps = .ok q.program

theorem Worker.launched_step {α : Type} {ps : Programs} {w w' : Worker α} {es : List Event}
    (h : ∀ q ∈ w.processes, q.IsLaunched ps) (hs : w.Step ps es w') :
    ∀ q ∈ w'.processes, q.IsLaunched ps := by
  cases hs with
  | launch hc => exact List.forall_mem_cons.mpr ⟨hc, h⟩
  | cut hc => exact List.forall_mem_cons.mpr ⟨hc, h⟩
  | cutEnded hc _ => exact List.forall_mem_cons.mpr ⟨hc, h⟩
  | kill =>
    obtain ⟨hq, hprocs⟩ := List.forall_mem_cons.mp h
    exact List.forall_mem_cons.mpr ⟨hq, hprocs⟩
  | killGone =>
    obtain ⟨hq, hprocs⟩ := List.forall_mem_cons.mp h
    exact List.forall_mem_cons.mpr ⟨hq, hprocs⟩
  | finish =>
    obtain ⟨hbefore, hrest⟩ := List.forall_mem_append.mp h
    obtain ⟨hq, hafter⟩ := List.forall_mem_cons.mp hrest
    exact List.forall_mem_append.mpr ⟨hbefore, List.forall_mem_cons.mpr ⟨hq, hafter⟩⟩
  | _ => exact h

/-- The command that becomes a process in an event. -/
def Event.spawned? (ps : Programs) : Event → Option Command
  | .start c => match c.launch ps with
    | .ok _ => some c
    | .error _ => none
  | _ => none

/-- The command whose process is killed in an event. -/
def Event.killed? : Event → Option Command
  | .kill c => some c
  | _ => none

theorem Worker.booked_spawned (ps : Programs) :
    Booked ps (fun q => [q.command]) (Event.spawned? ps) := by
  intro α w w' es hs
  cases hs with
  | refuse hc => simp [Event.spawned?, hc]
  | launch hc => simp [Event.spawned?, hc, Process.start]
  | cut hc => simp [List.filterMap_cons, Event.spawned?, hc]
  | cutEnded hc _ => simp [Event.spawned?, hc]
  | _ => simp [List.filterMap_cons, Event.spawned?]

theorem Worker.booked_killed (ps : Programs) :
    Booked ps (fun q => List.replicate q.kills q.command) Event.killed? := by
  intro α w w' es hs
  cases hs with
  | launch => simp [List.filterMap_cons, Event.killed?, Process.start]
  | kill => simp [Event.killed?, List.replicate_succ]
  | killGone => simp [Event.killed?, List.replicate_succ]
  | _ => simp [List.filterMap_cons, Event.killed?]

/-! ### Crews -/

/-- The worker is safe, and unless its time is over, its task ends as it would have ended alone. -/
structure Worker.Follows {α : Type} (ps : Programs) (P : Event → Prop)
    (Q : Alarm → Except Halt α → Prop) (x : Task α) (w : Worker α) : Prop where
  safe : w.Safe ps P Q
  course : w.alarm ≠ .rung → (w.task.course ps).result = (x.course ps).result

theorem Worker.Follows.step {α : Type} {ps : Programs} {P : Event → Prop}
    {Q : Alarm → Except Halt α → Prop} {x : Task α} {w w' : Worker α} {es : List Event}
    (h : w.Follows ps P Q x) (hs : w.Step ps es w') : w'.Follows ps P Q x := by
  have keeps := h.safe.step hs
  refine ⟨keeps.safe, fun ha => ?_⟩
  obtain ⟨ha, hcourse⟩ := keeps.course ha
  exact hcourse.trans (h.course ha)

theorem Worker.Follows.ends {α : Type} {ps : Programs} {P : Event → Prop}
    {Q : Alarm → Except Halt α → Prop} {x : Task α} {w : Worker α} {r : Except Halt α}
    (h : w.Follows ps P Q x) (he : w.EndsIn r) :
    Q w.alarm r ∧ (w.alarm ≠ .rung → r = (x.course ps).result) := by
  refine ⟨(h.safe.ended he).1, fun ha => ?_⟩
  rw [← h.course ha, show w.task = .done r from he]
  rfl

namespace Crew

variable {α : Type} {ps : Programs} {P : Event → Prop} {Q : Alarm → Except Halt α → Prop}
  {xs : List (Task α)} {y y' : Crew α} {rs : List (Except Halt α)}

theorem only_of_reachable {Q : Except Halt α → Prop} (h : ∀ x ∈ xs, x.Only ps P Q)
    (hy : Reachable ps (start xs) y) :
    (∀ w ∈ y.workers, w.task.Only ps P Q) ∧ ∀ e ∈ y.log, P e := by
  induction hy with
  | refl => exact ⟨List.forall_mem_map.mpr h, nofun⟩
  | tail _ hs ih =>
    obtain ⟨hworkers, hlog⟩ := ih
    cases hs with
    | turn before after log hw =>
      obtain ⟨hbefore, hmiddle⟩ := List.forall_mem_append.mp hworkers
      obtain ⟨hw', hafter⟩ := List.forall_mem_cons.mp hmiddle
      obtain ⟨hstep, hevents⟩ := Worker.only_step hw' hw
      exact ⟨List.forall_mem_append.mpr ⟨hbefore, List.forall_mem_cons.mpr ⟨hstep, hafter⟩⟩,
        List.forall_mem_append.mpr ⟨hlog, hevents⟩⟩

theorem only_ends {Q : Except Halt α → Prop} (h : ∀ x ∈ xs, x.Only ps P Q)
    (hy : Reachable ps (start xs) y) (he : y.EndsIn rs) : ∀ r ∈ rs, Q r := by
  intro r hr
  obtain ⟨w, hw, hends⟩ := exists_of_mem_forall₂ he hr
  have only := (only_of_reachable h hy).1 w hw
  rwa [show w.task = .done r from hends] at only

/-- What a worker does in a crew it may do on its own. -/
theorem runs_of_reachable (hy : Reachable ps (start xs) y) :
    List.Forall₂ (fun x w => ∃ es, Worker.Runs ps (.start x) es w) xs y.workers := by
  induction hy with
  | refl => exact List.forall₂_map_right_iff.mpr (List.forall₂_same.mpr fun x _ => ⟨[], .done _⟩)
  | tail _ hs ih =>
    cases hs with
    | turn before after log hw =>
      exact forall₂_replace (fun x ⟨es, hx⟩ => ⟨_, hx.snoc hw⟩) ih

/-- Each task of a crew ends as it may end on its own. -/
theorem mayEndIn_of_endsIn (hy : Reachable ps (start xs) y) (he : y.EndsIn rs) :
    List.Forall₂ (Task.MayEndIn ps) xs rs :=
  forall₂_trans (fun _ w _ ⟨es, hx⟩ hr => ⟨es, w, hx, hr⟩) (runs_of_reachable hy) he

/-- What a crew keeps to that began with these tasks. -/
def Holds (ps : Programs) (P : Event → Prop) (Q : Alarm → Except Halt α → Prop)
    (xs : List (Task α)) (y : Crew α) : Prop :=
  List.Forall₂ (Worker.Follows ps P Q) xs y.workers

theorem holds_start (h : ∀ x ∈ xs, x.Orderly P Q (.free .off)) : (start xs).Holds ps P Q xs :=
  List.forall₂_map_right_iff.mpr (List.forall₂_same.mpr fun x hx =>
    ⟨Worker.safe_start (h x hx), fun _ => rfl⟩)

theorem Holds.safe (h : y.Holds ps P Q xs) {w : Worker α} (hw : w ∈ y.workers) :
    w.Safe ps P Q := by
  obtain ⟨x, -, hx⟩ := exists_of_mem_forall₂ h hw
  exact hx.safe

/-- **A crew keeps to what its workers keep to**, whoever takes the next turn. -/
theorem Holds.step (h : y.Holds ps P Q xs) (hs : y.Step ps y') : y'.Holds ps P Q xs := by
  cases hs with
  | turn before after log hw => exact forall₂_replace (fun x hx => hx.step hw) h

theorem holds_of_reachable (h : ∀ x ∈ xs, x.Orderly P Q (.free .off))
    (hy : Reachable ps (start xs) y) : y.Holds ps P Q xs := by
  induction hy with
  | refl => exact holds_start h
  | tail _ hs ih => exact ih.step hs

/-- Where a crew has not ended, something can happen. -/
theorem Holds.exists_step (h : y.Holds ps P Q xs) (hy : ∀ rs, ¬ y.EndsIn rs) :
    ∃ y', y.Step ps y' := by
  obtain ⟨workers, log⟩ := y
  have busy : ∃ w ∈ workers, ∀ r, ¬ w.EndsIn r := by
    by_contra hall
    push Not at hall
    obtain ⟨rs, hrs⟩ := exists_forall₂_of_forall hall
    exact hy rs hrs
  obtain ⟨w, hw, hends⟩ := busy
  obtain ⟨es, w', hs⟩ := (h.safe hw).exists_step hends
  obtain ⟨before, after, rfl⟩ := List.append_of_mem hw
  exact ⟨_, .turn before after log hs⟩

/-- **Every run of orderly tasks ends.** -/
theorem Holds.acc (h : y.Holds ps P Q xs) : Acc (fun y' y => Step ps y y') y := by
  induction hn : total (Worker.left ps) y.workers using Nat.strongRecOn generalizing y with
  | _ n ih =>
    refine ⟨y, fun y' hs => ih _ ?_ (h.step hs) rfl⟩
    subst hn
    cases hs with
    | turn before after log hw =>
      have := (h.safe (List.mem_append_right before List.mem_cons_self)).left_lt hw
      simp only [total_append, total]
      omega

/-- Wherever a run is, it may go on until all tasks have ended. -/
theorem Holds.exists_ended (h : y.Holds ps P Q xs) :
    ∃ y' rs, Reachable ps y y' ∧ y'.EndsIn rs := by
  induction h.acc with
  | intro y _ ih =>
    by_cases hy : ∃ rs, y.EndsIn rs
    · obtain ⟨rs, hrs⟩ := hy
      exact ⟨y, rs, .refl, hrs⟩
    · obtain ⟨y₁, hs⟩ := h.exists_step (not_exists.mp hy)
      obtain ⟨y', rs, hreach, hrs⟩ := ih y₁ hs (h.step hs)
      exact ⟨y', rs, .head hs hreach, hrs⟩

/-- The results of tasks that end in one way if their time is over. -/
theorem Holds.results {late : Except Halt α} (h : y.Holds ps P Q xs) (he : y.EndsIn rs)
    (hlate : ∀ r, Q .rung r → r = late) :
    rs = List.zipWith (fun x l => if l then late else (x.course ps).result) xs y.isLate := by
  obtain ⟨workers, log⟩ := y
  change List.Forall₂ _ workers rs at he
  change List.Forall₂ _ xs workers at h
  induction h generalizing rs with
  | nil =>
    cases he
    rfl
  | @cons x w xs ws hw _ ih =>
    cases he with
    | cons hr hrs =>
      obtain ⟨hq, hcourse⟩ := hw.ends hr
      have rest := ih hrs
      simp only [isLate] at rest
      simp only [isLate, List.map_cons, List.zipWith_cons_cons, ← rest]
      congr 1
      split
      · rename_i hl
        rw [eq_of_beq hl] at hq
        exact hlate _ hq
      · rename_i hl
        exact hcourse fun ha => hl (beq_iff_eq.mpr ha)

/-- **When all tasks have ended no process is running**, and none was killed in vain. -/
theorem Holds.settled (h : y.Holds ps P Q xs) (he : y.EndsIn rs) :
    ∀ q ∈ y.processes, q.Settled := by
  intro q hq
  obtain ⟨w, hw, hq⟩ := List.mem_flatMap.mp hq
  obtain ⟨r, -, hr⟩ := exists_of_mem_forall₂ he.flip hw
  exact ((h.safe hw).ended hr).2 q hq

/-! ### Books -/

theorem processes_turn (before after : List (Worker α)) (w : Worker α) (log : List Event) :
    (⟨before ++ w :: after, log⟩ : Crew α).processes =
      before.flatMap Worker.processes ++ (w.processes ++ after.flatMap Worker.processes) := by
  rw [processes, List.flatMap_append, List.flatMap_cons]

theorem launched_of_reachable (hy : Reachable ps (start xs) y) :
    ∀ q ∈ y.processes, q.IsLaunched ps := by
  suffices ∀ w ∈ y.workers, ∀ q ∈ w.processes, q.IsLaunched ps by
    intro q hq
    obtain ⟨w, hw, hq⟩ := List.mem_flatMap.mp hq
    exact this w hw q hq
  induction hy with
  | refl => exact List.forall_mem_map.mpr fun x _ => nofun
  | tail _ hs ih =>
    cases hs with
    | turn before after log hw =>
      simp only [List.forall_mem_append, List.forall_mem_cons] at ih ⊢
      exact ⟨ih.1, Worker.launched_step ih.2.1 hw, ih.2.2⟩

/-- What is counted of all processes is what is counted of all events. -/
theorem perm_of_booked {ofProcess : Process → List Command} {ofEvent : Event → Option Command}
    (hbooked : Worker.Booked ps ofProcess ofEvent) (hy : Reachable ps (start xs) y) :
    (y.processes.flatMap ofProcess).Perm (y.log.filterMap ofEvent) := by
  induction hy with
  | refl =>
    have none : (start xs).processes = [] := by
      rw [processes, start, List.flatMap_map]
      exact List.flatMap_eq_nil_iff.mpr fun x _ => rfl
    rw [none]
    exact .nil
  | tail _ hs ih =>
    cases hs with
    | @turn before after log w w' es hw =>
      have changed := hbooked α w w' es hw
      rw [processes_turn] at ih ⊢
      simp only [List.flatMap_append, List.filterMap_append] at ih ⊢
      refine ((changed.append_right _).append_left _).trans (.trans ?_ (ih.append_right _))
      -- what the step adds goes to the end
      rw [List.append_assoc, List.append_assoc]
      exact List.perm_append_comm.append_left _

/-! ### One task after the other -/

theorem reachable_of_runs {before after : List (Worker α)} {w w' : Worker α} {es : List Event}
    (h : w.Runs ps es w') (log : List Event) :
    Reachable ps ⟨before ++ w :: after, log⟩ ⟨before ++ w' :: after, log ++ es⟩ := by
  induction h generalizing log with
  | done => rw [List.append_nil]
  | step hs _ ih =>
    rw [← List.append_assoc]
    exact .head (.turn before after log hs) (ih _)

theorem exists_alone_from (h : ∀ x ∈ xs, x.Orderly P Q (.free .off)) (before : List (Worker α))
    (log : List Event) : ∃ ws, Reachable ps ⟨before ++ xs.map Worker.start, log⟩
        ⟨before ++ ws, log ++ xs.flatMap fun x => (x.course ps).events⟩ ∧
      List.Forall₂ Worker.EndsIn ws (xs.map fun x => (x.course ps).result) := by
  induction xs generalizing before log with
  | nil =>
    refine ⟨[], ?_, .nil⟩
    simp only [List.map_nil, List.flatMap_nil, List.append_nil]
    exact .refl
  | cons x xs ih =>
    obtain ⟨hx, hxs⟩ := List.forall_mem_cons.mp h
    obtain ⟨procs, a, hruns⟩ := Worker.exists_alone hx (.free fun _ => List.not_mem_nil.elim)
    obtain ⟨ws, hrest, hends⟩ :=
      ih hxs (before ++ [⟨.done (x.course ps).result, procs, a⟩]) (log ++ (x.course ps).events)
    refine ⟨⟨.done (x.course ps).result, procs, a⟩ :: ws, ?_, .cons rfl hends⟩
    simp only [List.append_assoc, List.singleton_append] at hrest
    rw [List.flatMap_cons]
    exact (reachable_of_runs hruns log).trans hrest

/-- The tasks may take their turns one after the other. -/
theorem exists_alone (h : ∀ x ∈ xs, x.Orderly P Q (.free .off)) :
    ∃ y, Reachable ps (start xs) y ∧ y.log = (xs.flatMap fun x => (x.course ps).events) ∧
      y.EndsIn (xs.map fun x => (x.course ps).result) := by
  obtain ⟨ws, hreach, hends⟩ := exists_alone_from h [] []
  exact ⟨_, hreach, rfl, hends⟩

end Crew

end RepoScan
