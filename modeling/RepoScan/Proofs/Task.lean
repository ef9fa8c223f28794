import RepoScan.Command
import RepoScan.Crew
import RepoScan.Proofs.Outcome

/-!
# Tasks by their parts

A task is put together from smaller ones.  The lemmas here say what comes of the whole if it is
known what comes of the parts.

* `Task.course_settle`, `Task.run_bind` : what happens in a task alone, and how it ends;
* `Task.Orderly` : a task that leaves no process behind, however it is called off, with what may
  happen in it and how it may end;
* `Task.Orderly.settle`, `Task.Careful.bind`, `Task.Careful.within_bind` : tasks that are put
  together from orderly ones are orderly;
* `Command.careful_run` : a command that is run is orderly.
-/

namespace RepoScan

/-- A process is started or killed. -/
def Event.isProcess : Event → Bool
  | .start _ | .kill _ => true
  | _ => false

namespace Task

variable {α β γ : Type}

theorem settle_settle (x : Task α) (k : Except Halt α → Task β) (l : Except Halt β → Task γ) :
    (x.settle k).settle l = x.settle fun r => (k r).settle l := by
  induction x with
  | done r => rfl
  | tell n rest ih => simp only [settle, ih]
  | start c rest ih => simp only [settle, ih]
  | await c rest ih => simp only [settle, ih]
  | kill c rest ih => simp only [settle, ih]
  | reap c rest ih => simp only [settle, ih]
  | arm rest ih => simp only [settle, ih]
  | disarm rest ih => simp only [settle, ih]

theorem bind_eq (x : Task α) (f : α → Task β) : x >>= f = x.settle fun r => match r with
    | .ok a => f a
    | .error h => done (.error h) := rfl

/-! ### Tasks alone -/

section Course

variable (ps : Programs)

/-- What comes of a task, and of what is done when it has ended. -/
theorem course_settle (x : Task α) (k : Except Halt α → Task β) :
    (x.settle k).course ps =
      ⟨(x.course ps).events ++ ((k (x.course ps).result).course ps).events,
        ((k (x.course ps).result).course ps).result⟩ := by
  induction x with
  | done r => rfl
  | tell n rest ih => simp only [settle, course, Course.after, ih, List.cons_append]
  | start c rest ih => simp only [settle, course, Course.after, ih, List.cons_append]
  | await c rest ih => simp only [settle, course, ih]
  | kill c rest ih => simp only [settle, course, Course.after, ih, List.cons_append]
  | reap c rest ih => simp only [settle, course, ih]
  | arm rest ih => simp only [settle, course, ih]
  | disarm rest ih => simp only [settle, course, ih]

theorem result_bind (x : Task α) (f : α → Task β) :
    ((x >>= f).course ps).result = match (x.course ps).result with
      | .ok a => ((f a).course ps).result
      | .error h => .error h := by
  rw [bind_eq, course_settle]
  cases (x.course ps).result <;> rfl

theorem result_attempt (x : Task α) : (x.attempt.course ps).result = match (x.course ps).result with
    | .ok a => .ok (.ok a)
    | .error (.failed e) => .ok (.error e)
    | .error .calledOff => .error .calledOff := by
  rw [attempt, course_settle]
  rcases (x.course ps).result with (e | _) | a <;> rfl

/-- How a task ends whose time is limited: what would have been called off is late. -/
def inTime : Except Halt α → Except Halt α
  | .error .calledOff => .error (.failed .timedOut)
  | r => r

theorem inTime_eq_error_iff {r : Except Halt α} {e : Failure} (he : e ≠ .timedOut) :
    inTime r = .error (.failed e) ↔ r = .error (.failed e) := by
  rcases r with (e' | _) | a
  · exact Iff.rfl
  · exact iff_of_false (fun h => he (Halt.failed.inj (Except.error.inj h)).symm) nofun
  · exact Iff.rfl

theorem course_within {limit : Binary64} (begun : limit.isNoTime = false) (x : Task α) :
    (x.within (some limit)).course ps =
      ⟨(x.course ps).events, inTime (x.course ps).result⟩ := by
  simp only [within, begun, Bool.false_eq_true, if_false, course, course_settle]
  rcases (x.course ps).result with (e | _) | a <;>
    simp only [fail, course, List.append_nil, inTime]

theorem within_of_isNoTime {limit : Binary64} (h : limit.isNoTime = true) (x : Task α) :
    x.within (some limit) = fail .timedOut := by
  rw [within, if_pos h]

@[simp] theorem run_pure (a : α) : (pure a : Task α).run ps = pure a := rfl

@[simp] theorem run_ofExcept (r : Except Failure α) :
    (ofExcept r).run ps = Outcome.ofExcept r := by
  cases r <;> rfl

theorem run_bind (x : Task α) (f : α → Task β) :
    (x >>= f).run ps = x.run ps >>= fun a => (f a).run ps := by
  have ran : x.run ps = ⟨(x.course ps).events, (x.course ps).result.mapError Halt.toFailure⟩ := rfl
  rw [bind_eq, run, course_settle, ran]
  cases hr : (x.course ps).result with
  | ok a => rw [Outcome.bind_of_ok _ rfl]; rfl
  | error h => rw [Outcome.bind_of_error _ rfl]; simp [course]; rfl

/-- A task alone fails, unless it is called off, with a failure of its own. -/
theorem result_run_eq_error_iff {x : Task α} {e : Failure} (he : e ≠ .calledOff) :
    (x.run ps).result = .error e ↔ (x.course ps).result = .error (.failed e) := by
  rw [run]
  rcases (x.course ps).result with (e' | _) | a
  · constructor
    · rintro ⟨⟩
      rfl
    · rintro ⟨⟩
      rfl
  · exact iff_of_false (fun h => he (Except.error.inj h).symm) nofun
  · exact iff_of_false nofun nofun

theorem run_attempt {x : Task α} (h : (x.course ps).result ≠ .error .calledOff) :
    x.attempt.run ps = (x.run ps).attempt := by
  rw [attempt, run, course_settle]
  unfold run Outcome.attempt
  rcases hr : (x.course ps).result with (e | _) | a
  · simp only [course, List.append_nil, Except.mapError, Halt.toFailure]
  · exact absurd hr h
  · simp only [course, List.append_nil, Except.mapError]

/-- A task with a time limit is not called off from within: its time is over then. -/
theorem result_within_ne (x : Task α) (limit : Binary64) :
    ((x.within (some limit)).course ps).result ≠ .error .calledOff := by
  cases h : limit.isNoTime with
  | true =>
    rw [within_of_isNoTime h]
    exact nofun
  | false =>
    rw [course_within ps h]
    rcases (x.course ps).result with (e | _) | a <;> exact nofun

theorem run_within {x : Task α} {limit : Option Binary64}
    (hlimit : limit.any Binary64.isNoTime = false)
    (hx : (x.course ps).result ≠ .error .calledOff) : (x.within limit).run ps = x.run ps := by
  cases limit with
  | none => rfl
  | some limit =>
    rw [run, course_within ps hlimit, run]
    rcases hr : (x.course ps).result with (e | _) | a
    · rfl
    · exact absurd hr hx
    · rfl

end Course

/-! ### All that a task may do -/

/-- With these programs all that happens in a task is as `P` says, whenever it is called off and
whatever its programs leave, and it ends as `Q` says. -/
def Only (ps : Programs) (P : Event → Prop) (Q : Except Halt α → Prop) : Task α → Prop
  | done r => Q r
  | tell n rest => P (.notice n) ∧ rest.Only ps P Q
  | start c rest => P (.start c) ∧
    (∀ p, c.launch ps = .ok p →
      P (.kill c) ∧ (rest (.ok ())).Only ps P Q ∧ (rest (.error .calledOff)).Only ps P Q) ∧
    ∀ d, c.launch ps = .error d → (rest (.error (.failed d.toFailure))).Only ps P Q
  | await _ rest => ∀ e, (rest e).Only ps P Q
  | kill c rest => P (.kill c) ∧ ∀ found, (rest found).Only ps P Q
  | reap _ rest => rest.Only ps P Q
  | arm rest => rest.Only ps P Q
  | disarm rest => rest.Only ps P Q

section Only

variable {ps : Programs} {P P' : Event → Prop} {Q Q' : Except Halt α → Prop}
  {R : Except Halt β → Prop} {x : Task α}

theorem Only.settle {k : Except Halt α → Task β} (hx : x.Only ps P Q)
    (hk : ∀ r, Q r → (k r).Only ps P R) : (x.settle k).Only ps P R := by
  induction x with
  | done r => exact hk r hx
  | tell n rest ih => exact ⟨hx.1, ih hx.2⟩
  | start c rest ih =>
    obtain ⟨hc, begun, denied⟩ := hx
    refine ⟨hc, fun p hp => ?_, fun d hd => ih _ (denied d hd)⟩
    obtain ⟨hkill, hok, hcut⟩ := begun p hp
    exact ⟨hkill, ih _ hok, ih _ hcut⟩
  | await c rest ih => exact fun e => ih e (hx e)
  | kill c rest ih => exact ⟨hx.1, fun found => ih found (hx.2 found)⟩
  | reap c rest ih => exact ih hx
  | arm rest ih => exact ih hx
  | disarm rest ih => exact ih hx

theorem Only.mono (hx : x.Only ps P Q) (hP : ∀ e, P e → P' e) (hQ : ∀ r, Q r → Q' r) :
    x.Only ps P' Q' := by
  induction x with
  | done r => exact hQ r hx
  | tell n rest ih => exact ⟨hP _ hx.1, ih hx.2⟩
  | start c rest ih =>
    obtain ⟨hc, begun, denied⟩ := hx
    refine ⟨hP _ hc, fun p hp => ?_, fun d hd => ih _ (denied d hd)⟩
    obtain ⟨hkill, hok, hcut⟩ := begun p hp
    exact ⟨hP _ hkill, ih _ hok, ih _ hcut⟩
  | await c rest ih => exact fun e => ih e (hx e)
  | kill c rest ih => exact ⟨hP _ hx.1, fun found => ih found (hx.2 found)⟩
  | reap c rest ih => exact ih hx
  | arm rest ih => exact ih hx
  | disarm rest ih => exact ih hx

/-- Work on the result of a task that limits its time. -/
theorem Only.within_bind {f : Except Failure α → Task β} {limit : Binary64} (h : x.Only ps P Q)
    (hnone : limit.isNoTime = true → (f (.error .timedOut)).Only ps P R)
    (hf : limit.isNoTime = false → ∀ r, Q r →
      (f ((inTime r).mapError Halt.toFailure)).Only ps P R) :
    ((x.within (some limit)).attempt >>= f).Only ps P R := by
  rw [bind_eq, Task.attempt, settle_settle]
  cases begun : limit.isNoTime with
  | true =>
    rw [within_of_isNoTime begun]
    exact hnone begun
  | false =>
    simp only [Task.within, begun, Bool.false_eq_true, if_false, Task.settle, settle_settle]
    show (x.settle _).Only ps P R
    refine h.settle fun r hr => ?_
    match r, hr with
    | .ok v, hr => exact hf begun _ hr
    | .error (.failed e), hr => exact hf begun _ hr
    | .error .calledOff, hr => exact hf begun _ hr

/-- Alone, a task does nothing that it may not do. -/
theorem Only.course (h : x.Only ps P Q) :
    (∀ e ∈ (x.course ps).events, P e) ∧ Q (x.course ps).result := by
  induction x with
  | done r => exact ⟨nofun, h⟩
  | tell n rest ih =>
    obtain ⟨hevents, hq⟩ := ih h.2
    exact ⟨List.forall_mem_cons.mpr ⟨h.1, hevents⟩, hq⟩
  | start c rest ih =>
    obtain ⟨hstart, begun, denied⟩ := h
    simp only [Task.course, Course.after, List.forall_mem_cons]
    cases hc : c.launch ps with
    | ok p =>
      obtain ⟨hevents, hq⟩ := ih _ (begun p hc).2.1
      exact ⟨⟨hstart, hevents⟩, hq⟩
    | error d =>
      obtain ⟨hevents, hq⟩ := ih _ (denied d hc)
      exact ⟨⟨hstart, hevents⟩, hq⟩
  | await c rest ih => exact ih _ (h _)
  | kill c rest ih =>
    obtain ⟨hevents, hq⟩ := ih true (h.2 true)
    exact ⟨List.forall_mem_cons.mpr ⟨h.1, hevents⟩, hq⟩
  | reap c rest ih => exact ih h
  | arm rest ih => exact ih h
  | disarm rest ih => exact ih h

end Only

/-! ### Tasks that leave no process behind -/

/-- How far a task is with the process that it started last. -/
inductive Phase where
  /-- It has nothing to do with the process any more. -/
  | free (a : Alarm)
  /-- It waits for the process. -/
  | waiting (c : Command)
  /-- It is to kill the process. -/
  | killing (c : Command)
  /-- It is to wait until the process is gone. -/
  | reaping (c : Command)

/-- A task that waits for each process that it starts, and kills it and waits until it is gone if
the time is over meanwhile.  It starts processes under a time limit only, and none when its time is
over.  All that happens in it is as `P` says, and it ends as `Q` says. -/
inductive Orderly (P : Event → Prop) (Q : Alarm → Except Halt α → Prop) : Phase → Task α → Prop
  | done {a : Alarm} {r : Except Halt α} (h : Q a r) : Orderly P Q (.free a) (.done r)
  | tell {a : Alarm} {n : Notice} {rest : Task α} (hn : P (.notice n))
      (h : Orderly P Q (.free a) rest) : Orderly P Q (.free a) (.tell n rest)
  | arm {rest : Task α} (h : Orderly P Q (.free .set) rest) :
      Orderly P Q (.free .off) (.arm rest)
  | disarm {a : Alarm} {rest : Task α} (h : Orderly P Q (.free a.stop) rest) :
      Orderly P Q (.free a) (.disarm rest)
  | start {c : Command} {rest : Except Halt Unit → Task α} (hc : P (.start c)) (hk : P (.kill c))
      (refused : ∀ d : Denial, Orderly P Q (.free .set) (rest (.error (.failed d.toFailure))))
      (cut : Orderly P Q (.free .rung) (rest (.error .calledOff)))
      (begun : Orderly P Q (.waiting c) (rest (.ok ()))) :
      Orderly P Q (.free .set) (.start c rest)
  | await {c : Command} {rest : Option Exit → Task α}
      (heard : ∀ e, Orderly P Q (.free .set) (rest (some e)))
      (late : Orderly P Q (.killing c) (rest none)) : Orderly P Q (.waiting c) (.await c rest)
  | kill {c : Command} {rest : Bool → Task α} (hk : P (.kill c))
      (h : ∀ found, Orderly P Q (.reaping c) (rest found)) : Orderly P Q (.killing c) (.kill c rest)
  | reap {c : Command} {rest : Task α} (h : Orderly P Q (.free .rung) rest) :
      Orderly P Q (.reaping c) (.reap c rest)

namespace Orderly

variable {P P' : Event → Prop} {Q : Alarm → Except Halt α → Prop}
  {R : Alarm → Except Halt β → Prop} {ph : Phase} {x : Task α}

theorem settle {k : Except Halt α → Task β} (hx : x.Orderly P Q ph)
    (hk : ∀ a r, Q a r → (k r).Orderly P R (.free a)) : (x.settle k).Orderly P R ph := by
  induction hx with
  | done h => exact hk _ _ h
  | tell hn _ ih => exact .tell hn ih
  | arm _ ih => exact .arm ih
  | disarm _ ih => exact .disarm ih
  | start hc hkill _ _ _ refused cut begun => exact .start hc hkill refused cut begun
  | await _ _ heard late => exact .await heard late
  | kill hkill _ ih => exact .kill hkill ih
  | reap _ ih => exact .reap ih

theorem mono {Q' : Alarm → Except Halt α → Prop} (hx : x.Orderly P Q ph)
    (hP : ∀ e, P e → P' e) (hQ : ∀ a r, Q a r → Q' a r) : x.Orderly P' Q' ph := by
  induction hx with
  | done h => exact .done (hQ _ _ h)
  | tell hn _ ih => exact .tell (hP _ hn) ih
  | arm _ ih => exact .arm ih
  | disarm _ ih => exact .disarm ih
  | start hc hkill _ _ _ refused cut begun => exact .start (hP _ hc) (hP _ hkill) refused cut begun
  | await _ _ heard late => exact .await heard late
  | kill hkill _ ih => exact .kill (hP _ hkill) ih
  | reap _ ih => exact .reap ih

end Orderly

theorem Orderly.only {P : Event → Prop} {Q : Alarm → Except Halt α → Prop} {ph : Phase}
    {x : Task α} (h : x.Orderly P Q ph) (ps : Programs) : x.Only ps P fun r => ∃ a, Q a r := by
  induction h with
  | done h => exact ⟨_, h⟩
  | tell hn _ ih => exact ⟨hn, ih⟩
  | arm _ ih => exact ih
  | disarm _ ih => exact ih
  | start hc hk _ _ _ refused cut begun =>
    exact ⟨hc, fun _ _ => ⟨hk, begun, cut⟩, fun d _ => refused d⟩
  | await _ _ heard late =>
    rintro (_ | e)
    · exact late
    · exact heard e
  | kill hk _ ih => exact ⟨hk, ih⟩
  | reap _ ih => exact ih

/-! ### Tasks under a time limit -/

/-- How a task ends whose time is limited from outside: with a result or a failure, unless it was
called off. -/
def Ends (F : Failure → Prop) : Alarm → Except Halt α → Prop
  | .set, .ok _ => True
  | .set, .error (.failed e) => F e
  | .rung, .error .calledOff => True
  | _, _ => False

/-- A task that leaves no process behind if its time is limited.  All that happens in it is as `P`
says, and its failures are as `F` says. -/
def Careful (P : Event → Prop) (F : Failure → Prop) (x : Task α) : Prop :=
  x.Orderly P (Ends F) (.free .set)

section Careful

variable {P P' : Event → Prop} {F F' : Failure → Prop} {x : Task α}

theorem careful_pure (a : α) : (pure a : Task α).Careful P F := .done trivial

theorem careful_fail {e : Failure} (h : F e) : (fail e : Task α).Careful P F := .done h

theorem careful_say {n : Notice} (h : P (.notice n)) : (say n).Careful P F :=
  .tell h (.done trivial)

theorem careful_ofExcept {r : Except Failure α} (h : ∀ e, r = .error e → F e) :
    (ofExcept r).Careful P F := by
  cases r with
  | ok a => exact careful_pure a
  | error e => exact careful_fail (h e rfl)

theorem Careful.mono (h : x.Careful P F) (hP : ∀ e, P e → P' e) (hF : ∀ e, F e → F' e) :
    x.Careful P' F' := by
  refine Orderly.mono h hP fun a r hr => ?_
  match a, r, hr with
  | .set, .ok _, _ => exact trivial
  | .set, .error (.failed e), hr => exact hF e hr
  | .rung, .error .calledOff, _ => exact trivial

theorem Careful.bind {f : α → Task β} (hx : x.Careful P F) (hf : ∀ a, (f a).Careful P F) :
    (x >>= f).Careful P F := by
  refine Orderly.settle hx fun a r hr => ?_
  match a, r, hr with
  | .set, .ok v, _ => exact hf v
  | .set, .error (.failed e), hr => exact careful_fail hr
  | .rung, .error .calledOff, _ => exact .done trivial

theorem Careful.attempt_bind {f : Except Failure α → Task β} (hx : x.Careful P F)
    (hok : ∀ v, (f (.ok v)).Careful P F') (herror : ∀ e, F e → (f (.error e)).Careful P F') :
    (x.attempt >>= f).Careful P F' := by
  rw [bind_eq, Task.attempt, settle_settle]
  refine Orderly.settle hx fun a r hr => ?_
  match a, r, hr with
  | .set, .ok v, _ => exact hok v
  | .set, .error (.failed e), hr => exact herror e hr
  | .rung, .error .calledOff, _ => exact .done trivial

end Careful

/-- Work on the result of a task that limits its time, which may be late. -/
theorem Careful.within_bind {P : Event → Prop} {F : Failure → Prop} {x : Task α}
    {f : Except Failure α → Task β} {Q : Alarm → Except Halt β → Prop} (h : x.Careful P F)
    (limit : Binary64) (hok : ∀ v, (f (.ok v)).Orderly P Q (.free .off))
    (herror : ∀ e, (f (.error e)).Orderly P Q (.free .off))
    (hlate : (f (.error .timedOut)).Orderly P Q (.free .rung)) :
    ((x.within (some limit)).attempt >>= f).Orderly P Q (.free .off) := by
  rw [bind_eq, Task.attempt, settle_settle]
  cases begun : limit.isNoTime with
  | true =>
    rw [within_of_isNoTime begun]
    exact herror .timedOut
  | false =>
    simp only [Task.within, begun, Bool.false_eq_true, if_false, settle, settle_settle]
    refine .arm (Orderly.settle h fun a r hr => ?_)
    match a, r, hr with
    | .set, .ok v, _ => exact .disarm (hok v)
    | .set, .error (.failed e), _ => exact .disarm (herror e)
    | .rung, .error .calledOff, _ => exact .disarm hlate

end Task

/-! ### Commands -/

namespace Command

/-- The event is the start of the command or its end by force. -/
def Does (c : Command) (e : Event) : Prop := e = .start c ∨ e = .kill c

/-- The failures of a command that is run. -/
inductive Fault : Failure → Prop
  | empty : Fault .emptyCommand
  | notInstalled (program : Text) : Fault (.notInstalled program)
  | denied (d : Denial) : Fault d.toFailure
  | exited (program : Text) (status : Int) (complaint : Text) :
      Fault (.exited program status complaint)

variable (c : Command) (statuses : List Int)

theorem orderly_abandon {α : Type} {P : Event → Prop} {Q : Alarm → Except Halt α → Prop}
    (hk : P (.kill c)) (hQ : Q .rung (.error .calledOff)) :
    (c.abandon : Task α).Orderly P Q (.killing c) := by
  refine .kill hk fun found => ?_
  cases found <;> exact .reap (.done hQ)

theorem careful_execute : c.execute.Careful c.Does Fault := by
  unfold execute
  split
  · exact Task.careful_fail .empty
  · refine .start (.inl rfl) (.inr rfl) (fun d => ?_) (.done trivial) ?_
    · cases d with
      | noSuchFile => exact .done (.notInstalled _)
      | _ => exact .done (.denied _)
    · exact .await (fun e => .done trivial) (c.orderly_abandon (.inr rfl) trivial)

theorem careful_finish : (c.finish statuses).Careful c.Does Fault := by
  refine c.careful_execute.bind fun e => ?_
  split
  · exact Task.careful_pure _
  · exact Task.careful_fail (.exited ..)

theorem careful_run : (c.run statuses).Careful c.Does Fault :=
  (c.careful_finish statuses).bind fun _ => Task.careful_pure _

end Command

end RepoScan
