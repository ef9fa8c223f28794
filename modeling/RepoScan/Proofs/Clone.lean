import RepoScan.Clone
import RepoScan.Proofs.Crew
import RepoScan.Proofs.Value

/-!
# Clones that cannot be made

`Clone.checkout` turns the failures of tools and of the operating system into a missing clone.  Not
every failure is one of these: no directory for temporary files can be made, the depth has more
digits than a number may have as text, or the command holds what the system cannot be given.

* `Command.result_execute` : what becomes of a command that is run alone;
* `Clone.Escapes` : the failures that a checkout lets through;
* `Clone.result_checkout_eq_error_iff`, `Clone.result_checkout` : what a checkout comes to alone;
* `Clone.orderly_checkout` : what happens in a checkout, and that it is none if it is late.
-/

namespace RepoScan

/-! ### Commands -/

namespace Command

variable {ps : Programs} {c : Command} {program : Text} {words : List Text}

theorem result_execute (hwords : c.words = program :: words) :
    (c.execute.course ps).result = match c.launch ps with
      | .ok (.exits e) => .ok e
      | .ok _ => .error .calledOff
      | .error (.noSuchFile _) => .error (.failed (.notInstalled program))
      | .error d => .error (.failed d.toFailure) := by
  unfold execute
  simp only [hwords, Task.course, Task.Course.after]
  rcases hc : c.launch ps with d | p
  · cases d <;> rfl
  · simp only [Task.course, hc]
    cases p <;> rfl

/-- A failure of a command that is no failure of a tool is that of a command that is denied. -/
theorem result_finish_eq_error_iff (hwords : c.words = program :: words) {statuses : List Int}
    {e : Failure} (he : e.isTool = false) :
    ((c.finish statuses).course ps).result = .error (.failed e) ↔
      ∃ d, c.launch ps = .error d ∧ d.toFailure = e ∧ ∀ path, d ≠ .noSuchFile path := by
  rw [finish, Task.result_bind, result_execute hwords]
  rcases c.launch ps with d | p
  · cases d with
    | noSuchFile path =>
      refine iff_of_false (fun h => ?_) ?_
      · cases h
        cases he
      · rintro ⟨d, hd, -, hpath⟩
        cases hd
        exact hpath path rfl
    | _ => simp
  · refine iff_of_false (fun h => ?_) (by simp)
    cases p with
    | exits exit =>
      dsimp only at h
      split at h
      · cases h
      · cases h
        cases he
    | _ => cases h

theorem only_execute_of_denied (hwords : c.words = program :: words) {d : Denial}
    (hc : c.launch ps = .error d) (hd : ∀ path, d ≠ .noSuchFile path) :
    c.execute.Only ps (fun e => e.spawned? ps = none) (· = .error (.failed d.toFailure)) := by
  unfold execute
  simp only [hwords]
  refine ⟨by simp only [Event.spawned?, hc], fun p hp => ?_, fun d' hd' => ?_⟩
  · cases hc.symm.trans hp
  · obtain rfl := Except.error.inj (hc.symm.trans hd')
    cases d with
    | noSuchFile path => exact absurd rfl (hd path)
    | _ => exact rfl

end Command

/-! ### Depths -/

theorem Value.isTooLong_pow : Value.isTooLong (Nat.pow 10 Number.maxDigits : Nat) = true := by
  unfold isTooLong
  rw [Int.natAbs_natCast]
  exact decide_eq_true (Nat.le_refl _)

namespace Clone

/-- The depth cannot be written into a command. -/
def Unwritable (depth : Option Int) : Prop := ∃ n, depth = some n ∧ Value.isTooLong n = true

theorem depthText_of_unwritable {depth : Option Int} (h : Unwritable depth) :
    depthText depth = .error .tooLongToWrite := by
  obtain ⟨n, rfl, hn⟩ := h
  have hd : positiveDepth (some n) = some n := by
    rw [positiveDepth, Option.filter_some_pos]
    exact bne_iff_ne.mpr (Value.ne_zero_of_isTooLong hn)
  simp only [depthText, hd, Value.write, Value.hasTooLong, hn, if_true]
  rfl

theorem depthText_of_writable {depth : Option Int} (h : ¬ Unwritable depth) :
    ∃ t, depthText depth = .ok t := by
  cases hd : positiveDepth depth with
  | none => exact ⟨none, by simp only [depthText, hd]⟩
  | some n =>
    have hn : ¬ Value.isTooLong n = true := fun hn =>
      h ⟨n, (Option.filter_eq_some_iff.mp hd).1, hn⟩
    refine ⟨some (Value.int n).toText, ?_⟩
    simp only [depthText, hd, Value.write, Value.hasTooLong, hn]
    rfl

/-! ### Clones alone -/

variable {ps : Programs} {temporary : Except Failure Path} {r : Repository} {token : Option Text}
  {depth : Option Int} {limit : Binary64} {e : Failure}

theorem result_make {destination : Path} {n : Option Text} (hd : depthText depth = .ok n) :
    ((make r destination token depth).course ps).result =
      match (((cloneCommand r destination token n).finish [0]).course ps).result with
      | .ok exit => .ok ⟨destination, exit.files.below destination⟩
      | .error (.failed e) => .error (.failed (redactFailure token e))
      | .error .calledOff => .error .calledOff := by
  rw [make, hd, Task.result_bind]
  show ((Task.say _ >>= fun _ => _).course ps).result = _
  rw [Task.result_bind]
  show ((Task.attempt _ >>= _).course ps).result = _
  rw [Task.result_bind, Task.result_attempt]
  rcases (((cloneCommand r destination token n).finish [0]).course ps).result with (e | _) | exit
  · rfl
  · rfl
  · rfl

theorem redactFailure_eq_iff (he : isAbsorbed e = false) {e' : Failure} :
    redactFailure token e' = e ↔ e' = e := by
  have htool : e.isTool = false := (Bool.or_eq_false_iff.mp he).1
  unfold redactFailure
  split
  · rename_i htool'
    refine iff_of_false (fun h => ?_) (fun h => ?_)
    · rw [← h] at htool
      cases htool
    · rw [h, htool] at htool'
      cases htool'
  · exact Iff.rfl

theorem result_make_of_unwritable {destination : Path} (h : Unwritable depth) :
    ((make r destination token depth).course ps).result =
      .error (.failed .tooLongToWrite) := by
  rw [make, depthText_of_unwritable h, Task.result_bind]
  rfl

/-- A clone fails for a reason that a checkout lets through: that of the depth or of the command. -/
theorem result_make_eq_error_iff {destination : Path} (he : isAbsorbed e = false) :
    ((make r destination token depth).course ps).result = .error (.failed e) ↔
      (Unwritable depth ∧ e = .tooLongToWrite) ∨ ∃ n d, depthText depth = .ok n ∧
        (cloneCommand r destination token n).launch ps = .error d ∧ d.toFailure = e := by
  by_cases hd : Unwritable depth
  · have text := depthText_of_unwritable hd
    simp [result_make_of_unwritable hd, hd, text, eq_comm]
  · obtain ⟨n, hn⟩ := depthText_of_writable hd
    have htool : e.isTool = false := (Bool.or_eq_false_iff.mp he).1
    have denied : (((cloneCommand r destination token n).finish [0]).course ps).result =
        .error (.failed e) ↔ ∃ d, (cloneCommand r destination token n).launch ps = .error d ∧
          d.toFailure = e ∧ ∀ path, d ≠ .noSuchFile path :=
      Command.result_finish_eq_error_iff rfl htool
    -- the failure is what it is, whether or not it is redacted
    have same : ((make r destination token depth).course ps).result = .error (.failed e) ↔
        (((cloneCommand r destination token n).finish [0]).course ps).result =
          .error (.failed e) := by
      rw [result_make hn]
      rcases (((cloneCommand r destination token n).finish [0]).course ps).result
        with (e' | _) | exit
      · simp [redactFailure_eq_iff he]
      · simp
      · simp
    rw [same, denied]
    constructor
    · rintro ⟨d, hc, rfl, -⟩
      exact .inr ⟨n, d, hn, hc, rfl⟩
    · rintro (⟨hd', -⟩ | ⟨n', d, hn', hc, rfl⟩)
      · exact absurd hd' hd
      · obtain rfl := Except.ok.inj (hn.symm.trans hn')
        refine ⟨d, hc, rfl, ?_⟩
        rintro path rfl
        cases he

/-! ### Checkouts alone -/

/-- The failures that a checkout lets through: no directory can be made, or there is time for a
clone, but its depth cannot be written or its command is denied for a reason that is none of the
operating system. -/
inductive Escapes (ps : Programs) (temporary : Except Failure Path) (r : Repository)
    (token : Option Text) (depth : Option Int) (limit : Binary64) : Failure → Prop
  | directory {e : Failure} (h : temporary = .error e) :
      Escapes ps temporary r token depth limit e
  | depth {directory : Path} (h : temporary = .ok directory) (hlimit : limit.isNoTime = false)
      (hd : Unwritable depth) : Escapes ps temporary r token depth limit .tooLongToWrite
  | denied {directory : Path} {n : Option Text} {d : Denial} (h : temporary = .ok directory)
      (hlimit : limit.isNoTime = false) (hn : depthText depth = .ok n)
      (hc : (cloneCommand r (directory.joinText r.name) token n).launch ps = .error d)
      (hd : isAbsorbed d.toFailure = false) :
      Escapes ps temporary r token depth limit d.toFailure

/-- What a checkout makes of a clone that has ended so. -/
def absorbed : Except Halt Checkout → Except Halt (Option Checkout)
  | .ok c => .ok (some c)
  | .error h => if isAbsorbed h.toFailure then .ok none else .error h

theorem absorbed_eq_error_iff {res : Except Halt Checkout} :
    absorbed res = .error (.failed e) ↔ isAbsorbed e = false ∧ res = .error (.failed e) := by
  rcases res with h | c
  · simp only [absorbed]
    split
    · rename_i ha
      constructor
      · intro hres
        cases hres
      · rintro ⟨he, hres⟩
        rw [Except.error.inj hres, Halt.toFailure, he] at ha
        cases ha
    · rename_i ha
      constructor
      · intro hres
        obtain rfl := Except.error.inj hres
        exact ⟨Bool.eq_false_iff.mpr ha, rfl⟩
      · rintro ⟨-, hres⟩
        obtain rfl := Except.error.inj hres
        rfl
  · constructor
    · intro hres
      cases hres
    · rintro ⟨-, hres⟩
      cases hres

theorem result_checkout_of_ok {directory : Path} (h : temporary = .ok directory) :
    ((checkout temporary r token depth (some limit)).course ps).result =
      absorbed (((make r (directory.joinText r.name) token depth).within (some limit)).course
        ps).result := by
  rw [checkout, h, Task.result_bind]
  show ((Task.attempt _ >>= _).course ps).result = _
  rw [Task.result_bind, Task.result_attempt]
  have inTime := Task.result_within_ne ps (make r (directory.joinText r.name) token depth) limit
  generalize (((make r (directory.joinText r.name) token depth).within (some limit)).course
    ps).result = res at inTime ⊢
  rcases res with (e | _) | c
  · cases e <;> rfl
  · exact absurd rfl inTime
  · rfl

/-- **The failures of a checkout are those that it lets through.** -/
theorem result_checkout_eq_error_iff :
    ((checkout temporary r token depth (some limit)).course ps).result = .error (.failed e) ↔
      Escapes ps temporary r token depth limit e := by
  cases ht : temporary with
  | error e' =>
    constructor
    · intro h
      cases h
      exact .directory rfl
    · intro h
      cases h with
      | directory h => rw [Except.error.inj h]; rfl
      | depth h => cases h
      | denied h => cases h
  | ok directory =>
    rw [result_checkout_of_ok rfl]
    cases hlimit : limit.isNoTime with
    | true =>
      rw [Task.within_of_isNoTime hlimit]
      refine iff_of_false nofun fun h => ?_
      cases h with
      | directory h => cases h
      | depth _ hl => cases hlimit.symm.trans hl
      | denied _ hl => cases hlimit.symm.trans hl
    | false =>
      rw [Task.course_within ps hlimit, absorbed_eq_error_iff]
      have late (he : isAbsorbed e = false) : e ≠ .timedOut := by
        rintro rfl
        cases he
      constructor
      · rintro ⟨he, h⟩
        rw [Task.inTime_eq_error_iff (late he)] at h
        rcases (result_make_eq_error_iff he).mp h with ⟨hd, rfl⟩ | ⟨n, d, hn, hc, rfl⟩
        · exact .depth rfl hlimit hd
        · exact .denied rfl hlimit hn hc he
      · intro h
        cases h with
        | directory h => cases h
        | depth _ _ hd =>
          exact ⟨rfl, (Task.inTime_eq_error_iff (late rfl)).mpr (result_make_of_unwritable hd)⟩
        | denied h _ hn hc hd =>
          obtain rfl := Except.ok.inj h
          exact ⟨hd, (Task.inTime_eq_error_iff (late hd)).mpr
            ((result_make_eq_error_iff hd).mpr (.inr ⟨_, _, hn, hc, rfl⟩))⟩

theorem only_make_of_denied {destination : Path} {n : Option Text} {d : Denial}
    (hn : depthText depth = .ok n) (hc : (cloneCommand r destination token n).launch ps = .error d)
    (hd : isAbsorbed d.toFailure = false) :
    (make r destination token depth).Only ps (fun e => e.spawned? ps = none)
      (· = .error (.failed d.toFailure)) := by
  have own : ∀ path, d ≠ .noSuchFile path := by
    rintro path rfl
    cases hd
  rw [make, hn]
  refine ⟨rfl, ?_⟩
  show ((Command.finish [0] _).attempt >>= _).Only ps _ _
  rw [Task.bind_eq, Task.attempt, Command.finish, Task.bind_eq, Task.settle_settle,
    Task.settle_settle]
  refine (Command.only_execute_of_denied rfl hc own).settle ?_
  rintro _ rfl
  show _ = _
  rw [(redactFailure_eq_iff hd).mpr rfl]

/-- **A failure that a checkout lets through is its end**, however it is run, and no process is
started. -/
theorem only_checkout_of_escapes (h : Escapes ps temporary r token depth limit e) :
    (checkout temporary r token depth (some limit)).Only ps (fun e => e.spawned? ps = none)
      (· = .error (.failed e)) := by
  unfold checkout
  cases h with
  | directory h =>
    rw [h]
    exact rfl
  | @depth directory h hlimit hd =>
    rw [h]
    have stopped : (make r (directory.joinText r.name) token depth).Only ps
        (fun e => e.spawned? ps = none) (· = .error (.failed .tooLongToWrite)) := by
      rw [make, depthText_of_unwritable hd]
      exact rfl
    refine stopped.within_bind (fun ht => ?_) fun _ => ?_
    · cases hlimit.symm.trans ht
    · rintro _ rfl
      exact rfl
  | @denied directory n d h hlimit hn hc hd =>
    rw [h]
    refine (only_make_of_denied hn hc hd).within_bind (fun ht => ?_) fun _ => ?_
    · cases hlimit.symm.trans ht
    · rintro _ rfl
      -- a command that is denied is not taken for a clone that is late
      have late : d.toFailure ≠ .timedOut := by
        intro h
        rw [h] at hd
        cases hd
      simp only [Task.inTime, Except.mapError, Halt.toFailure, hd, Bool.false_eq_true, if_false]
      exact rfl

/-- The clone that a checkout comes to alone, if there is one. -/
def made (ps : Programs) (temporary : Except Failure Path) (r : Repository) (token : Option Text)
    (depth : Option Int) (limit : Binary64) : Option Checkout :=
  ((checkout temporary r token depth (some limit)).run ps).result.toOption.join

theorem result_checkout_ne :
    ((checkout temporary r token depth (some limit)).course ps).result ≠ .error .calledOff := by
  cases ht : temporary with
  | error e => exact nofun
  | ok directory =>
    rw [result_checkout_of_ok rfl]
    have inTime := Task.result_within_ne ps (make r (directory.joinText r.name) token depth) limit
    generalize (((make r (directory.joinText r.name) token depth).within (some limit)).course
      ps).result = res at inTime ⊢
    rcases res with (e | _) | c
    · simp only [absorbed]
      split <;> exact nofun
    · exact absurd rfl inTime
    · exact nofun

/-- A checkout that lets no failure through comes to a clone or to none. -/
theorem result_checkout (h : ∀ e, ¬ Escapes ps temporary r token depth limit e) :
    ((checkout temporary r token depth (some limit)).course ps).result =
      .ok (made ps temporary r token depth limit) := by
  unfold made Task.run
  rcases hres : ((checkout temporary r token depth (some limit)).course ps).result with (e | _) | c
  · exact absurd (result_checkout_eq_error_iff.mp hres) (h e)
  · exact absurd hres result_checkout_ne
  · rfl

/-! ### What happens in a checkout -/

/-- What may happen in a checkout: something is told of it, and the command that clones is started
and perhaps killed. -/
inductive Does (temporary : Except Failure Path) (r : Repository) (token : Option Text) :
    Event → Prop
  | command {directory : Path} (h : temporary = .ok directory) (depth : Option Text) {e : Event}
      (he : (cloneCommand r (directory.joinText r.name) token depth).Does e) :
      Does temporary r token e
  | cloning (address : Text) : Does temporary r token (.notice (.cloning address))
  | timedOut (name : Text) (limit : Binary64) :
      Does temporary r token (.notice (.cloneTimedOut name limit))
  | failed (name : Text) (reason : Failure) :
      Does temporary r token (.notice (.cloneFailed name reason))

theorem careful_make {directory : Path} (h : temporary = .ok directory) :
    (make r (directory.joinText r.name) token depth).Careful (Does temporary r token)
      fun _ => True := by
  refine (Task.careful_ofExcept fun _ _ => trivial).bind fun n => ?_
  refine (Task.careful_say (.cloning _)).bind fun _ => ?_
  have command : (((cloneCommand r (directory.joinText r.name) token n).finish [0]).Careful
      (Does temporary r token) Command.Fault) :=
    (Command.careful_finish _ [0]).mono (fun _ => .command h n) fun _ he => he
  exact command.attempt_bind (fun _ => Task.careful_pure _) fun _ _ => Task.careful_fail trivial

/-- What happens in a checkout is about the clone, and there is none where the checkout is late. -/
theorem orderly_checkout :
    (checkout temporary r token depth (some limit)).Orderly (Does temporary r token)
      (fun a res => a = .rung → res = .ok none) (.free .off) := by
  unfold checkout
  cases ht : temporary with
  | error e => exact .done nofun
  | ok directory =>
    refine (careful_make rfl).within_bind limit (fun c => .done nofun) (fun e => ?_) ?_
    · split
      · rename_i h
        cases h
      · exact .tell (.timedOut ..) (.done nofun)
      · split
        · exact .tell (.failed ..) (.done nofun)
        · exact .done nofun
    · exact .tell (.timedOut ..) (.done fun _ => rfl)

end Clone

end RepoScan
