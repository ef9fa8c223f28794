import RepoScan.Detector.External
import RepoScan.Proofs.Detector
import RepoScan.Proofs.Json.RoundTrip

/-!
# Detectors that run other programs

What each of these detectors may do and how it may fail, said once for each function on the way.

* `Json.fails_read`, `DependencyReport.fails_read`, `Template.fails_fillAll`, `Files.fails_isFile` :
  how the steps of the dependency audit fail;
* `Detector.careful_secrets`, `Detector.careful_dependencies`, `Detector.careful_history` : the
  detectors leave no process behind, and nothing happens in them but that processes are started and
  killed;
* `Detector.IsExternal.careful` : all of them at once.
-/

namespace RepoScan

/-! ### Failures of reports -/

namespace Json

/-- The failures of texts that are read as JSON documents. -/
inductive Fault : Failure → Prop
  | malformed : Fault .malformedJson
  | tooDeep : Fault .tooDeep
  | tooManyDigits (digits : Nat) : Fault (.tooManyDigits digits)

theorem fails_takeNumber (negative : Bool) (t : Text) : Fails Fault (takeNumber negative t) := by
  unfold takeNumber
  dsimp only
  repeat' split
  all_goals first | exact fails_ok _ | exact fails_error .malformed |
    exact fails_error (.tooManyDigits _)

section Step

variable {fuel : Nat}

theorem fails_takeValue_succ
    (hitems : ∀ depth t done, Fails Fault (takeItems fuel depth t done))
    (hentries : ∀ depth t done, Fails Fault (takeEntries fuel depth t done)) (depth : Nat)
    (t : Text) : Fails Fault (takeValue (fuel + 1) depth t) := by
  cases t with
  | nil => exact fails_error .malformed
  | cons c t =>
    rw [takeValue_cons]
    split
    · split
      · exact fails_ok _
      · exact fails_error .malformed
    · split
      · split
        · exact fails_error .tooDeep
        · split
          · exact fails_ok _
          · exact hitems _ _ _
        · exact fails_error .malformed
      · split
        · split
          · exact fails_error .tooDeep
          · split
            · exact fails_ok _
            · exact hentries _ _ _
          · exact fails_error .malformed
        · split
          · exact fails_ok _
          · split <;> exact fails_takeNumber _ _

theorem fails_takeItems_succ (hvalue : ∀ depth t, Fails Fault (takeValue fuel depth t))
    (hitems : ∀ depth t done, Fails Fault (takeItems fuel depth t done)) (depth : Nat) (t : Text)
    (done : List Value) : Fails Fault (takeItems (fuel + 1) depth t done) := by
  unfold takeItems
  split
  · rename_i e he
    exact fails_error (hvalue depth t e he)
  · split
    · split
      · exact fails_ok _
      · split
        · exact hitems _ _ _
        · exact fails_error .malformed
    · exact fails_error .malformed

theorem fails_takeEntries_succ (hvalue : ∀ depth t, Fails Fault (takeValue fuel depth t))
    (hentries : ∀ depth t done, Fails Fault (takeEntries fuel depth t done)) (depth : Nat)
    (t : Text) (done : List (Value × Value)) :
    Fails Fault (takeEntries (fuel + 1) depth t done) := by
  unfold takeEntries
  split
  · exact fails_error .malformed
  · split
    · split
      · exact fails_error .malformed
      · split
        · exact fails_error .malformed
        · split
          · -- the key is read
            split
            · rename_i e he
              exact fails_error (hvalue _ _ e he)
            · split
              · split
                · exact fails_ok _
                · split
                  · exact hentries _ _ _
                  · exact fails_error .malformed
              · exact fails_error .malformed
          · exact fails_error .malformed
    · exact fails_error .malformed

end Step

/-- The readers of values, items and entries call each other with less fuel. -/
theorem fails_take (fuel : Nat) :
    (∀ depth t, Fails Fault (takeValue fuel depth t)) ∧
      (∀ depth t done, Fails Fault (takeItems fuel depth t done)) ∧
      ∀ depth t done, Fails Fault (takeEntries fuel depth t done) := by
  induction fuel with
  | zero =>
    refine ⟨fun depth t => ?_, fun depth t done => ?_, fun depth t done => ?_⟩
    · unfold takeValue
      exact fails_error .malformed
    · unfold takeItems
      exact fails_error .malformed
    · unfold takeEntries
      exact fails_error .malformed
  | succ fuel ih =>
    obtain ⟨hvalue, hitems, hentries⟩ := ih
    exact ⟨fails_takeValue_succ hitems hentries, fails_takeItems_succ hvalue hitems,
      fails_takeEntries_succ hvalue hentries⟩

theorem fails_read (t : Text) : Fails Fault (read t) := by
  unfold read
  split
  · rename_i e he
    exact fails_error ((fails_take _).1 _ _ e he)
  · split
    · exact fails_ok _
    · exact fails_error .malformed

end Json

namespace DependencyReport

/-- The failures of reports that are read as those of a dependency audit. -/
inductive Fault : Failure → Prop
  | shape : Fault .auditReportShape
  | notIterable (type : Text) : Fault (.notIterable type)

theorem fails_toItems (v : Value) : Fails Fault v.toItems := by
  cases v <;> first | exact fails_ok _ | exact fails_error (.notIterable _)

theorem fails_collect {f : Value × Value → Except Failure (Option Advisory)}
    (hf : ∀ e, Fails Fault (f e)) (es : List (Value × Value)) : Fails Fault (collect f es) := by
  induction es with
  | nil => exact fails_ok []
  | cons e es ih => exact (hf e).bind fun _ => ih.bind fun _ => fails_ok _

theorem fails_ofNumbered? (v : Value) : Fails Fault (ofNumbered? v) := by
  unfold ofNumbered?
  split
  · exact ((fails_toItems _).bind fun _ => fails_ok _).bind fun _ => fails_ok _
  · exact fails_ok none

theorem fails_ofPackage? (name v : Value) : Fails Fault (ofPackage? name v) := by
  unfold ofPackage?
  split
  · refine (fails_toItems _).bind fun sources => ?_
    split <;> exact fails_ok _
  · exact fails_ok none

theorem fails_read (manifest : Text) (report : Value) : Fails Fault (read manifest report) := by
  refine Fails.map ?_ _
  unfold advisories
  split
  · exact fails_ok _
  · split
    · exact fails_collect (fun e => fails_ofNumbered? e.2) _
    · split
      · exact fails_collect (fun e => fails_ofPackage? e.1 e.2) _
      · exact fails_ok []
  · exact fails_error .shape

end DependencyReport

theorem Template.fails_fillAll (values : Arguments) (ts : List Text) :
    Fails (fun e => ∃ fault, e = .template fault) (fillAll values ts) := by
  refine fails_mapM (fun t => ?_) ts
  split
  · exact fails_ok _
  · exact fails_error ⟨_, rfl⟩

theorem Files.fails_isFile (fs : Files) (p : Path) :
    Fails (fun e => ∃ path, e = .pathTooLong path) (fs.isFile p) := by
  refine Fails.map ?_ _
  unfold read?
  split
  · exact fails_ok _
  · exact fails_ok _
  · exact fails_error ⟨_, rfl⟩

/-! ### The detectors -/

namespace Detector

open Yaml (Place)

/-- The failures of a dependency audit whose manifest is given as a text. -/
inductive AuditFault : Failure → Prop
  | path (path : Text) : AuditFault (.pathTooLong path)
  | template (fault : TemplateFault) : AuditFault (.template fault)
  | command {e : Failure} (h : Command.Fault e) : AuditFault e
  | output {e : Failure} (h : Json.Fault e) : AuditFault e
  | report {e : Failure} (h : DependencyReport.Fault e) : AuditFault e

/-- A detector that runs other programs: one of those that a configuration asks for. -/
inductive IsExternal : Detector → Prop
  | secrets (command : List Text) (limit : Binary64) : IsExternal (secrets command limit)
  | dependencies (command : List Text) (manifest : Place) (statuses : List Int)
      (limit : Binary64) : IsExternal (dependencies command manifest statuses limit)
  | history (depth : Option Int) (limit : Binary64) : IsExternal (history depth limit)

theorem isExternal_of_mem_ofConfig {c : Config} {d : Detector} (hd : d ∈ ofConfig c) :
    d.IsExternal := by
  rcases List.mem_append.mp hd with hd | hd
  · rcases List.mem_cons.mp hd with rfl | hd
    · exact .secrets ..
    · obtain rfl := List.mem_singleton.mp hd
      exact .dependencies ..
  · split at hd
    · obtain rfl := List.mem_singleton.mp hd
      exact .history ..
    · cases hd

section Careful

variable {F : Failure → Prop} {t : Target}

theorem careful_onCheckout {f : Checkout → Task (List Finding)}
    (h : ∀ c, (f c).Careful (fun e => e.isProcess = true) F) :
    (onCheckout t f).Careful (fun e => e.isProcess = true) F := by
  unfold onCheckout
  split
  · exact Task.careful_pure _
  · exact h _

theorem careful_command (c : Command) (statuses : List Int) :
    (c.run statuses).Careful (fun e => e.isProcess = true) Command.Fault := by
  refine (c.careful_run statuses).mono ?_ fun _ h => h
  rintro _ (rfl | rfl) <;> rfl

variable (t)

theorem careful_secrets (command : List Text) (limit : Binary64) :
    ((secrets command limit).detect t).Careful (fun e => e.isProcess = true) fun _ => True := by
  refine careful_onCheckout fun c => ?_
  refine (Task.careful_ofExcept fun _ _ => trivial).bind fun words => ?_
  refine ((careful_command _ [0]).mono (fun _ h => h) fun _ _ => trivial).bind fun output => ?_
  exact Task.careful_ofExcept fun _ _ => trivial

theorem careful_history (depth : Option Int) (limit : Binary64) :
    ((history depth limit).detect t).Careful (fun e => e.isProcess = true) fun _ => True := by
  refine careful_onCheckout fun c => ?_
  refine Task.Careful.bind ?_ fun diff => ?_
  · refine (Task.careful_ofExcept fun _ _ => trivial).bind fun n => ?_
    exact (careful_command _ [0]).mono (fun _ h => h) fun _ _ => trivial
  · exact (Task.careful_ofExcept fun _ _ => trivial).bind fun _ => Task.careful_pure _

/-- A dependency audit fails in the ways of its steps, the first one being its manifest. -/
theorem careful_dependencies (command : List Text) (manifest : Place) (statuses : List Int)
    (limit : Binary64) (hm : Fails F (manifestText manifest)) (hF : ∀ e, AuditFault e → F e) :
    ((dependencies command manifest statuses limit).detect t).Careful
      (fun e => e.isProcess = true) F := by
  refine careful_onCheckout fun c => ?_
  refine (Task.careful_ofExcept hm).bind fun m => ?_
  have there : Fails F (c.files.isFile (c.place.joinText m)) :=
    (Files.fails_isFile _ _).mono fun e he => by
      obtain ⟨path, rfl⟩ := he
      exact hF _ (.path path)
  refine (Task.careful_ofExcept there).bind fun found => ?_
  split
  · exact Task.careful_pure _
  have filled (values : Template.Arguments) : Fails F (Template.fillAll values command) :=
    (Template.fails_fillAll values command).mono fun e he => by
      obtain ⟨fault, rfl⟩ := he
      exact hF _ (.template fault)
  refine (Task.careful_ofExcept (filled _)).bind fun words => ?_
  refine ((careful_command _ statuses).mono (fun _ h => h) fun e he => hF e (.command he)).bind
    fun output => Task.careful_ofExcept ?_
  have read : Fails F (Json.read output) := (Json.fails_read output).mono fun e he =>
    hF e (.output he)
  exact read.bind fun report =>
    (DependencyReport.fails_read m report).mono fun e he => hF e (.report he)

end Careful

/-- **Detectors that run other programs leave no process behind.** -/
theorem IsExternal.careful {d : Detector} (hd : d.IsExternal) (t : Target) :
    (d.detect t).Careful (fun e => e.isProcess = true) fun _ => True := by
  cases hd with
  | secrets command limit => exact careful_secrets t command limit
  | dependencies command manifest statuses limit =>
    exact careful_dependencies t command manifest statuses limit (fun _ _ => trivial)
      fun _ _ => trivial
  | history depth limit => exact careful_history t depth limit

end Detector

end RepoScan
