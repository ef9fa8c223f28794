import RepoScan.Detector
import RepoScan.Proofs.Crew

/-!
# What detectors contribute

A detector contributes its findings or none.  `Detector.found` says which if it works alone, and the
lemmas here say that nothing else can come of it:

* `Detector.result_collect`, `Detector.result_collectAll` : collecting from detectors never fails,
  and their findings are put together in the order of the detectors;
* `Detector.only_collect` : nothing happens but what the detector does, and a notice that tells how
  it ended;
* `Detector.orderly_collect` : a detector that leaves no process behind contributes nothing if its
  time is over.
-/

namespace RepoScan.Detector

/-- The detector does not run, since it lacks a clone. -/
def skips (d : Detector) (t : Target) : Bool := d.needsCheckout && t.checkout.isNone

/-- The work of the detector under its limit. -/
def limited (d : Detector) (t : Target) : Task (List Finding) := (d.detect t).within (some d.limit)

/-- What the detector contributes of its own: all that it finds, or nothing. -/
def found (ps : Programs) (d : Detector) (t : Target) : List Finding :=
  if d.skips t then []
  else match ((d.limited t).course ps).result with
    | .error _ => []
    | .ok fs => fs

variable (ps : Programs) (d : Detector) (ds : List Detector) (t : Target)

theorem collect_of_skips (h : d.skips t = true) : d.collect t = (do
    Task.say (.detectorSkipped d.name t.repository.fullName)
    pure []) := by
  unfold collect
  exact if_pos h

/-- **Collecting from a detector never fails.** -/
theorem result_collect : ((d.collect t).course ps).result = .ok (d.found ps t) := by
  cases hs : d.skips t with
  | true =>
    rw [collect_of_skips d t hs, found, hs]
    rfl
  | false =>
    have runs : ¬ (d.needsCheckout && t.checkout.isNone) = true := by
      rw [show (d.needsCheckout && t.checkout.isNone) = d.skips t from rfl, hs]
      exact nofun
    have inTime := Task.result_within_ne ps (d.detect t) d.limit
    rw [found, hs, collect, if_neg runs, Task.result_bind, Task.result_attempt]
    show _ = Except.ok (match (((d.detect t).within (some d.limit)).course ps).result with
      | .error _ => []
      | .ok fs => fs)
    generalize (((d.detect t).within (some d.limit)).course ps).result = r at inTime ⊢
    rcases r with (e | _) | fs
    · cases e <;> rfl
    · exact absurd rfl inTime
    · rfl

theorem found_of_skips (hs : d.skips t = true) : d.found ps t = [] := by
  simp only [found, hs, if_true]

theorem found_of_error {h : Halt} (he : ((d.limited t).course ps).result = .error h) :
    d.found ps t = [] := by
  simp only [found, he, ite_self]

theorem result_run_collect : ((d.collect t).run ps).result = .ok (d.found ps t) := by
  rw [Task.run, d.result_collect ps t]
  rfl

/-- **The findings of detectors come in the order of the detectors.** -/
theorem result_collectAll :
    (collectAll ps ds t).result = .ok (ds.flatMap fun d => d.found ps t) := by
  unfold collectAll
  rw [Outcome.result_bind_of_ok _ (Outcome.result_mapM (fun d => d.result_run_collect ps t) ds),
    List.flatMap_def]
  rfl

theorem events_collectAll :
    (collectAll ps ds t).events = ds.flatMap fun d => ((d.collect t).course ps).events := by
  unfold collectAll
  rw [Outcome.events_bind_of_ok _ (Outcome.result_mapM (fun d => d.result_run_collect ps t) ds),
    Outcome.events_mapM (fun d => d.result_run_collect ps t), Outcome.events_pure, List.append_nil]
  rfl

/-! ### All that detectors may do -/

variable {ps d t} {P : Event → Prop}

/-- What happens in a detector, and the notice that tells how it ended. -/
theorem only_collect {Q : Except Halt (List Finding) → Prop} (hd : (d.detect t).Only ps P Q)
    (hn : ∀ n : Notice, n.isFromDetector = true → P (.notice n)) :
    (d.collect t).Only ps P fun r => ∃ fs, r = .ok fs := by
  unfold collect
  split
  · exact ⟨hn _ rfl, _, rfl⟩
  · refine hd.within_bind (fun _ => ⟨hn _ rfl, _, rfl⟩) fun _ r _ => ?_
    split
    · exact ⟨hn _ rfl, _, rfl⟩
    · exact ⟨hn _ rfl, _, rfl⟩
    · exact ⟨hn _ rfl, _, rfl⟩

/-- How collecting from a detector ends: with findings, and without any if its time is over. -/
def Ends (a : Alarm) (r : Except Halt (List Finding)) : Prop :=
  ∃ fs, r = .ok fs ∧ (a = .rung → fs = [])

theorem orderly_collect {F : Failure → Prop} (hd : (d.detect t).Careful P F)
    (hn : ∀ n : Notice, n.isFromDetector = true → P (.notice n)) :
    (d.collect t).Orderly P Ends (.free .off) := by
  unfold collect
  split
  · exact .tell (hn _ rfl) (.done ⟨[], rfl, fun _ => rfl⟩)
  · refine hd.within_bind d.limit (fun fs => ?_) (fun e => ?_) ?_
    · exact .tell (hn _ rfl) (.done ⟨fs, rfl, nofun⟩)
    · split
      · exact .tell (hn _ rfl) (.done ⟨[], rfl, fun _ => rfl⟩)
      · exact .tell (hn _ rfl) (.done ⟨[], rfl, fun _ => rfl⟩)
      · rename_i h
        cases h
    · exact .tell (hn (.detectorTimedOut d.name d.limit) rfl) (.done ⟨[], rfl, fun _ => rfl⟩)

end RepoScan.Detector
