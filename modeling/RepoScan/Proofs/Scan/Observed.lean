import RepoScan.Proofs.Scan

/-!
# Watching a scan

What a source and the detectors do is up to them, so their events could be anything.  A scan is
watched from outside: `Scanner.observed` shows a call to the source as one request, whatever the
source does then, and of a detector it shows the processes.

* `Scanner.bare_scan_observed` : a scan that is watched does the same work;
* `allEvents_scanTree` : what happens in a walk is that the source is asked and that something is
  told of a file;
* `Scanner.allEvents_detect`, `Scanner.Detection.allEvents` : what happens in a detection, with the
  detectors one after the other and in any run.
-/

namespace RepoScan

variable {σ α : Type}

/-! ### What is seen -/

/-- Work that is seen as one event, whatever it does. -/
def Session.seenAs (e : Event) (x : Session σ α) : Session σ α :=
  fun w => (⟨[e], (x.run w).1.result⟩, (x.run w).2)

theorem Session.allEvents_seenAs {P : Event → Prop} {e : Event} (h : P e) (x : Session σ α) :
    (x.seenAs e).AllEvents P := fun _ => List.forall_mem_singleton.mpr h

/-- The source whose calls are seen as requests. -/
def ContentSource.observed (src : ContentSource σ) : ContentSource σ where
  list r path := (src.list r path).seenAs (.request (.contents path))
  fetch r path := (src.fetch r path).seenAs (.request (.contents path))

/-- The task without what it tells: what is seen are its processes. -/
def Task.muted : Task α → Task α
  | done r => done r
  | tell _ rest => rest.muted
  | start c rest => start c fun r => (rest r).muted
  | await c rest => await c fun e => (rest e).muted
  | kill c rest => kill c fun found => (rest found).muted
  | reap c rest => reap c rest.muted
  | arm rest => arm rest.muted
  | disarm rest => disarm rest.muted

/-- The detector whose processes are seen. -/
def Detector.observed (d : Detector) : Detector :=
  { d with detect := fun t => (d.detect t).muted }

/-- The scanner whose calls to the source and whose processes are seen. -/
def Scanner.observed (s : Scanner σ) : Scanner σ :=
  { s with source := s.source.observed, detectors := s.detectors.map Detector.observed }

/-! ### Watching changes nothing -/

theorem bare_walkEntries {visit visit' : TreeEntry → Session σ (List α)}
    {below below' : Text → Session σ (List α)} (hv : ∀ e, (visit e).bare = (visit' e).bare)
    (hb : ∀ p, (below p).bare = (below' p).bare) (es : List TreeEntry) :
    (walkEntries visit below es).bare = (walkEntries visit' below' es).bare := by
  simp only [Session.bare_eq_iff_keeping] at hv hb ⊢
  exact keeping_walkEntries (fun e _ => hv e) fun e _ _ => hb e.path

theorem bare_scanEntry_observed (src : ContentSource σ) (r : Repository) (e : TreeEntry) :
    (scanEntry src.observed r e).bare = (scanEntry src r e).bare := by
  unfold scanEntry
  split
  · rfl
  · split
    · rfl
    · rw [Session.bare_bind, Session.bare_bind]
      rfl

theorem bare_walkWithin_observed (src : ContentSource σ) (r : Repository) (depth : Nat)
    (path : Text) : (walkWithin src.observed r (scanEntry src.observed r) depth path).bare =
      (walkWithin src r (scanEntry src r) depth path).bare := by
  induction depth generalizing path with
  | zero => rfl
  | succ depth ih =>
    have below (es : List TreeEntry) := bare_walkEntries (bare_scanEntry_observed src r) ih es
    rw [walkWithin, walkWithin, Session.bare_bind, Session.bare_bind]
    simp only [below]
    rfl

theorem bare_scanTree_observed (nesting : Nat) (src : ContentSource σ) (r : Repository)
    (path : Text) :
    (scanTree nesting src.observed r path).bare = (scanTree nesting src r path).bare :=
  bare_walkWithin_observed src r nesting path

theorem Task.course_muted (ps : Programs) (x : Task α) : x.muted.course ps =
    ⟨(x.course ps).events.filter Event.isProcess, (x.course ps).result⟩ := by
  induction x with
  | done r => rfl
  | tell n rest ih => exact ih
  | start c rest ih =>
    simp only [muted, course, ih, Course.after]
    rfl
  | await c rest ih => simp only [muted, course, ih]
  | kill c rest ih =>
    simp only [muted, course, ih, Course.after]
    rfl
  | reap c rest ih => exact ih
  | arm rest ih => exact ih
  | disarm rest ih => exact ih

theorem Task.only_muted (ps : Programs) (x : Task α) :
    x.muted.Only ps (fun e => e.isProcess = true) fun _ => True := by
  induction x with
  | done r => exact trivial
  | tell n rest ih => exact ih
  | start c rest ih => exact ⟨rfl, fun _ _ => ⟨rfl, ih _, ih _⟩, fun _ _ => ih _⟩
  | await c rest ih => exact ih
  | kill c rest ih => exact ⟨rfl, ih⟩
  | reap c rest ih => exact ih
  | arm rest ih => exact ih
  | disarm rest ih => exact ih

theorem Detector.found_observed (ps : Programs) (d : Detector) (t : Target) :
    d.observed.found ps t = d.found ps t := by
  have limited : ((d.observed.limited t).course ps).result = ((d.limited t).course ps).result := by
    show (((d.detect t).muted.within (some d.limit)).course ps).result =
      (((d.detect t).within (some d.limit)).course ps).result
    cases begun : d.limit.isNoTime with
    | true => rw [Task.within_of_isNoTime begun, Task.within_of_isNoTime begun]
    | false => rw [Task.course_within ps begun, Task.course_within ps begun, Task.course_muted]
  have skips : d.observed.skips t = d.skips t := rfl
  rw [Detector.found, Detector.found, skips, limited]

/-! ### What happens in a walk -/

section Events

variable {P : Event → Prop}

theorem allEvents_walkEntries {visit : TreeEntry → Session σ (List α)}
    {below : Text → Session σ (List α)} (hv : ∀ e, (visit e).AllEvents P)
    (hb : ∀ p, (below p).AllEvents P) (es : List TreeEntry) :
    (walkEntries visit below es).AllEvents P := by
  induction es with
  | nil => exact Session.allEvents_pure []
  | cons e es ih =>
    rw [walkEntries_cons]
    refine Session.AllEvents.bind ?_ fun here => ih.bind fun rest =>
      Session.allEvents_pure (here ++ rest)
    split
    · exact hb e.path
    · split
      · exact hv e
      · exact Session.allEvents_pure []

/-- What happens in a walk, if the source is asked and something is told of a file. -/
theorem allEvents_scanTree {nesting : Nat} {src : ContentSource σ} {r : Repository}
    (hlist : ∀ path, (src.list r path).AllEvents P)
    (hfetch : ∀ path, (src.fetch r path).AllEvents P)
    (hkind : ∀ path, P (.notice (.noKind path)))
    (hskip : ∀ path, P (.notice (.bodySkipped path))) (path : Text) :
    (scanTree nesting src r path).AllEvents P := by
  have file (body path : Text) : (scanFile body path).AllEvents P := by
    unfold scanFile
    split
    · exact (Outcome.allEvents_emit (hskip path)).bind fun _ => Outcome.allEvents_pure _
    · exact Outcome.allEvents_pure _
  have entry (e : TreeEntry) : (scanEntry src r e).AllEvents P := by
    unfold scanEntry
    split
    · exact Session.allEvents_pure []
    · split
      · exact (Session.allEvents_lift (Outcome.allEvents_emit (hkind e.path))).bind fun _ =>
          Session.allEvents_pure []
      · exact (hfetch e.path).bind fun body => Session.allEvents_lift (file body e.path)
  have within (depth : Nat) (path : Text) :
      (walkWithin src r (scanEntry src r) depth path).AllEvents P := by
    induction depth generalizing path with
    | zero => exact Session.allEvents_lift (Outcome.allEvents_fail _)
    | succ depth ih => exact (hlist path).bind fun es => allEvents_walkEntries entry ih es
  exact within nesting path

end Events

namespace Scanner

variable (s : Scanner σ) (r : Repository)

theorem checkout_observed : s.observed.checkout r = s.checkout r := by
  have clone : s.observed.needsClone = s.needsClone := by
    simp only [needsClone, observed, List.any_map]
    rfl
  rw [checkout, checkout, clone]
  rfl

theorem result_detect_observed : (s.observed.detect r).result = (s.detect r).result := by
  by_cases hd : s.detectors = []
  · simp only [detect, observed, hd, List.map_nil, List.isEmpty_nil, if_true]
  · have hd' : s.observed.detectors ≠ [] := fun h => hd (List.map_eq_nil_iff.mp h)
    have programs : s.observed.programs = s.programs := rfl
    rw [detect_eq s r hd, detect_eq s.observed r hd', checkout_observed, programs]
    cases hc : ((s.checkout r).run s.programs).result with
    | error e => rw [Outcome.result_bind_of_error _ hc, Outcome.result_bind_of_error _ hc]
    | ok c =>
      rw [Outcome.result_bind_of_ok _ hc, Outcome.result_bind_of_ok _ hc,
        Detector.result_collectAll, Detector.result_collectAll]
      simp only [observed, List.flatMap_map, Detector.found_observed]

theorem bare_stages_observed (identifier : Value) :
    (s.observed.stages identifier).bare = (s.stages identifier).bare := by
  unfold stages stagesWith
  cases Repository.ofValue identifier with
  | error e => rfl
  | ok r =>
    have files : (scanTree s.observed.nesting s.observed.source r []).attempt.bare =
        (scanTree s.nesting s.source r []).attempt.bare :=
      Session.bare_attempt_congr (bare_scanTree_observed s.nesting s.source r [])
    have detection : (Session.lift (s.observed.detect r).attempt : Session σ _).bare =
        (Session.lift (s.detect r).attempt).bare :=
      Session.bare_lift_congr (congrArg Except.ok (s.result_detect_observed r))
    simp only [Session.bare_bind, files]
    congr 1
    funext _
    congr 1
    funext inFiles
    cases inFiles with
    | error e => rfl
    | ok fs =>
      simp only [Session.bare_bind, detection]
      rfl

/-- **A scan that is watched does the same work.** -/
theorem bare_scan_observed (stamp : Stamp) (identifier : Value) :
    (s.observed.scan stamp identifier).bare = (s.scan stamp identifier).bare := by
  have same := s.bare_stages_observed identifier
  unfold stages at same
  rw [scan, scan, scanWith, scanWith, Session.bare_bind, Session.bare_bind, same]

/-! ### What happens in a detection -/

variable {s r} {P : Event → Prop}

/-- What happens in a detection whose detectors run one after the other. -/
theorem allEvents_detect (hc : ∀ e, Clone.Does s.temporary r s.token e → P e)
    (hn : ∀ n : Notice, n.isFromDetector = true → P (.notice n))
    (hd : ∀ d ∈ s.detectors, ∀ t, (d.detect t).Only s.programs P fun _ => True) :
    (s.detect r).AllEvents P := by
  unfold detect
  split
  · exact Outcome.allEvents_pure []
  · refine Outcome.AllEvents.bind ?_ fun clone => ?_
    · exact fun e he => hc e (((s.orderly_checkout r).only s.programs).course.1 e he)
    · intro e he
      rw [Detector.events_collectAll] at he
      obtain ⟨d, hmem, he⟩ := List.mem_flatMap.mp he
      exact (Detector.only_collect (hd d hmem _) hn).course.1 e he

/-- What happens in a run of a detection. -/
theorem Detection.allEvents (x : s.Detection r)
    (hc : ∀ e, Clone.Does s.temporary r s.token e → P e)
    (hn : ∀ n : Notice, n.isFromDetector = true → P (.notice n))
    (hd : ∀ d ∈ s.detectors, ∀ t, (d.detect t).Only s.programs P fun _ => True) :
    x.outcome.AllEvents P := by
  have clone {y : Crew (Option Checkout)}
      (hy : Crew.Reachable s.programs (.start [s.checkout r]) y) : ∀ e ∈ y.log, P e := by
    have only := List.forall_mem_singleton.mpr ((s.orderly_checkout r).only s.programs)
    exact fun e he => hc e ((Crew.only_of_reachable only hy).2 e he)
  cases x with
  | idle => exact Outcome.allEvents_pure []
  | stopped _ y _ hy => exact clone hy
  | joined _ y c hy _ z _ hz =>
    exact List.forall_mem_append.mpr
      ⟨clone hy, (Crew.only_of_reachable (only_collects hn hd c) hz).2⟩

end Scanner

end RepoScan
