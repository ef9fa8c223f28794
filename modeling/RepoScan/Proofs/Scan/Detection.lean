import RepoScan.Proofs.Clone
import RepoScan.Proofs.Detector.External
import RepoScan.Scan.Runs

/-!
# What comes of a detection

A detection makes a clone and then runs the detectors side by side.  The checkout lets some failures
through, and where it does the detection is `Scanner.Stuck`: no detector begins in any run.  In all
other runs the detection has a result.

* `Scanner.ends_checkout` : how the checkout ends in a run;
* `Scanner.Detection.mayContribute` : where the detection has a result, it is what the detectors
  come to on their own, in their order;
* `Scanner.Detection.result` : for detectors that run other programs, it is what each one finds
  alone, unless its time is over;
* `Scanner.exists_detection` : the detectors one after the other are one of the runs.
-/

namespace RepoScan

theorem Task.only_true {α : Type} (ps : Programs) (x : Task α) :
    x.Only ps (fun _ => True) fun _ => True := by
  induction x with
  | done => exact trivial
  | tell _ _ ih => exact ⟨trivial, ih⟩
  | start _ _ ih => exact ⟨trivial, fun _ _ => ⟨trivial, ih _, ih _⟩, fun _ _ => ih _⟩
  | await _ _ ih => exact ih
  | kill _ _ ih => exact ⟨trivial, ih⟩
  | reap _ _ ih => exact ih
  | arm _ ih => exact ih
  | disarm _ ih => exact ih

namespace Scanner

variable {σ : Type} (s : Scanner σ) (r : Repository)

/-! ### The checkout -/

/-- The failures that the checkout for the detectors lets through. -/
def Escapes (e : Failure) : Prop :=
  s.needsClone = true ∧
    Clone.Escapes s.programs s.temporary r s.token s.cloneDepth s.config.cloneLimit e

/-- The detectors cannot begin, since the checkout lets a failure through. -/
def Stuck : Prop := ∃ e, s.Escapes r e

/-- The clone for the detectors, if one is asked for and made in time. -/
def cloned : Option Checkout :=
  if s.needsClone then
    Clone.made s.programs s.temporary r s.token s.cloneDepth s.config.cloneLimit
  else none

theorem result_checkout (h : ¬ s.Stuck r) :
    ((s.checkout r).course s.programs).result = .ok (s.cloned r) := by
  unfold checkout cloned
  by_cases hn : s.needsClone = true
  · rw [if_pos hn, if_pos hn]
    exact Clone.result_checkout fun e he => h ⟨e, hn, he⟩
  · rw [if_neg hn, if_neg hn]
    rfl

/-- What happens in the checkout is about the clone, and there is none where it is late. -/
theorem orderly_checkout :
    (s.checkout r).Orderly (Clone.Does s.temporary r s.token)
      (fun a res => a = .rung → res = .ok none) (.free .off) := by
  unfold checkout
  split
  · exact Clone.orderly_checkout
  · exact .done nofun

theorem only_checkout_of_escapes {e : Failure} (h : s.Escapes r e) :
    (s.checkout r).Only s.programs (fun e => e.spawned? s.programs = none)
      (· = .error (.failed e)) := by
  unfold checkout
  rw [if_pos h.1]
  exact Clone.only_checkout_of_escapes h.2

variable {s r} {y : Crew (Option Checkout)} {res : Except Halt (Option Checkout)}

/-- **How the checkout ends in a run**: with the failure that it lets through, and else with the
clone, unless its time is over. -/
theorem ends_checkout (hy : Crew.Reachable s.programs (.start [s.checkout r]) y)
    (he : y.EndsIn [res]) : (∃ e, s.Escapes r e ∧ res = .error (.failed e)) ∨
      (¬ s.Stuck r ∧ res = .ok (if y.isLate.any id then none else s.cloned r)) := by
  by_cases hs : s.Stuck r
  · obtain ⟨e, hescapes⟩ := hs
    have only := Crew.only_ends
      (List.forall_mem_singleton.mpr (s.only_checkout_of_escapes r hescapes)) hy he
    exact .inl ⟨e, hescapes, only res List.mem_cons_self⟩
  · refine .inr ⟨hs, ?_⟩
    have holds := Crew.holds_of_reachable (List.forall_mem_singleton.mpr (s.orderly_checkout r)) hy
    have results := holds.results he fun _ h => h rfl
    have one : y.isLate.length = 1 := by
      rw [Crew.isLate, List.length_map, he.length_eq]
      rfl
    obtain ⟨late, hlate⟩ := List.length_eq_one_iff.mp one
    rw [hlate] at results ⊢
    simp only [List.zipWith_cons_cons, List.zipWith_nil_left, List.cons.injEq, and_true,
      s.result_checkout r hs] at results
    rw [results]
    cases late <;> rfl

theorem not_endsIn_error (hs : ¬ s.Stuck r)
    (hy : Crew.Reachable s.programs (.start [s.checkout r]) y) {e : Halt} :
    ¬ y.EndsIn [.error e] := by
  intro he
  rcases ends_checkout hy he with ⟨e', hescapes, -⟩ | ⟨-, hres⟩
  · exact hs ⟨e', hescapes⟩
  · cases hres

theorem not_endsIn_ok (hs : s.Stuck r)
    (hy : Crew.Reachable s.programs (.start [s.checkout r]) y) {clone : Option Checkout} :
    ¬ y.EndsIn [.ok clone] := by
  intro he
  rcases ends_checkout hy he with ⟨_, -, hres⟩ | ⟨hns, -⟩
  · cases hres
  · exact hns hs

/-! ### The detectors -/

theorem joinedResult_map_ok (parts : List (List Finding)) :
    joinedResult (parts.map .ok) = .ok parts.flatten := by
  have all : (parts.map Except.ok).mapM id = (.ok parts : Except Halt (List (List Finding))) := by
    induction parts with
    | nil => rfl
    | cons part parts ih =>
      rw [List.map_cons, List.mapM_cons, ih]
      rfl
  rw [joinedResult, all]
  rfl

/-- A detector may contribute these findings: it comes to them if it works on its own. -/
def Contributes (ps : Programs) (t : Target) (d : Detector) (fs : List Finding) : Prop :=
  (d.collect t).MayEndIn ps (.ok fs)

variable {clone : Option Checkout} {z : Crew (List Finding)}
  {rs : List (Except Halt (List Finding))}

theorem only_collects {P : Event → Prop}
    (hn : ∀ n : Notice, n.isFromDetector = true → P (.notice n))
    (hd : ∀ d ∈ s.detectors, ∀ t, (d.detect t).Only s.programs P fun _ => True)
    (clone : Option Checkout) :
    ∀ x ∈ s.collects r clone, x.Only s.programs P fun res => ∃ fs, res = .ok fs :=
  List.forall_mem_map.mpr fun d hmem => Detector.only_collect (hd d hmem _) hn

/-- The detectors end with findings in every run, and with those that they may contribute. -/
theorem ends_collects (hz : Crew.Reachable s.programs (.start (s.collects r clone)) z)
    (hrs : z.EndsIn rs) : ∃ parts, rs = parts.map .ok ∧
      List.Forall₂ (Contributes s.programs ⟨r, clone⟩) s.detectors parts := by
  have found : ∀ res ∈ rs, ∃ fs, res = .ok fs :=
    Crew.only_ends (only_collects (fun _ _ => trivial) (fun _ _ _ => Task.only_true _ _) clone)
      hz hrs
  obtain ⟨parts, hparts⟩ := exists_forall₂_of_forall found
  obtain rfl : rs = parts.map .ok :=
    List.forall₂_eq_eq_eq ▸ List.forall₂_map_right_iff.mpr hparts
  refine ⟨parts, rfl, ?_⟩
  have ends := Crew.mayEndIn_of_endsIn hz hrs
  rwa [collects, List.forall₂_map_left_iff, List.forall₂_map_right_iff] at ends

variable (s) in
/-- What the detectors find that are not late, in the order of the detectors. -/
def merged (t : Target) (late : List Bool) : List Finding :=
  (List.zipWith (fun d l => if l then [] else d.found s.programs t) s.detectors late).flatten

theorem orderly_collects (external : ∀ d ∈ s.detectors, d.IsExternal) :
    ∀ x ∈ s.collects r clone, x.Orderly
      (fun e => e.isProcess = true ∨ ∃ n : Notice, n.isFromDetector = true ∧ e = .notice n)
      Detector.Ends (.free .off) :=
  List.forall_mem_map.mpr fun d hd => Detector.orderly_collect
    (((external d hd).careful _).mono (fun _ => .inl) fun _ h => h) fun n hn => .inr ⟨n, hn, rfl⟩

theorem joinedResult_eq_merged (external : ∀ d ∈ s.detectors, d.IsExternal)
    (hz : Crew.Reachable s.programs (.start (s.collects r clone)) z) (hrs : z.EndsIn rs) :
    joinedResult rs = .ok (s.merged ⟨r, clone⟩ z.isLate) := by
  have holds := Crew.holds_of_reachable (orderly_collects external) hz
  have late (res : Except Halt (List Finding)) (h : Detector.Ends .rung res) : res = .ok [] := by
    obtain ⟨fs, rfl, hlate⟩ := h
    rw [hlate rfl]
  have results := holds.results hrs late
  rw [merged, ← joinedResult_map_ok, results, collects, List.zipWith_map_left, List.map_zipWith]
  congr 2
  funext d l
  cases l with
  | true => rfl
  | false => exact d.result_collect s.programs ⟨r, clone⟩

/-! ### Runs of the detection -/

namespace Detection

variable (x : s.Detection r)

/-- Where the detection is stuck, every run ends in the failure that the checkout lets through. -/
theorem exists_error (h : s.Stuck r) : ∃ e, s.Escapes r e ∧ x.outcome.result = .error e := by
  cases x with
  | idle hd =>
    obtain ⟨e, hn, -⟩ := h
    simp only [needsClone, hd, List.any_nil, Bool.and_false] at hn
    cases hn
  | stopped _ y e hy he =>
    rcases ends_checkout hy he with ⟨e', hescapes, hres⟩ | ⟨hs, -⟩
    · obtain rfl := Except.error.inj hres
      exact ⟨e', hescapes, rfl⟩
    · exact absurd h hs
  | joined _ y clone hy he => exact absurd he (not_endsIn_ok h hy)

/-- Where it is not stuck, every run has the findings that the detectors may contribute. -/
theorem mayContribute (h : ¬ s.Stuck r) : ∃ parts, x.outcome.result = .ok parts.flatten ∧
    List.Forall₂ (Contributes s.programs ⟨r, x.clone?⟩) s.detectors parts := by
  cases x with
  | idle hd =>
    refine ⟨[], rfl, ?_⟩
    rw [hd]
    exact .nil
  | stopped _ y e hy he => exact absurd he (not_endsIn_error h hy)
  | joined _ y clone hy he z rs hz hrs =>
    obtain ⟨parts, rfl, hparts⟩ := ends_collects hz hrs
    exact ⟨parts, joinedResult_map_ok parts, hparts⟩

theorem clone?_eq (h : ¬ s.Stuck r) :
    x.clone? = if x.isCloneLate then none else s.cloned r := by
  cases x with
  | idle hd =>
    have unneeded : s.cloned r = none := by
      simp only [cloned, needsClone, hd, List.any_nil, Bool.and_false, Bool.false_eq_true, if_false]
    rw [unneeded, ite_self]
    rfl
  | stopped _ y e hy he => exact absurd he (not_endsIn_error h hy)
  | joined _ y clone hy he =>
    rcases ends_checkout hy he with ⟨e', hescapes, -⟩ | ⟨-, hres⟩
    · exact absurd ⟨e', hescapes⟩ h
    · exact Except.ok.inj hres

/-- **The findings of a run** are those of the detectors in their order, but for the detectors whose
time is over. -/
theorem result (external : ∀ d ∈ s.detectors, d.IsExternal) (h : ¬ s.Stuck r) :
    x.isLate.length = s.detectors.length ∧
      x.outcome.result = .ok (s.merged ⟨r, x.clone?⟩ x.isLate) := by
  cases x with
  | idle hd =>
    rw [merged, hd]
    exact ⟨rfl, rfl⟩
  | stopped _ y e hy he => exact absurd he (not_endsIn_error h hy)
  | joined _ y clone hy he z rs hz hrs =>
    refine ⟨?_, joinedResult_eq_merged external hz hrs⟩
    have workers := (Crew.runs_of_reachable hz).length_eq
    rw [collects, List.length_map] at workers
    exact (List.length_map ..).trans workers.symm

end Detection

variable (s) (r) in
theorem detect_eq (h : s.detectors ≠ []) :
    s.detect r = (s.checkout r).run s.programs >>= fun clone =>
      Detector.collectAll s.programs s.detectors ⟨r, clone⟩ := by
  unfold detect
  rw [if_neg fun he => h (List.isEmpty_iff.mp he)]

variable (r) in
/-- **The detectors may run one after the other**, each of them as it does alone. -/
theorem exists_detection (external : ∀ d ∈ s.detectors, d.IsExternal) :
    ∃ x : s.Detection r, x.outcome = s.detect r := by
  by_cases hd : s.detectors = []
  · refine ⟨.idle hd, ?_⟩
    rw [detect, hd]
    rfl
  · obtain ⟨y, hy, hlog, he⟩ : ∃ y, Crew.Reachable s.programs (.start [s.checkout r]) y ∧
        y.log = [s.checkout r].flatMap (fun x => (x.course s.programs).events) ∧
        y.EndsIn ([s.checkout r].map fun x => (x.course s.programs).result) :=
      Crew.exists_alone (List.forall_mem_singleton.mpr (s.orderly_checkout r))
    simp only [List.flatMap_cons, List.flatMap_nil, List.append_nil] at hlog
    cases hres : ((s.checkout r).course s.programs).result with
    | error e =>
      refine ⟨.stopped hd y e hy (by rw [List.map_singleton, hres] at he; exact he), ?_⟩
      rw [detect_eq s r hd, Outcome.bind_of_error (e := e.toFailure)]
      · rw [Detection.outcome, hlog]
        rfl
      · rw [Task.run, hres]
        rfl
    | ok clone =>
      obtain ⟨z, hz, hlog', he'⟩ := Crew.exists_alone (@orderly_collects _ s r clone external)
      refine ⟨.joined hd y clone hy (by rw [List.map_singleton, hres] at he; exact he) z _ hz he',
        ?_⟩
      have results : (s.collects r clone).map (fun x => (x.course s.programs).result) =
          (s.detectors.map fun d => d.found s.programs ⟨r, clone⟩).map .ok := by
        rw [collects, List.map_map, List.map_map]
        exact List.map_congr_left fun d _ => d.result_collect s.programs ⟨r, clone⟩
      rw [detect_eq s r hd, Outcome.bind_of_ok (a := clone), Detection.outcome, hlog, hlog',
        results, joinedResult_map_ok, Detector.result_collectAll, Detector.events_collectAll,
        collects, List.flatMap_map, List.flatMap_def]
      · rfl
      · rw [Task.run, hres]
        rfl

end Scanner

end RepoScan
