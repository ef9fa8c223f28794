import RepoScan.Proofs.Scan

/-!
# Processes when a scan has ended

The clone is made first, and then the detectors run side by side.  Whatever their programs do, and
in whatever order the detectors take their turns, every process has ended or was killed when the
scan returns.

* `Scanner.Detection.settled` : the processes of a detection are gone when it has ended;
* `Scanner.Detection.perm_of_booked` : they are those that its events tell of;
* `Crew.Terminates` : tasks never get stuck and always come to an end;
* `Scanner.no_process_left` : **when a scan has ended no process is running**.
-/

namespace RepoScan

/-- Wherever a run of the tasks is, it has ended or may go on, and it does not go on forever. -/
def Crew.Terminates {α : Type} (ps : Programs) (xs : List (Task α)) : Prop :=
  ∀ y, Reachable ps (start xs) y →
    ((∀ rs, ¬ y.EndsIn rs) → ∃ y', y.Step ps y') ∧ Acc (fun y' y => Step ps y y') y

theorem Crew.terminates_of_orderly {α : Type} {ps : Programs} {P : Event → Prop}
    {Q : Alarm → Except Halt α → Prop} {xs : List (Task α)}
    (h : ∀ x ∈ xs, x.Orderly P Q (.free .off)) : Terminates ps xs := by
  intro y hy
  have holds := holds_of_reachable h hy
  exact ⟨holds.exists_step, holds.acc⟩

/-! ### What a scan tells of its parts -/

namespace Session

variable {σ α β : Type} {x : Session σ α} {f : α → Session σ β} {w : σ} {es : List Event}

theorem infix_bind_left (h : es <:+: (x.run w).1.events) : es <:+: ((x >>= f).run w).1.events := by
  cases hx : (x.run w).1.result with
  | error e =>
    rw [run_bind_of_error f hx]
    exact h
  | ok a =>
    rw [run_bind_of_ok f hx]
    exact h.trans (List.prefix_append _ _).isInfix

theorem infix_bind_right {a : α} (hx : (x.run w).1.result = .ok a)
    (h : es <:+: ((f a).run (x.run w).2).1.events) : es <:+: ((x >>= f).run w).1.events := by
  rw [run_bind_of_ok f hx]
  exact h.trans (List.suffix_append _ _).isInfix

end Session

namespace Scanner

variable {σ : Type} {s : Scanner σ} {r : Repository}

namespace Detection

variable (x : s.Detection r)

/-- **When a detection has ended no process is running.** -/
theorem settled (external : ∀ d ∈ s.detectors, d.IsExternal) :
    ∀ q ∈ x.processes, q.IsLaunched s.programs ∧ q.Settled := by
  have clone {y : Crew (Option Checkout)} {rs : List (Except Halt (Option Checkout))}
      (hy : Crew.Reachable s.programs (.start [s.checkout r]) y) (he : y.EndsIn rs) :
      ∀ q ∈ y.processes, q.IsLaunched s.programs ∧ q.Settled := by
    have holds :=
      Crew.holds_of_reachable (List.forall_mem_singleton.mpr (s.orderly_checkout r)) hy
    exact fun q hq => ⟨Crew.launched_of_reachable hy q hq, holds.settled he q hq⟩
  cases x with
  | idle => exact nofun
  | stopped _ y e hy he => exact clone hy he
  | joined _ y c hy he z rs hz hrs =>
    have holds := Crew.holds_of_reachable (orderly_collects external) hz
    exact List.forall_mem_append.mpr ⟨clone hy he, fun q hq =>
      ⟨Crew.launched_of_reachable hz q hq, holds.settled hrs q hq⟩⟩

/-- What is counted of the processes of a detection is what is counted of its events. -/
theorem perm_of_booked {ofProcess : Process → List Command} {ofEvent : Event → Option Command}
    (h : Worker.Booked s.programs ofProcess ofEvent) :
    (x.processes.flatMap ofProcess).Perm (x.outcome.events.filterMap ofEvent) := by
  cases x with
  | idle => exact .nil
  | stopped _ y e hy he => exact Crew.perm_of_booked h hy
  | joined _ y c hy he z rs hz hrs =>
    simp only [processes, outcome, List.flatMap_append, List.filterMap_append]
    exact (Crew.perm_of_booked h hy).append (Crew.perm_of_booked h hz)

/-- Processes are in nobody's way: where one was started the detection has a result. -/
theorem exists_result (hx : x.processes ≠ []) : ∃ fs, x.outcome.result = .ok fs := by
  by_cases hs : s.Stuck r
  · refine absurd ?_ hx
    obtain ⟨e, hescapes⟩ := hs
    cases x with
    | idle => rfl
    | stopped _ y _ hy =>
      -- no event of such a checkout is that of a process
      have none := (Crew.only_of_reachable
        (List.forall_mem_singleton.mpr (s.only_checkout_of_escapes r hescapes)) hy).2
      have commands := Crew.perm_of_booked (Worker.booked_spawned s.programs) hy
      rw [List.filterMap_eq_nil_iff.mpr none, List.perm_nil, List.flatMap_eq_nil_iff] at commands
      exact List.eq_nil_iff_forall_not_mem.mpr fun q hq => nomatch commands q hq
    | joined _ y clone hy he => exact absurd he (not_endsIn_ok ⟨e, hescapes⟩ hy)
  · obtain ⟨parts, hparts, -⟩ := x.mayContribute hs
    exact ⟨_, hparts⟩

end Detection

/-! ### Runs of a scan -/

variable {identifier : Value} {w : σ}

theorem infix_scanWith (h : s.Detects identifier w r) (detection : Outcome (List Finding))
    (stamp : Stamp) : detection.events <:+:
      ((s.scanWith (fun _ => detection) stamp identifier).run w).1.events := by
  obtain ⟨hr, fs, hf⟩ := h
  refine Session.infix_bind_left ?_
  unfold stagesWith
  rw [hr]
  refine Session.infix_bind_right rfl ?_
  have walked : ((scanTree s.nesting s.source r []).attempt.run w).1.result = .ok (.ok fs) :=
    (Session.result_attempt ..).trans (congrArg _ hf)
  refine Session.infix_bind_right walked ?_
  refine Session.infix_bind_right rfl ?_
  exact Session.infix_bind_left (List.infix_refl _)

theorem Run.infix_outcome (x : s.Run identifier w) (stamp : Stamp) :
    x.detection.events <:+: (x.outcome stamp).events := by
  cases x with
  | early => exact List.nil_infix
  | detected h d => exact infix_scanWith h d.outcome stamp

/-- The processes of a run and what its events tell of them. -/
structure Settles (x : s.Run identifier w) : Prop where
  /-- Each process is that of its command, and it ended by itself and was not killed, or it was
  killed once. -/
  settled : ∀ q ∈ x.processes, q.IsLaunched s.programs ∧ q.Settled
  /-- There are as many processes as were started. -/
  started : (x.processes.map Process.command).Perm
    (x.detection.events.filterMap (Event.spawned? s.programs))
  /-- They were killed as many times as is told. -/
  killed : (x.processes.flatMap fun q => List.replicate q.kills q.command).Perm
    (x.detection.events.filterMap Event.killed?)
  /-- Killing them fails nothing. -/
  succeeds : x.processes ≠ [] → ∃ fs, x.detection.result = .ok fs

theorem settles (external : ∀ d ∈ s.detectors, d.IsExternal) (x : s.Run identifier w) :
    Settles x := by
  cases x with
  | early => exact ⟨nofun, .nil, .nil, fun h => absurd rfl h⟩
  | detected h d =>
    refine ⟨d.settled external, ?_, d.perm_of_booked (Worker.booked_killed s.programs),
      d.exists_result⟩
    rw [List.map_eq_flatMap]
    exact d.perm_of_booked (Worker.booked_spawned s.programs)

variable (s identifier w) in
/-- **When a scan has ended no process is running.**  In every run each process has ended by itself,
without being killed, or was killed once, which fails nothing.  The work in which processes are
started never gets stuck and comes to an end, whoever takes the next turn, and what the program does
is one of the runs. -/
theorem no_process_left (external : ∀ d ∈ s.detectors, d.IsExternal) (stamp : Stamp) :
    (∀ x : s.Run identifier w, Settles x ∧ x.detection.events <:+: (x.outcome stamp).events) ∧
      (∀ r, Crew.Terminates s.programs [s.checkout r] ∧
        ∀ clone, Crew.Terminates s.programs (s.collects r clone)) ∧
      ∃ x : s.Run identifier w, x.outcome stamp = ((s.scan stamp identifier).run w).1 := by
  refine ⟨fun x => ⟨settles external x, x.infix_outcome stamp⟩, fun r => ⟨?_, fun clone => ?_⟩,
    s.exists_run identifier w external stamp⟩
  · exact Crew.terminates_of_orderly (List.forall_mem_singleton.mpr (s.orderly_checkout r))
  · exact Crew.terminates_of_orderly (orderly_collects external)

theorem kills_of_gitleaks {q : Process} (hq : q.IsLaunched busyPrograms ∧ q.Settled)
    (h : q.command.words.head? = some ("gitleaks" : Text)) : q.kills = 1 := by
  obtain ⟨launched, settled⟩ := hq
  obtain ⟨rest, hwords⟩ := List.head?_eq_some_iff.mp h
  have hangs : q.command.launch busyPrograms = .ok .hangs := by
    rw [Command.launch, busyPrograms, hwords]
    rfl
  have hp : .hangs = q.program := Except.ok.inj (hangs.symm.trans launched)
  cases settled with
  | killed => rfl
  | gone => rfl
  | ended _ ends =>
    cases hp
    cases ends

/-- The secret scanner, which hangs, is killed once in every run, and in some run it is started. -/
theorem no_process_left_busy :
    (∀ d ∈ busy.detectors, d.IsExternal) ∧
      (∀ x : busy.Run (.text "acme/shop") (), ∀ q ∈ x.processes,
        q.command.words.head? = some ("gitleaks" : Text) → q.kills = 1) ∧
      ∃ x : busy.Run (.text "acme/shop") (), ∃ q ∈ x.processes,
        q.command.words.head? = some ("gitleaks" : Text) := by
  have external : ∀ d ∈ busy.detectors, d.IsExternal := external_ofEmptyHost _ _
  obtain ⟨all, -⟩ := busy.no_process_left (.text "acme/shop") () external
    ⟨"scan", ⟨⟨2024, 1, 2⟩, 0, 0, 0, 0, some 0⟩⟩
  refine ⟨external, fun x q hq => kills_of_gitleaks ((all x).1.settled q hq), ?_⟩
  obtain ⟨d, hd⟩ := exists_detection ⟨"acme", "shop"⟩ external
  have detects : busy.Detects (.text "acme/shop") () ⟨"acme", "shop"⟩ := ⟨rfl, [], rfl⟩
  refine ⟨.detected detects d, ?_⟩
  have started := (all (.detected detects d)).1.started
  have scanned : ∃ c ∈ (busy.detect ⟨"acme", "shop"⟩).events.filterMap
      (Event.spawned? busy.programs), c.words.head? = some ("gitleaks" : Text) := by
    decide +kernel
  rw [Run.detection, hd] at started
  obtain ⟨c, hc, hwords⟩ := scanned
  obtain ⟨q, hq, rfl⟩ := List.mem_map.mp (started.mem_iff.mpr hc)
  exact ⟨q, hq, hwords⟩

end Scanner

end RepoScan
