import RepoScan.Proofs.Scan.Observed

/-!
# The stages of a scan in time

A scan tells of each stage that it enters.  Between two of these notices it asks the source only
while it walks, and starts processes only while it detects.  `Passes` says so of a list of events,
one event at a time.

* `Passes.transitions_eq` : from its start to its end a scan goes through all stages, or through
  some of them and fails;
* `Passes.fits` : what happens fits in the stage that was entered last;
* `Scanner.moves_stagesWith` : the stages of a scan pass, whatever the source, the detectors and the
  ignore rules do;
* `Scanner.scan_inOrder` : **every run of a scan is in order**.
-/

namespace RepoScan

/-! ### Paths through the stages -/

namespace Stage

/-- The stages of a scan that reaches its end. -/
def course : List Stage := [pending, traversing, detecting, postProcessing, completed]

/-- A scan goes through all stages, or through some of them, at least the first one, and then it
fails. -/
inductive IsPath : List Stage → Prop
  | whole : IsPath course
  | broken (n : Nat) (hpos : 0 < n) (hn : n < course.length) : IsPath (course.take n ++ [failed])

/-- The steps of a path. -/
def steps (path : List Stage) : List (Stage × Stage) := path.zip path.tail

/-- Nothing comes after the stage. -/
def isFinal : Stage → Bool
  | completed | failed => true
  | _ => false

/-- The steps from a stage. -/
inductive Next : Stage → Stage → Prop
  | walk : Next pending traversing
  | detect : Next traversing detecting
  | process : Next detecting postProcessing
  | complete : Next postProcessing completed
  | fail {a : Stage} (h : a.isFinal = false) : Next a failed

/-- The stages from one of them on. -/
def ahead (a : Stage) : List Stage := course.dropWhile (· != a)

theorem exists_ahead {a : Stage} (h : a ≠ failed) : ∃ l, a.ahead = a :: l := by
  cases a with
  | failed => exact absurd rfl h
  | _ => exact ⟨_, rfl⟩

theorem exists_ahead_of_open {a : Stage} (h : a.isFinal = false) :
    ∃ b l, a.ahead = a :: b :: l := by
  cases a with
  | completed => cases h
  | failed => cases h
  | _ => exact ⟨_, _, rfl⟩

theorem Next.ahead_eq {a b : Stage} (h : a.Next b) (hb : b ≠ failed) : a.ahead = a :: b.ahead := by
  cases h with
  | fail => exact absurd rfl hb
  | _ => rfl

end Stage

/-! ### Events in stages -/

namespace Event

/-- The stages that are left and entered. -/
def transition? : Event → Option (Stage × Stage)
  | .notice (.entered _ a b) => some (a, b)
  | _ => none

/-- The event may happen in a stage, and no stage is entered. -/
def FitsIn (a : Stage) : Event → Prop
  | .notice (.entered ..) => False
  | .request _ => a = .traversing
  | .start _ => a = .detecting
  | _ => True

end Event

theorem Event.fitsIn_of_isProcess {e : Event} (h : e.isProcess = true) : e.FitsIn .detecting := by
  cases e with
  | start => rfl
  | kill => trivial
  | _ => cases h

theorem Event.fitsIn_of_isFromDetector {n : Notice} {a : Stage} (h : n.isFromDetector = true) :
    (Event.notice n).FitsIn a := by
  cases n with
  | entered => cases h
  | _ => trivial

/-- The stages that are left and entered in events. -/
def transitions (es : List Event) : List (Stage × Stage) := es.filterMap Event.transition?

/-- The stage after events that begin in a stage: the one that was entered last. -/
def Stage.after (a : Stage) : List Event → Stage
  | [] => a
  | e :: es => match e.transition? with
    | some (_, b) => Stage.after b es
    | none => Stage.after a es

/-- The events lead from a stage to another, step by step, and what happens fits in the stages. -/
inductive Passes : Stage → List Event → Stage → Prop
  | stay (a : Stage) : Passes a [] a
  | enter {a b c : Stage} {es : List Event} (identifier : Value) (h : a.Next b)
      (hes : Passes b es c) : Passes a (.notice (.entered identifier a b) :: es) c
  | pass {a c : Stage} {e : Event} {es : List Event} (h : e.FitsIn a) (hes : Passes a es c) :
      Passes a (e :: es) c

variable {a b c : Stage} {e : Event} {es es' : List Event}

theorem Event.FitsIn.transition?_eq (h : e.FitsIn a) : e.transition? = none := by
  cases e with
  | notice n =>
    cases n with
    | entered => exact h.elim
    | _ => rfl
  | _ => rfl

namespace Passes

theorem append (h : Passes a es b) (h' : Passes b es' c) : Passes a (es ++ es') c := by
  induction h with
  | stay => exact h'
  | enter identifier hnext _ ih => exact .enter identifier hnext (ih h')
  | pass hfits _ ih => exact .pass hfits (ih h')

theorem of_forall (h : ∀ e ∈ es, e.FitsIn a) : Passes a es a := by
  induction es with
  | nil => exact .stay a
  | cons e es ih =>
    obtain ⟨he, hes⟩ := List.forall_mem_cons.mp h
    exact .pass he (ih hes)

/-- What happens fits in the stage that was entered last. -/
theorem fits {front back : List Event} (h : Passes a (front ++ e :: back) c)
    (he : e.transition? = none) : e.FitsIn (Stage.after a front) := by
  induction front generalizing a with
  | nil =>
    cases h with
    | enter => cases he
    | pass hfits _ => exact hfits
  | cons d front ih =>
    cases h with
    | enter _ _ hes => exact ih hes
    | pass hfits hes =>
      rw [Stage.after, hfits.transition?_eq]
      exact ih hes

theorem transitions_pass (h : e.FitsIn a) : transitions (e :: es) = transitions es := by
  rw [transitions, List.filterMap_cons, h.transition?_eq, transitions]

theorem of_isFinal (h : Passes a es c) (ha : a.isFinal = true) : transitions es = [] ∧ c = a := by
  induction h with
  | stay => exact ⟨rfl, rfl⟩
  | enter _ hnext _ _ =>
    cases hnext with
    | fail hopen =>
      rw [ha] at hopen
      cases hopen
    | _ => cases ha
  | pass hfits _ ih =>
    rw [transitions_pass hfits]
    exact ih ha

/-- **From an open stage to the end** a scan goes through all stages ahead, or through some of them
and fails. -/
theorem transitions_eq (h : Passes a es c) (ha : a.isFinal = false) (hc : c.isFinal = true) :
    (c = .completed ∧ transitions es = Stage.steps a.ahead) ∨
      (c = .failed ∧ ∃ n, 0 < n ∧ n < a.ahead.length ∧
        transitions es = Stage.steps (a.ahead.take n ++ [.failed])) := by
  induction h with
  | stay =>
    rw [ha] at hc
    cases hc
  | pass hfits _ ih =>
    rw [transitions_pass hfits]
    exact ih ha hc
  | @enter a b c es identifier hnext hes ih =>
    have entered : transitions (.notice (.entered identifier a b) :: es) =
        (a, b) :: transitions es := rfl
    rw [entered]
    by_cases hfailed : b = .failed
    · subst hfailed
      obtain ⟨hnone, rfl⟩ := hes.of_isFinal rfl
      obtain ⟨l, m, hahead⟩ := Stage.exists_ahead_of_open ha
      refine .inr ⟨rfl, 1, Nat.one_pos, ?_, ?_⟩
      · simp only [hahead, List.length_cons]
        omega
      · rw [hnone, hahead]
        rfl
    · obtain ⟨l, hahead⟩ := Stage.exists_ahead hfailed
      have stepped : a.ahead = a :: b :: l := by rw [hnext.ahead_eq hfailed, hahead]
      cases hb : b.isFinal with
      | true =>
        obtain ⟨hnone, rfl⟩ := hes.of_isFinal hb
        obtain rfl : c = .completed := by
          cases c with
          | completed => rfl
          | failed => exact absurd rfl hfailed
          | _ => cases hb
        refine .inl ⟨rfl, ?_⟩
        rw [hnone, hnext.ahead_eq hfailed]
        rfl
      | false =>
        rcases ih hb hc with ⟨rfl, hall⟩ | ⟨rfl, n, hpos, hn, hsome⟩
        · refine .inl ⟨rfl, ?_⟩
          rw [hall, stepped, hahead]
          rfl
        · -- the stages in front of the failure are one more
          obtain ⟨m, rfl⟩ := Nat.exists_eq_add_of_lt hpos
          refine .inr ⟨rfl, 0 + m + 1 + 1, by omega, ?_, ?_⟩
          · rw [hahead] at hn
            rw [stepped, List.length_cons]
            omega
          · rw [hsome, stepped, hahead]
            rfl

end Passes

/-! ### Work in stages -/

namespace Session

variable {σ α β : Type} {Q : Except Failure α → Stage → Prop} {R : Except Failure β → Stage → Prop}

/-- From a stage the work leads with its result to a stage, as `Q` says. -/
def Moves (a : Stage) (x : Session σ α) (Q : Except Failure α → Stage → Prop) : Prop :=
  ∀ w, ∃ b, Passes a (x.run w).1.events b ∧ Q (x.run w).1.result b

theorem moves_pure {v : α} (h : Q (.ok v) a) : (pure v : Session σ α).Moves a Q :=
  fun _ => ⟨a, .stay a, h⟩

theorem Moves.bind {x : Session σ α} {f : α → Session σ β} (hx : x.Moves a Q)
    (hok : ∀ v b, Q (.ok v) b → (f v).Moves b R) (herror : ∀ e b, Q (.error e) b → R (.error e) b) :
    (x >>= f).Moves a R := by
  intro w
  obtain ⟨b, hpass, hq⟩ := hx w
  cases hv : (x.run w).1.result with
  | error e =>
    rw [hv] at hq
    rw [run_bind_of_error f hv]
    exact ⟨b, hpass, herror e b hq⟩
  | ok v =>
    rw [hv] at hq
    obtain ⟨c, hpass', hr⟩ := hok v b hq (x.run w).2
    rw [run_bind_of_ok f hv]
    exact ⟨c, hpass.append hpass', hr⟩

/-- The work has a result and ends in a stage. -/
def StaysOk (c : Stage) (r : Except Failure α) (b : Stage) : Prop := (∃ v, r = .ok v) ∧ b = c

theorem Moves.bind_of_staysOk {x : Session σ α} {f : α → Session σ β} (hx : x.Moves a (StaysOk b))
    (hf : ∀ v, (f v).Moves b R) : (x >>= f).Moves a R := by
  refine hx.bind ?_ ?_
  · rintro v c ⟨-, rfl⟩
    exact hf v
  · rintro e c ⟨⟨v, hv⟩, -⟩
    cases hv

theorem moves_enter {f : Unit → Session σ β} (identifier : Value) (hab : a.Next b)
    (hf : (f ()).Moves b R) : (Scanner.enter identifier a b >>= f).Moves a R := by
  have entered : (Scanner.enter identifier a b : Session σ Unit).Moves a (StaysOk b) :=
    fun _ => ⟨b, .enter identifier hab (.stay b), ⟨(), rfl⟩, rfl⟩
  exact entered.bind_of_staysOk fun _ => hf

theorem moves_emit {f : Unit → Session σ β} (he : e.FitsIn a) (hf : (f ()).Moves a R) :
    (lift (Outcome.emit e) >>= f).Moves a R := by
  have stayed : (lift (Outcome.emit e) : Session σ Unit).Moves a (StaysOk a) :=
    fun _ => ⟨a, .pass he (.stay a), ⟨(), rfl⟩, rfl⟩
  exact stayed.bind_of_staysOk fun _ => hf

theorem moves_attempt {x : Session σ α} {f : Except Failure α → Session σ β}
    (hx : x.AllEvents (Event.FitsIn a)) (hf : ∀ v, (f v).Moves a R) :
    (x.attempt >>= f).Moves a R := by
  have stayed : x.attempt.Moves a (StaysOk a) :=
    fun w => ⟨a, .of_forall (hx w), ⟨_, result_attempt x w⟩, rfl⟩
  exact stayed.bind_of_staysOk hf

end Session

namespace Scanner

variable {σ : Type} (s : Scanner σ)

/-! ### Scans with any detection -/

/-- The stages in which a scan may end, with what comes of them. -/
def Ends : Except Failure (Except (Stage × Failure) (List Finding)) → Stage → Prop
  | .ok (.ok _), a => a = .completed
  | .ok (.error (stage, _)), a => a = stage ∧ stage.isFinal = false
  | .error _, _ => False

/-- **The stages of a scan** are passed in order. -/
theorem moves_stagesWith {detection : Repository → Outcome (List Finding)} (identifier : Value)
    (hwalk : ∀ r, (scanTree s.nesting s.source r []).AllEvents (Event.FitsIn .traversing))
    (hdetect : ∀ r, (detection r).AllEvents (Event.FitsIn .detecting)) :
    (s.stagesWith detection identifier).Moves .pending Ends := by
  unfold stagesWith
  cases Repository.ofValue identifier with
  | error e => exact Session.moves_pure ⟨rfl, rfl⟩
  | ok r =>
    refine Session.moves_enter identifier .walk ?_
    refine Session.moves_attempt (hwalk r) fun inFiles => ?_
    cases inFiles with
    | error e => exact Session.moves_pure ⟨rfl, rfl⟩
    | ok fs =>
      refine Session.moves_enter identifier .detect ?_
      refine Session.moves_attempt (Session.allEvents_lift (hdetect r)) fun detected => ?_
      cases detected with
      | error e => exact Session.moves_pure ⟨rfl, rfl⟩
      | ok ds =>
        refine Session.moves_enter identifier .process ?_
        cases triage s.rules s.today (fs ++ ds) with
        | error e => exact Session.moves_pure ⟨rfl, rfl⟩
        | ok out =>
          refine Session.moves_enter identifier .complete ?_
          exact Session.moves_pure rfl

/-- A scan has ended in a stage: that of its result, and where it has none it has failed. -/
def Closes (res : Except Failure ScanResult) (a : Stage) : Prop :=
  (a = .completed ∧ ∃ v, res = .ok v ∧ v.status = .completed) ∨
    (a = .failed ∧ ∀ v, res = .ok v → v.status = .failed)

/-- **A scan** goes to its end, which is that of its result. -/
theorem moves_scanWith {detection : Repository → Outcome (List Finding)} (stamp : Stamp)
    (identifier : Value)
    (hwalk : ∀ r, (scanTree s.nesting s.source r []).AllEvents (Event.FitsIn .traversing))
    (hdetect : ∀ r, (detection r).AllEvents (Event.FitsIn .detecting)) :
    (s.scanWith detection stamp identifier).Moves .pending Closes := by
  refine (s.moves_stagesWith identifier hwalk hdetect).bind (fun v a hv => ?_) fun _ _ => False.elim
  cases v with
  | ok fs => exact Session.moves_pure (.inl ⟨hv, _, rfl, rfl⟩)
  | error fault =>
    obtain ⟨stage, e⟩ := fault
    obtain ⟨rfl, hopen⟩ := hv
    refine Session.moves_emit trivial ?_
    refine Session.moves_enter identifier (.fail hopen) ?_
    cases e.report with
    | error asking => exact fun _ => ⟨.failed, .stay _, .inr ⟨rfl, nofun⟩⟩
    | ok reason =>
      refine fun _ => ⟨.failed, .stay _, .inr ⟨rfl, ?_⟩⟩
      rintro _ ⟨⟩
      rfl

/-! ### Runs -/

/-- What a run of a scan does: it goes through stages that are a path, to the end that its result
tells of, if it has one; it asks the source only while it walks and starts processes only while it
detects; and it does neither for an identifier that names no repository. -/
structure InOrder (identifier : Value) (x : Outcome ScanResult) : Prop where
  path : ∃ path, Stage.IsPath path ∧ transitions x.events = Stage.steps path ∧
    (path.getLast? = some .completed ↔ ∃ res, x.result = .ok res ∧ res.status = .completed)
  requests : ∀ front q back, x.events = front ++ .request q :: back →
    Stage.after .pending front = .traversing
  starts : ∀ front c back, x.events = front ++ .start c :: back →
    Stage.after .pending front = .detecting
  rejected : (∃ e, Repository.ofValue identifier = .error e) →
    ∀ e ∈ x.events, (∀ q, e ≠ .request q) ∧ ∀ c, e ≠ .start c

theorem fits_checkout {temporary : Except Failure Path} {r : Repository} {token : Option Text}
    {e : Event} (h : Clone.Does temporary r token e) : e.FitsIn .detecting := by
  cases h with
  | command _ depth he =>
    rcases he with rfl | rfl
    · rfl
    · trivial
  | cloning => trivial
  | timedOut => trivial
  | failed => trivial

/-- What is told of a scan whose identifier names no repository. -/
theorem events_of_rejected {detection : Repository → Outcome (List Finding)} {stamp : Stamp}
    {identifier : Value} {w : σ} {e : Failure} (h : Repository.ofValue identifier = .error e) :
    ((s.scanWith detection stamp identifier).run w).1.events =
      [.notice (.scanFailed identifier .pending e),
        .notice (.entered identifier .pending .failed)] := by
  obtain ⟨reason, hreason⟩ := Repository.fails_ofValue identifier e h
  have stages : (s.stagesWith detection identifier).run w = (pure (.error (.pending, e)), w) := by
    unfold stagesWith
    rw [h]
    rfl
  unfold scanWith
  rw [Session.run_bind_of_ok (a := .error (.pending, e)) _ (by rw [stages]; rfl), stages]
  dsimp only
  rw [hreason]
  rfl

theorem inOrder_of_passes {identifier : Value} {x : Outcome ScanResult} {a : Stage}
    (h : Passes .pending x.events a) (hend : Closes x.result a)
    (hrejected : (∃ e, Repository.ofValue identifier = .error e) →
      ∀ e ∈ x.events, (∀ q, e ≠ .request q) ∧ ∀ c, e ≠ .start c) : InOrder identifier x := by
  refine ⟨?_, fun front q back hx => ?_, fun front c back hx => ?_, hrejected⟩
  · rcases hend with ⟨rfl, hcompleted⟩ | ⟨rfl, hfailed⟩
    · rcases h.transitions_eq rfl rfl with ⟨-, hall⟩ | ⟨hf, -⟩
      · exact ⟨Stage.course, .whole, hall, iff_of_true rfl hcompleted⟩
      · cases hf
    · rcases h.transitions_eq rfl rfl with ⟨hc, -⟩ | ⟨-, n, hpos, hn, hsome⟩
      · cases hc
      · refine ⟨_, .broken n hpos hn, hsome, ?_⟩
        rw [List.getLast?_concat]
        refine iff_of_false nofun ?_
        rintro ⟨res, hres, hcompleted⟩
        cases (hfailed res hres).symm.trans hcompleted
  · rw [hx] at h
    exact h.fits rfl
  · rw [hx] at h
    exact h.fits rfl

/-- A scan is in order, if its source only asks and its detection only runs. -/
theorem inOrder_scanWith {detection : Repository → Outcome (List Finding)} (stamp : Stamp)
    (identifier : Value) (w : σ)
    (hlist : ∀ r path, (s.source.list r path).AllEvents (Event.FitsIn .traversing))
    (hfetch : ∀ r path, (s.source.fetch r path).AllEvents (Event.FitsIn .traversing))
    (hdetect : ∀ r, (detection r).AllEvents (Event.FitsIn .detecting)) :
    InOrder identifier ((s.scanWith detection stamp identifier).run w).1 := by
  have walk (r : Repository) :
      (scanTree s.nesting s.source r []).AllEvents (Event.FitsIn .traversing) :=
    allEvents_scanTree (hlist r) (hfetch r) (fun _ => trivial) (fun _ => trivial) []
  obtain ⟨a, hpass, hend⟩ := s.moves_scanWith stamp identifier walk hdetect w
  refine inOrder_of_passes hpass hend ?_
  rintro ⟨e, he⟩ event hmem
  rw [events_of_rejected s he] at hmem
  rcases List.mem_cons.mp hmem with rfl | hmem
  · exact ⟨nofun, nofun⟩
  · rw [List.mem_singleton.mp hmem]
    exact ⟨nofun, nofun⟩

theorem inOrder_of_only (stamp : Stamp) (identifier : Value) (w : σ)
    (hlist : ∀ r path, (s.source.list r path).AllEvents (Event.FitsIn .traversing))
    (hfetch : ∀ r path, (s.source.fetch r path).AllEvents (Event.FitsIn .traversing))
    (hd : ∀ d ∈ s.detectors, ∀ t,
      (d.detect t).Only s.programs (Event.FitsIn .detecting) fun _ => True) :
    InOrder identifier ((s.scan stamp identifier).run w).1 ∧
      ∀ x : s.Run identifier w, InOrder identifier (x.outcome stamp) := by
  have told (n : Notice) (hn : n.isFromDetector = true) : (Event.notice n).FitsIn .detecting :=
    Event.fitsIn_of_isFromDetector hn
  refine ⟨s.inOrder_scanWith stamp identifier w hlist hfetch fun r => ?_,
    fun x => s.inOrder_scanWith stamp identifier w hlist hfetch fun _ => ?_⟩
  · exact allEvents_detect (fun _ => fits_checkout) told hd
  · cases x with
    | early => exact Outcome.allEvents_pure []
    | detected _ d => exact d.allEvents (fun _ => fits_checkout) told hd

/-- **Every run of a scan is in order**, whatever the source, the detectors, the processes and the
ignore rules do.  The scan is watched from outside, which changes nothing. -/
theorem scan_inOrder (stamp : Stamp) (identifier : Value) (w : σ) :
    (s.observed.scan stamp identifier).bare = (s.scan stamp identifier).bare ∧
      InOrder identifier ((s.observed.scan stamp identifier).run w).1 ∧
      ∀ x : s.observed.Run identifier w, InOrder identifier (x.outcome stamp) := by
  refine ⟨s.bare_scan_observed stamp identifier, ?_⟩
  have asked (path : Text) : Event.FitsIn .traversing (.request (.contents path)) := rfl
  refine s.observed.inOrder_of_only stamp identifier w ?_ ?_ ?_
  · exact fun r path => Session.allEvents_seenAs (asked path) (s.source.list r path)
  · exact fun r path => Session.allEvents_seenAs (asked path) (s.source.fetch r path)
  · intro d hd t
    obtain ⟨d', -, rfl⟩ := List.mem_map.mp hd
    exact ((d'.detect t).only_muted s.programs).mono (fun _ => Event.fitsIn_of_isProcess)
      fun _ _ => trivial

/-- A repository of another host is not even asked for. -/
theorem scan_inOrder_foreignHost :
    let identifier : Value := .text "https://gitlab.com/acme/shop"
    let stamp : Stamp := ⟨"scan", ⟨⟨2024, 1, 2⟩, 0, 0, 0, 0, some 0⟩⟩
    let x := ((busy.observed.scan stamp identifier).run ()).1
    InOrder identifier x ∧ (∃ res, x.result = .ok res ∧ res.status = .failed) ∧
      ∀ e ∈ x.events, (∀ q, e ≠ .request q) ∧ ∀ c, e ≠ .start c := by
  intro identifier stamp x
  obtain ⟨-, order, -⟩ := busy.scan_inOrder stamp identifier ()
  have foreign : Repository.ofValue identifier =
      .error (.foreignHost "https://gitlab.com/acme/shop") := by
    rfl
  refine ⟨order, ⟨_, rfl, rfl⟩, order.rejected ⟨_, foreign⟩⟩

end Scanner

end RepoScan
