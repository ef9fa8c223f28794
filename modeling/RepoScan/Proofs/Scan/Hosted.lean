import RepoScan.Proofs.Scan.Timeline
import RepoScan.Scan.Setup

/-!
# Scans of a hosting service

The source that asks a host and the detectors that a configuration asks for tell all that they do,
so a scan with them need not be watched from outside to be in order.

* `Hosted.allEvents_source` : the source sends requests and tells of refusals;
* `Detector.IsExternal.only_fits` : the detectors start and kill processes;
* `Outside.inOrder_scanner` : every run of a scan that was set up is in order.
-/

namespace RepoScan

/-! ### The source -/

/-- A request is sent or a refusal is told of. -/
def Event.IsCall : Event → Prop
  | .request _ | .notice (.refusal ..) => True
  | _ => False

theorem Event.IsCall.fitsIn {e : Event} (h : e.IsCall) : e.FitsIn .traversing := by
  cases e with
  | request => rfl
  | notice n =>
    cases n with
    | entered => exact h.elim
    | _ => trivial
  | _ => exact h.elim

namespace Hosted

theorem allEvents_failWith {α : Type} (subject : Text) (f : Failure) :
    (failWith subject f : Outcome α).AllEvents Event.IsCall := by
  unfold failWith
  split
  · split
    · exact Outcome.allEvents_fail _
    · exact Outcome.allEvents_fail _
    · exact Outcome.allEvents_fail _
    · exact (Outcome.allEvents_emit trivial).bind fun _ => Outcome.allEvents_fail _
  · exact Outcome.allEvents_fail _

theorem allEvents_concerning {σ α : Type} (subject : Text) {x : Session σ α}
    (h : x.AllEvents Event.IsCall) : (concerning subject x).AllEvents Event.IsCall := by
  refine h.attempt.bind fun r => ?_
  cases r with
  | ok a => exact Session.allEvents_pure a
  | error f => exact Session.allEvents_lift (allEvents_failWith subject f)

theorem allEvents_ask {α : Type} (q : Request) (reply : Except HostError α) :
    (ask q reply).AllEvents Event.IsCall := by
  have sent : (Outcome.emit (.request q)).AllEvents Event.IsCall := Outcome.allEvents_emit trivial
  refine sent.bind fun _ => ?_
  cases reply with
  | ok a => exact Outcome.allEvents_pure a
  | error e => exact Outcome.allEvents_fail _

variable {ρ : Type} (s : Service ρ)

theorem allEvents_repository (r : Repository) : (repository s r).AllEvents Event.IsCall := by
  have silent : (Session.state : Session (Handles ρ) _).AllEvents Event.IsCall := fun _ => nofun
  refine silent.bind fun known => ?_
  split
  · exact Session.allEvents_pure _
  · refine Session.AllEvents.bind ?_ fun remote => ?_
    · exact allEvents_concerning _ (Session.allEvents_lift (allEvents_ask _ _))
    · exact Session.AllEvents.bind (fun _ => nofun) fun _ => Session.allEvents_pure remote

theorem allEvents_body (remote : ρ) (f : RemoteFile) :
    (body s remote f).AllEvents Event.IsCall := by
  unfold body
  split
  · refine (allEvents_ask _ _).bind fun encoded => ?_
    split
    · exact Outcome.allEvents_pure _
    · exact Outcome.allEvents_fail _
  · exact Outcome.allEvents_pure _

theorem allEvents_list (r : Repository) (path : Text) :
    (list s r path).AllEvents Event.IsCall := by
  have asked := (allEvents_repository s r).bind fun remote =>
    Session.allEvents_lift (allEvents_ask (.contents path) (s.contents remote path))
  refine (allEvents_concerning _ asked).bind fun contents => ?_
  cases contents with
  | file => exact Session.allEvents_pure _
  | directory => exact Session.allEvents_pure _

theorem allEvents_fetch (r : Repository) (path : Text) :
    (fetch s r path).AllEvents Event.IsCall := by
  refine Session.AllEvents.bind (allEvents_concerning _ ?_) fun bytes => Session.allEvents_pure _
  refine (allEvents_repository s r).bind fun remote => ?_
  refine (Session.allEvents_lift (allEvents_ask _ _)).bind fun contents => ?_
  cases contents with
  | directory => exact Session.allEvents_lift (Outcome.allEvents_fail _)
  | file f => exact Session.allEvents_lift (allEvents_body s remote f)

/-- What happens in the source. -/
theorem allEvents_source (h : Host) (r : Repository) (path : Text) :
    ((source h).list r path).AllEvents Event.IsCall ∧
      ((source h).fetch r path).AllEvents Event.IsCall :=
  ⟨allEvents_list h.service r path, allEvents_fetch h.service r path⟩

end Hosted

/-! ### The detectors -/

/-- What happens in a detector that runs other programs fits in detection. -/
theorem Detector.IsExternal.only_fits {d : Detector} (hd : d.IsExternal) (ps : Programs)
    (t : Target) : (d.detect t).Only ps (Event.FitsIn .detecting) fun _ => True :=
  ((hd.careful t).only ps).mono (fun _ => Event.fitsIn_of_isProcess) fun _ _ => trivial

/-! ### Scans that were set up -/

namespace Outside

variable {o : Outside} {h : Host} {c : Config} {token : Option Text}

theorem parts_of_scanner {s : Scanner Hosted.Known}
    (hs : o.scanner (Hosted.source h) c none token = .ok s) :
    s.source = Hosted.source h ∧ s.detectors = Detector.ofConfig c := by
  unfold scanner at hs
  dsimp only at hs
  split at hs
  · cases hs
    exact ⟨rfl, rfl⟩
  · obtain ⟨rules, -, hs⟩ := exists_of_bind_eq_ok hs
    cases hs
    exact ⟨rfl, rfl⟩

/-- **A scan that was set up is in order in every run**, whatever the host and the processes do. -/
theorem inOrder_scanner {s : Scanner Hosted.Known}
    (hs : o.scanner (Hosted.source h) c none token = .ok s) (stamp : Stamp) (identifier : Value)
    (known : Hosted.Known) :
    Scanner.InOrder identifier ((s.scan stamp identifier).run known).1 ∧
      ∀ x : s.Run identifier known, Scanner.InOrder identifier (x.outcome stamp) := by
  obtain ⟨source, detectors⟩ := parts_of_scanner hs
  refine s.inOrder_of_only stamp identifier known ?_ ?_ ?_
  · intro r path w e he
    rw [source] at he
    exact ((Hosted.allEvents_source h r path).1 w e he).fitsIn
  · intro r path w e he
    rw [source] at he
    exact ((Hosted.allEvents_source h r path).2 w e he).fitsIn
  · rw [detectors]
    exact fun d hd t => (Detector.isExternal_of_mem_ofConfig hd).only_fits s.programs t

end Outside

end RepoScan
