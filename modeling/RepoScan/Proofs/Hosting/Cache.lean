import Mathlib.Data.List.Induction
import RepoScan.Proofs.Hosting.Source

/-!
# Looking repositories up once

The source keeps the handle of a repository that it looked up.  Here it gets calls one after the
other, each at a time of its own, so that the service may answer differently every time: a lookup
may fail and succeed later, and so may the requests that are made through a handle.

* `Hosted.Call.perform_eq` : a call needs the handle of its repository, and then no lookup;
* `Hosted.Moment.lookup_later`, `Hosted.lookup_handlesAfter` : the handle that is known after a
  call, and after any number of calls, is that of the first lookup that succeeded;
* `Hosted.Moment.result_outcome_eq_afresh` : a call with a known handle, and with a new one;
* `Hosted.Moment.outcome_of_meets` : the failure of a call that meets an error of the service;
* `Hosted.cache_transparent` : **whether handles are kept cannot be told from the replies**.
-/

namespace RepoScan

/-- The name of the repository that an event looks up. -/
def Event.lookup? : Event → Option Text
  | .request (.lookup name) => some name
  | _ => none

/-- The names of the repositories that are looked up. -/
def Outcome.lookups {α : Type} (x : Outcome α) : List Text := x.events.filterMap Event.lookup?

/-- Both handles are answered alike. -/
def Service.Alike {ρ : Type} (s : Service ρ) (a b : ρ) : Prop :=
  s.contents a = s.contents b ∧ s.blob a = s.blob b

namespace Hosted

open Session (lift)

variable {ρ : Type}

/-! ### Calls -/

/-- What a source is asked for. -/
inductive Call where
  | list (r : Repository) (path : Text)
  | fetch (r : Repository) (path : Text)

/-- What a source replies. -/
inductive Reply where
  | entries (es : List TreeEntry)
  | text (t : Text)
deriving DecidableEq

namespace Call

/-- The repository that the call is about. -/
def repository : Call → Repository
  | list r _ => r
  | fetch r _ => r

/-- The path that the call is about. -/
def path : Call → Text
  | list _ path => path
  | fetch _ path => path

/-- What failures name, unless the lookup fails. -/
def subject : Call → Text
  | list r path => directorySubject r path
  | fetch r path => fileSubject r path

/-- The call at a service. -/
def perform (s : Service ρ) : Call → Session (Handles ρ) Reply
  | list r path => do pure (.entries (← Hosted.list s r path))
  | fetch r path => do pure (.text (← Hosted.fetch s r path))

/-- The call at a service, given the handle of the repository. -/
def performFrom (s : Service ρ) (remote : ρ) : Call → Outcome Reply
  | list r path => do pure (.entries (← listFrom s remote r path))
  | fetch r path => do pure (.text (← fetchFrom s remote r path))

theorem perform_eq (s : Service ρ) (c : Call) :
    c.perform s =
      Hosted.repository s c.repository >>= fun remote => lift (c.performFrom s remote) := by
  cases c with
  | list r path =>
    show Hosted.list s r path >>= _ = _
    rw [list_eq, Session.bind_bind]
    exact congrArg (Hosted.repository s r >>= ·) (funext fun remote => (Session.lift_bind _ _).symm)
  | fetch r path =>
    show Hosted.fetch s r path >>= _ = _
    rw [fetch_eq, Session.bind_bind]
    exact congrArg (Hosted.repository s r >>= ·) (funext fun remote => (Session.lift_bind _ _).symm)

theorem performFrom_congr {s : Service ρ} {a b : ρ} (h : s.Alike a b) (c : Call) :
    c.performFrom s a = c.performFrom s b := by
  obtain ⟨hcontents, hblob⟩ := h
  cases c with
  | list r path => simp only [performFrom, listFrom, hcontents]
  | fetch r path => simp only [performFrom, fetchFrom, bodyFrom, hcontents, hblob]

end Call

theorem allEvents_answer {α : Type} {q : Request} (hq : (Event.request q).lookup? = none)
    (subject : Text) (reply : Except HostError α) :
    (answer q subject reply).AllEvents (·.lookup? = none) := by
  cases reply with
  | ok a => exact List.forall_mem_singleton.mpr hq
  | error e =>
    refine List.forall_mem_cons.mpr ⟨hq, fun event h => ?_⟩
    obtain ⟨n, -, rfl⟩ := List.mem_map.mp h
    rfl

theorem Call.lookups_performFrom (s : Service ρ) (remote : ρ) (c : Call) :
    (c.performFrom s remote).lookups = [] := by
  refine List.filterMap_eq_nil_iff.mpr ?_
  have asked : (answer (.contents c.path) c.subject (s.contents remote c.path)).AllEvents
      (·.lookup? = none) := allEvents_answer rfl _ _
  cases c with
  | list r path =>
    refine (asked.bind fun contents => ?_).bind fun _ => Outcome.allEvents_pure _
    cases contents <;> exact Outcome.allEvents_pure _
  | fetch r path =>
    refine (asked.bind fun contents => ?_).bind fun _ => Outcome.allEvents_pure _
    cases contents with
    | directory => exact Outcome.allEvents_fail _
    | file f =>
      refine Outcome.AllEvents.bind ?_ fun _ => Outcome.allEvents_pure _
      unfold bodyFrom
      split
      · refine (allEvents_answer rfl _ _).bind fun encoded => ?_
        split
        · exact Outcome.allEvents_pure _
        · exact Outcome.allEvents_fail _
      · exact Outcome.allEvents_pure _

/-! ### Calls one after the other -/

/-- A call, and the service at its time. -/
structure Moment (ρ : Type) where
  service : Service ρ
  call : Call

namespace Moment

variable (m : Moment ρ)

/-- The name of the repository that the call is about. -/
def name : Text := m.call.repository.fullName

/-- The outcome of the call where some handles are known. -/
def outcome (known : Handles ρ) : Outcome Reply := ((m.call.perform m.service).run known).1

/-- The handles that are known after the call. -/
def later (known : Handles ρ) : Handles ρ := ((m.call.perform m.service).run known).2

/-- The outcome of the call where nothing is known, so that the repository is looked up. -/
def afresh : Outcome Reply := m.outcome []

/-- The handle that the service has for the repository with a name, if the call is about it. -/
def found? (name : Text) : Option ρ :=
  if m.name = name then (m.service.lookup name).toOption else none

variable {m} {known : Handles ρ}

theorem run_of_handle {events : List Event} {remote : ρ} {known' : Handles ρ}
    (h : (Hosted.repository m.service m.call.repository).run known =
      (⟨events, .ok remote⟩, known')) :
    m.outcome known = ⟨events ++ (m.call.performFrom m.service remote).events,
        (m.call.performFrom m.service remote).result⟩ ∧
      m.later known = known' := by
  have ok : ((Hosted.repository m.service m.call.repository).run known).1.result = .ok remote := by
    rw [h]
  have run := Session.run_bind_of_ok (fun remote => lift (m.call.performFrom m.service remote)) ok
  rw [outcome, later, Call.perform_eq, run, h]
  exact ⟨rfl, rfl⟩

theorem run_of_known {remote : ρ} (h : known.lookup m.name = some remote) :
    m.outcome known = m.call.performFrom m.service remote ∧ m.later known = known :=
  run_of_handle (run_repository_of_known m.service h)

theorem run_of_found {remote : ρ} (h : known.lookup m.name = none)
    (hs : m.service.lookup m.name = .ok remote) :
    m.outcome known = ⟨.request (.lookup m.name) :: (m.call.performFrom m.service remote).events,
        (m.call.performFrom m.service remote).result⟩ ∧
      m.later known = known ++ [(m.name, remote)] := by
  have handle := run_repository_of_new m.service h
  have found : m.service.lookup m.call.repository.fullName = .ok remote := hs
  rw [found] at handle
  exact run_of_handle handle

theorem run_of_refused {e : HostError} (h : known.lookup m.name = none)
    (hs : m.service.lookup m.name = .error e) :
    m.outcome known = answer (.lookup m.name) m.name (.error e) ∧ m.later known = known := by
  have handle := run_repository_of_new m.service h
  have failed : m.service.lookup m.call.repository.fullName = .error e := hs
  rw [failed] at handle
  have error : ((Hosted.repository m.service m.call.repository).run known).1.result =
      .error (e.failureOf m.name) := by
    rw [handle]
    rfl
  have run := Session.run_bind_of_error
    (fun remote => lift (m.call.performFrom m.service remote)) error
  rw [outcome, later, Call.perform_eq, run, handle]
  exact ⟨rfl, rfl⟩

/-- **The handle known after one more call**: one that was known stays, and one that the call finds
is new. -/
theorem lookup_later (m : Moment ρ) (known : Handles ρ) (name : Text) :
    (m.later known).lookup name = (known.lookup name).or (m.found? name) := by
  by_cases hname : m.name = name
  · subst hname
    have found : m.found? m.name = (m.service.lookup m.name).toOption := if_pos rfl
    rw [found]
    cases hk : known.lookup m.name with
    | some remote => rw [(run_of_known hk).2, hk, Option.some_or]
    | none =>
      cases hs : m.service.lookup m.name with
      | error e =>
        rw [(run_of_refused hk hs).2, hk]
        rfl
      | ok remote =>
        rw [(run_of_found hk hs).2, List.lookup_append, hk, List.lookup_cons_self]
        rfl
  · -- handles of other repositories are of no account
    have other : m.found? name = none := if_neg hname
    rw [other, Option.or_none]
    cases hk : known.lookup m.name with
    | some remote => rw [(run_of_known hk).2]
    | none =>
      cases hs : m.service.lookup m.name with
      | error e => rw [(run_of_refused hk hs).2]
      | ok remote =>
        rw [(run_of_found hk hs).2, List.lookup_append, List.lookup_cons,
          beq_eq_false_iff_ne.mpr (Ne.symm hname), List.lookup_nil, Option.or_none]

/-! ### What a call makes of the service -/

/-- A repository is looked up only where no handle of it is known. -/
theorem lookups_outcome (m : Moment ρ) (known : Handles ρ) :
    (m.outcome known).lookups = if (known.lookup m.name).isSome then [] else [m.name] := by
  cases hk : known.lookup m.name with
  | some remote =>
    rw [(run_of_known hk).1]
    exact Call.lookups_performFrom _ _ _
  | none =>
    cases hs : m.service.lookup m.name with
    | error e =>
      rw [(run_of_refused hk hs).1]
      have remarks : ((e.remarks m.name).map Event.notice).filterMap Event.lookup? = [] := by
        rw [List.filterMap_map]
        exact List.filterMap_eq_nil_iff.mpr fun _ _ => rfl
      exact congrArg (m.name :: ·) remarks
    | ok remote =>
      rw [(run_of_found hk hs).1]
      exact congrArg (m.name :: ·) (Call.lookups_performFrom _ _ _)

/-- Once a lookup succeeded at the earlier call, it succeeds at the later one, with a handle that is
answered alike. -/
def Steady (e m : Moment ρ) : Prop :=
  e.name = m.name → ∀ a, e.service.lookup m.name = .ok a →
    ∃ b, m.service.lookup m.name = .ok b ∧ m.service.Alike a b

/-- The result is that of a new lookup, if that gives a handle that is answered alike. -/
theorem result_outcome_eq_afresh
    (h : ∀ a, known.lookup m.name = some a →
      ∃ b, m.service.lookup m.name = .ok b ∧ m.service.Alike a b) :
    (m.outcome known).result = m.afresh.result := by
  have new : ([] : Handles ρ).lookup m.name = none := rfl
  cases hk : known.lookup m.name with
  | some a =>
    obtain ⟨b, hb, alike⟩ := h a hk
    rw [(run_of_known hk).1, afresh, (run_of_found new hb).1, Call.performFrom_congr alike]
  | none =>
    cases hs : m.service.lookup m.name with
    | error e => rw [(run_of_refused hk hs).1, afresh, (run_of_refused new hs).1]
    | ok remote => rw [(run_of_found hk hs).1, afresh, (run_of_found new hs).1]

/-- The call is made with a handle: one that is known, or else the one that the lookup gives. -/
def Has (m : Moment ρ) (known : Option ρ) (remote : ρ) : Prop :=
  known = some remote ∨ known = none ∧ m.service.lookup m.name = .ok remote

/-- The call meets an error of the service, in a request whose failures name the subject. -/
inductive Meets (m : Moment ρ) (known : Option ρ) : Text → HostError → Prop
  | lookup {e : HostError} (new : known = none) (failed : m.service.lookup m.name = .error e) :
      Meets m known m.name e
  | contents {remote : ρ} {e : HostError} (has : m.Has known remote)
      (failed : m.service.contents remote m.call.path = .error e) : Meets m known m.call.subject e
  | blob {remote : ρ} {r : Repository} {path : Text} {f : RemoteFile} {e : HostError}
      (has : m.Has known remote) (call : m.call = .fetch r path)
      (described : m.service.contents remote path = .ok (.file f)) (apart : sent? f = none)
      (filled : f.size ≠ 0) (failed : m.service.blob remote f.id = .error e) :
      Meets m known (fileSubject r path) e

theorem outcome_of_has {remote : ρ} (h : m.Has (known.lookup m.name) remote) :
    (m.outcome known).result = (m.call.performFrom m.service remote).result ∧
      (m.outcome known).notices = (m.call.performFrom m.service remote).notices := by
  rcases h with hk | ⟨hk, hs⟩
  · rw [(run_of_known hk).1]
    exact ⟨rfl, rfl⟩
  · rw [(run_of_found hk hs).1]
    exact ⟨rfl, rfl⟩

end Moment

theorem notices_answer {α : Type} (q : Request) (subject : Text) (e : HostError) :
    (answer q subject (.error e) : Outcome α).notices = e.remarks subject := by
  have told (ns : List Notice) : (Outcome.mk (ns.map Event.notice) (.ok ())).notices = ns := by
    rw [Outcome.notices, List.filterMap_map]
    exact List.filterMap_some
  exact told (e.remarks subject)

theorem Call.performFrom_of_contents {s : Service ρ} {remote : ρ} {c : Call} {e : HostError}
    (h : s.contents remote c.path = .error e) :
    c.performFrom s remote = answer (.contents c.path) c.subject (.error e) := by
  cases c with
  | list r path =>
    have failed : s.contents remote path = .error e := h
    simp only [performFrom, listFrom, failed]
    rfl
  | fetch r path =>
    have failed : s.contents remote path = .error e := h
    simp only [performFrom, fetchFrom, failed]
    rfl

theorem Call.performFrom_of_blob {s : Service ρ} {remote : ρ} {r : Repository} {path : Text}
    {f : RemoteFile} {e : HostError} (hf : s.contents remote path = .ok (.file f))
    (apart : sent? f = none) (filled : f.size ≠ 0) (h : s.blob remote f.id = .error e) :
    (Call.fetch r path).performFrom s remote =
      ⟨.request (.contents path) :: (answer (α := Reply) (.blob f.id) (fileSubject r path)
        (.error e)).events, .error (e.failureOf (fileSubject r path))⟩ := by
  rw [performFrom, fetchFrom_of_file s hf, bodyFrom_of_apart s apart filled, h]
  rfl

/-- **The failure of a call that meets an error of the service** is the one that its subject gives
the error, and it is told of once. -/
theorem Moment.outcome_of_meets {m : Moment ρ} {known : Handles ρ} {subject : Text} {e : HostError}
    (h : m.Meets (known.lookup m.name) subject e) :
    (m.outcome known).result = .error (e.failureOf subject) ∧
      (m.outcome known).notices = e.remarks subject := by
  cases h with
  | lookup new failed =>
    rw [(run_of_refused new failed).1]
    exact ⟨rfl, notices_answer _ _ _⟩
  | contents has failed =>
    obtain ⟨result, notices⟩ := outcome_of_has has
    rw [result, notices, Call.performFrom_of_contents failed]
    exact ⟨rfl, notices_answer _ _ _⟩
  | @blob _ r path f _ has call described apart filled failed =>
    obtain ⟨result, notices⟩ := outcome_of_has has
    rw [result, notices, call, Call.performFrom_of_blob described apart filled failed]
    exact ⟨rfl, notices_answer (α := Reply) (.blob f.id) (fileSubject r path) e⟩

/-! ### Calls on one source -/

/-- The handles that are known after calls. -/
def handlesAfter (known : Handles ρ) (ms : List (Moment ρ)) : Handles ρ :=
  ms.foldl (fun known m => m.later known) known

/-- The outcomes of calls on one source. -/
def outcomes (known : Handles ρ) : List (Moment ρ) → List (Outcome Reply)
  | [] => []
  | m :: ms => m.outcome known :: outcomes (m.later known) ms

/-- **The handle known after calls** is the first one that was found. -/
theorem lookup_handlesAfter (known : Handles ρ) (ms : List (Moment ρ)) (name : Text) :
    (handlesAfter known ms).lookup name =
      (known.lookup name).or (ms.findSome? fun m => m.found? name) := by
  induction ms generalizing known with
  | nil => exact (Option.or_none).symm
  | cons m ms ih =>
    have step : handlesAfter known (m :: ms) = handlesAfter (m.later known) ms := rfl
    rw [step, ih, m.lookup_later, List.findSome?_cons, Option.or_assoc]
    cases m.found? name <;> rfl

theorem outcomes_append (known : Handles ρ) (ms ms' : List (Moment ρ)) :
    outcomes known (ms ++ ms') = outcomes known ms ++ outcomes (handlesAfter known ms) ms' := by
  induction ms generalizing known with
  | nil => rfl
  | cons m ms ih => exact congrArg (m.outcome known :: ·) (ih (m.later known))

theorem length_outcomes (known : Handles ρ) (ms : List (Moment ρ)) :
    (outcomes known ms).length = ms.length := by
  induction ms generalizing known with
  | nil => rfl
  | cons m ms ih => exact congrArg (· + 1) (ih (m.later known))

theorem result_outcomes {ms : List (Moment ρ)} (h : ms.Pairwise Moment.Steady) :
    (outcomes [] ms).map Outcome.result = ms.map fun m => m.afresh.result := by
  -- from the last call on, which comes after all others
  induction ms using List.reverseRecOn with
  | nil => rfl
  | append_singleton ms m ih =>
    obtain ⟨front, -, last⟩ := List.pairwise_append.mp h
    have same : (m.outcome (handlesAfter [] ms)).result = m.afresh.result := by
      refine Moment.result_outcome_eq_afresh fun a ha => ?_
      rw [lookup_handlesAfter, List.lookup_nil, Option.none_or] at ha
      obtain ⟨e, he, found⟩ := List.exists_of_findSome?_eq_some ha
      unfold Moment.found? at found
      split at found
      · rename_i hname
        refine last e he m (List.mem_singleton_self m) hname a ?_
        cases hs : e.service.lookup m.name with
        | error => rw [hs] at found; cases found
        | ok b =>
          rw [hs] at found
          exact congrArg Except.ok (Option.some.inj found)
      · cases found
    rw [outcomes_append, List.map_append, List.map_append, ih front]
    exact congrArg (_ ++ [·]) same

/-- **Whether handles are kept cannot be told from the replies.**  If a lookup that succeeded once
goes on to succeed, with handles that are answered alike, then every call comes to what it would
come to if the repository were looked up anew.

A repository is looked up by every call about it until a lookup succeeds, and not again after that.
A refused call fails with the one failure that belongs to the reason of the refusal and names the
subject of the request, be it the lookup or a later one, and the refusal is told of once at most. -/
theorem cache_transparent (ms : List (Moment ρ)) :
    (ms.Pairwise Moment.Steady →
      (outcomes [] ms).map Outcome.result = ms.map fun m => m.afresh.result) ∧
    ∀ (earlier : List (Moment ρ)) (m : Moment ρ) (later : List (Moment ρ)),
      ms = earlier ++ m :: later →
      ∃ x, (outcomes [] ms)[earlier.length]? = some x ∧
        (x.lookups = if earlier.any fun e => (e.found? m.name).isSome then [] else [m.name]) ∧
        ∀ subject r, m.Meets (earlier.findSome? fun e => e.found? m.name) subject (.refused r) →
          x.result = .error ((HostError.refused r).failureOf subject) ∧
          ((HostError.refused r).failureOf subject).name = r.kind.failureName ∧
          x.notices = (HostError.refused r).remarks subject := by
  refine ⟨result_outcomes, fun earlier m later hms => ?_⟩
  have known : (handlesAfter [] earlier).lookup m.name =
      earlier.findSome? fun e => e.found? m.name := by
    rw [lookup_handlesAfter, List.lookup_nil, Option.none_or]
  refine ⟨m.outcome (handlesAfter [] earlier), ?_, ?_, fun subject r h => ?_⟩
  · rw [hms, outcomes_append, ← length_outcomes [] earlier,
      List.getElem?_append_right (Nat.le_refl _), Nat.sub_self]
    rfl
  · rw [Moment.lookups_outcome, known, List.isSome_findSome?]
  · obtain ⟨result, notices⟩ := Moment.outcome_of_meets (known.symm ▸ h)
    exact ⟨result, HostError.name_failureOf subject r, notices⟩

/-- A service that answers every lookup alike, and every request for a path. -/
def sampleService (handle : Except HostError Nat) (contents : Except HostError Contents) :
    Service Nat :=
  ⟨fun _ => handle, fun _ _ => contents, fun _ _ => .error (.connection "reset")⟩

/-- The calls of a scan while the service fails now and then. -/
def sampleMoments : List (Moment Nat) :=
  let shop : Repository := ⟨"acme", "shop"⟩
  let refuse (kind : RefusalKind) (status : Int) : HostError := .refused ⟨kind, status, .null⟩
  [⟨sampleService (.error (refuse .rateLimit 403)) (.ok (.directory [])), .list shop ""⟩,
    ⟨sampleService (.ok 1) (.error (refuse .other 502)), .list shop ""⟩,
    ⟨sampleService (.ok 2) (.ok (.directory [])), .list shop ""⟩,
    ⟨sampleService (.error (refuse .unknownObject 404)) (.ok (.directory [])),
      .fetch ⟨"acme", "tools"⟩ "app.py"⟩]

/-- The first call cannot look the repository up, the second one can but fails later on, and the
third one uses the handle of the second. -/
theorem cache_transparent_sample :
    sampleMoments.Pairwise Moment.Steady ∧
    (outcomes [] sampleMoments).map Outcome.result =
      sampleMoments.map (fun m => m.afresh.result) ∧
    (outcomes [] sampleMoments).map (fun x => x.result) =
      [.error (.rateLimited "acme/shop"), .error (.host 502 "acme/shop:/" "502"),
        .ok (.entries []), .error (.notFound "acme/tools")] ∧
    ∃ x, (outcomes [] sampleMoments)[1]? = some x ∧ x.lookups = [("acme/shop" : Text)] ∧
      x.result = .error (.host 502 "acme/shop:/" "502") := by
  have other {e m : Moment Nat} (h : e.name ≠ m.name) : e.Steady m := fun same => absurd same h
  have steady : sampleMoments.Pairwise Moment.Steady := by
    refine .cons (fun m _ _ a ha => nomatch ha) (.cons ?_ (.cons ?_ (.cons nofun .nil)))
    · refine List.forall_mem_cons.mpr ⟨fun _ a _ => ⟨2, rfl, rfl, rfl⟩, ?_⟩
      exact List.forall_mem_singleton.mpr (other (by decide))
    · exact List.forall_mem_singleton.mpr (other (by decide))
  obtain ⟨same, calls⟩ := cache_transparent sampleMoments
  obtain ⟨x, second, lookups, refused⟩ :=
    calls (sampleMoments.take 1) sampleMoments[1] (sampleMoments.drop 2) rfl
  have met : sampleMoments[1].Meets none "acme/shop:/" (.refused ⟨.other, 502, .null⟩) :=
    .contents (.inr ⟨rfl, rfl⟩) rfl
  obtain ⟨result, -, -⟩ := refused _ _ met
  exact ⟨steady, same steady, by decide, x, second, lookups, result⟩

end Hosted

end RepoScan
