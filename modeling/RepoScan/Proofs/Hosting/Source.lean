import RepoScan.Hosting.Source
import RepoScan.Proofs.Outcome

/-!
# Requests and their failures

The source asks a service for a repository and then for a path, and all of this concerns the path.
A refusal is met by the innermost work around the request, and once its failure names a subject, the
work around that leaves it alone.  So the requests can be taken one by one, each with the subject
that its own failures name.

* `Hosted.failWith_eq` : what becomes of a failure, and what is told of it;
* `Hosted.concerning_bind`, `Hosted.concerning_concerning` : work that concerns a subject is made of
  parts that do, and what concerns a subject already is left as it is;
* `Hosted.concerning_ask` : a single request, with the failure that its subject gives it;
* `Hosted.list_eq`, `Hosted.fetch_eq` : **the source by single requests**;
* `Hosted.run_repository_of_known`, `Hosted.run_repository_of_new` : the handle of a repository.
-/

namespace RepoScan

/-! ### Failures that name a subject -/

namespace Failure

/-- What the failure becomes in work that concerns a subject. -/
def about (subject : Text) : Failure → Failure
  | .refused .rateLimit .. => .rateLimited subject
  | .refused .badCredentials .. => .badCredentials subject
  | .refused .unknownObject .. => .notFound subject
  | .refused .other status detail _ => .host status subject detail
  | f => f

/-- What is told of the failure in work that concerns a subject. -/
def remarks (subject : Text) : Failure → List Notice
  | .refused .other status detail text => [.refusal subject (.refused .other status detail text)]
  | _ => []

/-- The failure is a refusal, and names no subject yet. -/
def isRefusal : Failure → Bool
  | .refused .. => true
  | _ => false

theorem isRefusal_about (subject : Text) (f : Failure) : (f.about subject).isRefusal = false := by
  cases f with
  | refused kind status detail text => cases kind <;> rfl
  | _ => rfl

variable {f : Failure}

theorem about_of_not_refusal (h : f.isRefusal = false) (subject : Text) : f.about subject = f := by
  cases f with
  | refused => cases h
  | _ => rfl

theorem remarks_of_not_refusal (h : f.isRefusal = false) (subject : Text) :
    f.remarks subject = [] := by
  cases f with
  | refused => cases h
  | _ => rfl

end Failure

/-- The name of the failure that a refusal for the reason comes to. -/
def RefusalKind.failureName : RefusalKind → Text
  | rateLimit => "RateLimitedError"
  | badCredentials => "AuthenticationError"
  | unknownObject => "NotFoundError"
  | other => "ContentSourceError"

namespace HostError

/-- The failure of a request for a subject that an error of the host is answered to.  Only where the
reason of a refusal has no failure of its own, the host is reported with all that it said. -/
def failureOf (subject : Text) : HostError → Failure
  | connection text => .connection text
  | refused r =>
    match r.kind with
    | .rateLimit => .rateLimited subject
    | .badCredentials => .badCredentials subject
    | .unknownObject => .notFound subject
    | .other => .host r.status subject r.detail

/-- What is told of the error: refusals for other reasons. -/
def remarks (subject : Text) : HostError → List Notice
  | connection _ => []
  | refused r => if r.kind = .other then [.refusal subject r.toFailure] else []

theorem name_failureOf (subject : Text) (r : Refusal) :
    ((refused r).failureOf subject).name = r.kind.failureName := by
  obtain ⟨kind, status, data⟩ := r
  cases kind <;> rfl

theorem about_toFailure (subject : Text) (e : HostError) :
    e.toFailure.about subject = e.failureOf subject := by
  cases e with
  | connection text => rfl
  | refused r =>
    obtain ⟨kind, status, data⟩ := r
    cases kind <;> rfl

theorem remarks_toFailure (subject : Text) (e : HostError) :
    e.toFailure.remarks subject = e.remarks subject := by
  cases e with
  | connection text => rfl
  | refused r =>
    obtain ⟨kind, status, data⟩ := r
    cases kind <;> rfl

end HostError

namespace Hosted

open Session (lift)

variable {α β σ : Type} {subject : Text}

theorem failWith_eq (subject : Text) (f : Failure) :
    (failWith subject f : Outcome α) =
      ⟨(f.remarks subject).map Event.notice, .error (f.about subject)⟩ := by
  cases f with
  | refused kind status detail text => cases kind <;> rfl
  | _ => rfl

/-! ### Work that concerns a subject -/

theorem run_concerning_of_ok (subject : Text) {x : Session σ α} {w : σ} {a : α}
    (h : (x.run w).1.result = .ok a) :
    (concerning subject x).run w = x.run w := by
  unfold concerning
  rw [Session.run_bind_of_ok _ (Session.result_attempt x w), h]
  rcases hx : x.run w with ⟨⟨events, r⟩, w'⟩
  rw [hx] at h
  obtain rfl : r = .ok a := h
  simp [hx, Session.run_attempt]

theorem run_concerning_of_error (subject : Text) {x : Session σ α} {w : σ} {f : Failure}
    (h : (x.run w).1.result = .error f) :
    (concerning subject x).run w =
      (⟨(x.run w).1.events ++ (f.remarks subject).map Event.notice, .error (f.about subject)⟩,
        (x.run w).2) := by
  unfold concerning
  rw [Session.run_bind_of_ok _ (Session.result_attempt x w), h]
  simp [Session.run_attempt, failWith_eq]

theorem concerning_of_ok {x : Session σ α} (h : ∀ w, ∃ a, (x.run w).1.result = .ok a) :
    concerning subject x = x := by
  funext w
  obtain ⟨a, ha⟩ := h w
  exact run_concerning_of_ok subject ha

/-- Of two pieces of work in a row each concerns the subject. -/
theorem concerning_bind (x : Session σ α) (f : α → Session σ β) :
    concerning subject (x >>= f) = concerning subject x >>= fun a => concerning subject (f a) := by
  funext w
  show (concerning subject (x >>= f)).run w =
    (concerning subject x >>= fun a => concerning subject (f a)).run w
  cases hx : (x.run w).1.result with
  | error e =>
    have first := run_concerning_of_error subject hx
    have failed : ((concerning subject x).run w).1.result = .error (e.about subject) := by
      rw [first]
    have whole := Session.run_bind_of_error f hx
    have result : ((x >>= f).run w).1.result = .error e := by rw [whole]
    rw [run_concerning_of_error subject result, Session.run_bind_of_error _ failed, first, whole]
  | ok a =>
    have first := run_concerning_of_ok subject hx
    have passed : ((concerning subject x).run w).1.result = .ok a := by rw [first, hx]
    have whole := Session.run_bind_of_ok f hx
    rw [Session.run_bind_of_ok _ passed, first]
    -- the second part decides
    cases hf : ((f a).run (x.run w).2).1.result with
    | error e =>
      have result : ((x >>= f).run w).1.result = .error e := by rw [whole, hf]
      rw [run_concerning_of_error subject result, run_concerning_of_error subject hf, whole,
        List.append_assoc]
    | ok b =>
      have result : ((x >>= f).run w).1.result = .ok b := by rw [whole, hf]
      rw [run_concerning_of_ok subject result, run_concerning_of_ok subject hf, whole]

/-- **A failure that names its subject is left as it is** by the work around. -/
theorem concerning_concerning (outer inner : Text) (x : Session σ α) :
    concerning outer (concerning inner x) = concerning inner x := by
  funext w
  show (concerning outer (concerning inner x)).run w = (concerning inner x).run w
  cases hx : (x.run w).1.result with
  | ok a =>
    have passed := run_concerning_of_ok inner hx
    exact run_concerning_of_ok outer (passed ▸ hx)
  | error f =>
    have failed := run_concerning_of_error inner hx
    have result : ((concerning inner x).run w).1.result = .error (f.about inner) := by rw [failed]
    have told := Failure.isRefusal_about inner f
    rw [run_concerning_of_error outer result, Failure.about_of_not_refusal told,
      Failure.remarks_of_not_refusal told, failed, List.map_nil, List.append_nil]

theorem concerning_fail {f : Failure} (h : f.isRefusal = false) :
    concerning subject (lift (Outcome.fail f) : Session σ α) = lift (Outcome.fail f) := by
  funext w
  have failed : ((lift (Outcome.fail f) : Session σ α).run w).1.result = .error f := rfl
  refine (run_concerning_of_error subject failed).trans ?_
  rw [Failure.about_of_not_refusal h, Failure.remarks_of_not_refusal h]
  rfl

/-! ### Single requests -/

/-- A request for a subject, with its answer or the failure that names the subject. -/
def answer (q : Request) (subject : Text) : Except HostError α → Outcome α
  | .ok a => ⟨[.request q], .ok a⟩
  | .error e => ⟨.request q :: (e.remarks subject).map Event.notice, .error (e.failureOf subject)⟩

theorem concerning_ask (q : Request) (reply : Except HostError α) :
    concerning subject (lift (ask q reply) : Session σ α) = lift (answer q subject reply) := by
  funext w
  cases reply with
  | ok a =>
    have asked : ((lift (ask q (.ok a)) : Session σ α).run w).1.result = .ok a := rfl
    exact run_concerning_of_ok subject asked
  | error e =>
    have asked : ((lift (ask q (.error e)) : Session σ α).run w).1.result = .error e.toFailure :=
      rfl
    refine (run_concerning_of_error subject asked).trans ?_
    rw [HostError.about_toFailure, HostError.remarks_toFailure]
    rfl

variable {ρ : Type} (s : Service ρ)

/-- What is at a path of a repository, given its handle. -/
def listFrom (remote : ρ) (r : Repository) (path : Text) : Outcome (List TreeEntry) := do
  match ← answer (.contents path) (directorySubject r path) (s.contents remote path) with
  | .file f => pure [f.entry]
  | .directory entries => pure entries

/-- The body of a file, given the handle of its repository. -/
def bodyFrom (remote : ρ) (subject : Text) (f : RemoteFile) : Outcome (Option Bytes) :=
  if (sent? f).isNone && f.size != 0 then do
    match Base64.decode? (← answer (.blob f.id) subject (s.blob remote f.id)) with
    | some bytes => pure (some bytes)
    | none => Outcome.fail .malformedBlob
  else pure (sent? f)

/-- The text of a file, given the handle of its repository. -/
def fetchFrom (remote : ρ) (r : Repository) (path : Text) : Outcome Text := do
  match ← answer (.contents path) (fileSubject r path) (s.contents remote path) with
  | .directory _ => Outcome.fail (.isDirectory path)
  | .file f => do
    let bytes ← bodyFrom s remote (fileSubject r path) f
    pure (Utf8.decode (bytes.getD []))

theorem bodyFrom_of_sent {remote : ρ} {f : RemoteFile} {bytes : Bytes} (h : sent? f = some bytes) :
    bodyFrom s remote subject f = pure (some bytes) := by
  rw [bodyFrom, h]
  rfl

theorem bodyFrom_of_empty {remote : ρ} {f : RemoteFile} (h : sent? f = none) (hf : f.size = 0) :
    bodyFrom s remote subject f = pure none := by
  rw [bodyFrom, h, hf]
  rfl

theorem bodyFrom_of_apart {remote : ρ} {f : RemoteFile} (h : sent? f = none) (hf : f.size ≠ 0) :
    bodyFrom s remote subject f =
      answer (.blob f.id) subject (s.blob remote f.id) >>= fun encoded =>
        (match Base64.decode? encoded with
        | some bytes => pure (some bytes)
        | none => Outcome.fail .malformedBlob) := by
  rw [bodyFrom, h, Option.isNone_none, Bool.true_and, if_pos (bne_iff_ne.mpr hf)]

theorem fetchFrom_of_file {remote : ρ} {r : Repository} {path : Text} {f : RemoteFile}
    (h : s.contents remote path = .ok (.file f)) :
    fetchFrom s remote r path =
      ⟨.request (.contents path) :: (bodyFrom s remote (fileSubject r path) f).events,
        (bodyFrom s remote (fileSubject r path) f).result.map
          fun bytes => Utf8.decode (bytes.getD [])⟩ := by
  unfold fetchFrom
  rw [h, Outcome.bind_of_ok (a := Contents.file f) _ rfl]
  dsimp only
  rw [Outcome.bind_pure_eq_map]
  rfl

theorem concerning_body (remote : ρ) (f : RemoteFile) :
    concerning subject (lift (body s remote f) : Session σ (Option Bytes)) =
      lift (bodyFrom s remote subject f) := by
  unfold body bodyFrom
  split
  · rw [Session.lift_bind, concerning_bind, concerning_ask, Session.lift_bind]
    refine congrArg (lift _ >>= ·) (funext fun encoded => ?_)
    cases Base64.decode? encoded with
    | some bytes => exact concerning_of_ok fun w => ⟨_, rfl⟩
    | none => exact concerning_fail rfl
  · exact concerning_of_ok fun w => ⟨_, rfl⟩

/-- A failed lookup names the repository, whatever it is part of. -/
theorem concerning_repository (r : Repository) :
    concerning subject (repository s r) = repository s r := by
  unfold repository
  rw [concerning_bind, concerning_of_ok fun w => ⟨w, rfl⟩]
  refine congrArg (Session.state >>= ·) (funext fun known => ?_)
  cases known.lookup r.fullName with
  | some remote => exact concerning_of_ok fun w => ⟨remote, rfl⟩
  | none =>
    dsimp only
    rw [concerning_bind, concerning_concerning]
    refine congrArg (concerning _ _ >>= ·) (funext fun remote => ?_)
    exact concerning_of_ok fun w => ⟨remote, rfl⟩

/-- **What is at a path, by single requests.** -/
theorem list_eq (r : Repository) (path : Text) :
    list s r path = repository s r >>= fun remote => lift (listFrom s remote r path) := by
  unfold list listFrom
  rw [concerning_bind, concerning_repository, Session.bind_bind]
  refine congrArg (repository s r >>= ·) (funext fun remote => ?_)
  rw [concerning_ask, Session.lift_bind]
  refine congrArg (lift _ >>= ·) (funext fun contents => ?_)
  cases contents <;> rfl

/-- **The text of a file, by single requests.** -/
theorem fetch_eq (r : Repository) (path : Text) :
    fetch s r path = repository s r >>= fun remote => lift (fetchFrom s remote r path) := by
  unfold fetch fetchFrom
  rw [concerning_bind, concerning_repository, Session.bind_bind]
  refine congrArg (repository s r >>= ·) (funext fun remote => ?_)
  rw [concerning_bind, concerning_ask, Session.bind_bind, Session.lift_bind]
  refine congrArg (lift _ >>= ·) (funext fun contents => ?_)
  cases contents with
  | directory entries =>
    rw [concerning_fail rfl]
    rfl
  | file f =>
    dsimp only
    rw [concerning_body, Session.lift_bind]
    rfl

/-! ### Handles -/

variable {known : Handles ρ} {r : Repository} {remote : ρ}

theorem run_repository_of_known (h : known.lookup r.fullName = some remote) :
    (repository s r).run known = (pure remote, known) := by
  unfold repository
  rw [Session.run_state_bind, h]
  rfl

/-- Only a handle that was looked up is kept. -/
theorem run_repository_of_new (h : known.lookup r.fullName = none) :
    (repository s r).run known =
      (answer (.lookup r.fullName) r.fullName (s.lookup r.fullName),
        match s.lookup r.fullName with
        | .ok remote => known ++ [(r.fullName, remote)]
        | .error _ => known) := by
  unfold repository
  rw [Session.run_state_bind, h]
  dsimp only
  rw [concerning_ask]
  cases s.lookup r.fullName <;> rfl

end Hosted

end RepoScan
