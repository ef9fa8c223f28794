import RepoScan.Proofs.Outcome
import RepoScan.Tree

/-!
# The calls of a walk

A walk through a repository asks its source for directories and files.  `ContentSource.recorded` is
the source that also keeps a record of these calls, each with the failure that it ended in.  The
record changes nothing (`recorded_outcome`, `recorded_state`), and it accounts for every failure:

* `scanTree_account` : a scan that succeeds made no call that failed; a scan that fails did so in
  its last call, with the failure of that call, or because directories are nested too deep;
* `scanTree_fails_iff` : so a scan fails exactly where some call fails or the nesting is too deep;
* `le_listings_of_tooDeep` : the latter takes a listing without a failure for each level that is
  allowed.
-/

namespace RepoScan

variable {σ α β : Type}

/-! ### Recording -/

/-- What a source is asked for. -/
inductive Call where
  /-- What the directory at a path holds. -/
  | listing (path : Text) (fault : Option Failure)
  /-- The text of the file at a path. -/
  | reading (path : Text) (fault : Option Failure)

namespace Call

/-- The failure in which the call ended. -/
def fault : Call → Option Failure
  | listing _ fault => fault
  | reading _ fault => fault

/-- The call asks for a directory. -/
def isListing : Call → Bool
  | listing .. => true
  | reading .. => false

end Call

/-- The failure of work, if it fails. -/
def Outcome.fault (x : Outcome α) : Option Failure :=
  match x.result with
  | .ok _ => none
  | .error e => some e

/-- Work that is recorded as one call. -/
def Session.recordedAs (call : Option Failure → Call) (x : Session σ α) :
    Session (σ × List Call) α :=
  fun s => ((x s.1).1, (x s.1).2, s.2 ++ [call (x s.1).1.fault])

/-- The source that records the calls made to it. -/
def ContentSource.recorded (src : ContentSource σ) : ContentSource (σ × List Call) where
  list r path := (src.list r path).recordedAs (Call.listing path)
  fetch r path := (src.fetch r path).recordedAs (Call.reading path)

/-! ### Accounts of failures -/

/-- The number of listings among calls. -/
def listings (made : List Call) : Nat := made.countP Call.isListing

/-- The calls account for a result.  All of them succeed, at least `gain` of them listings, except
that the last one ends in the failure of the whole, unless that comes from nesting: then all
succeed, at least `depth` of them listings. -/
def Accounts (depth gain : Nat) (made : List Call) : Except Failure α → Prop
  | .ok _ => (∀ c ∈ made, c.fault = none) ∧ gain ≤ listings made
  | .error e =>
    (∃ front last, made = front ++ [last] ∧ (∀ c ∈ front, c.fault = none) ∧ last.fault = some e) ∨
      ((∀ c ∈ made, c.fault = none) ∧ e = .tooDeep ∧ depth ≤ listings made)

theorem Accounts.append {depth gain : Nat} {front made : List Call} {r : Except Failure α}
    (hf : ∀ c ∈ front, c.fault = none) (hg : gain ≤ listings front) (h : Accounts depth 0 made r) :
    Accounts (depth + gain) gain (front ++ made) r := by
  have clean {cs : List Call} (hcs : ∀ c ∈ cs, c.fault = none) :
      ∀ c ∈ front ++ cs, c.fault = none := fun c hc => (List.mem_append.mp hc).elim (hf c) (hcs c)
  have count : listings (front ++ made) = listings front + listings made := List.countP_append
  cases r with
  | ok a => exact ⟨clean h.1, by omega⟩
  | error e =>
    rcases h with ⟨cs, last, rfl, hcs, hl⟩ | ⟨hc, he, hn⟩
    · exact Or.inl ⟨front ++ cs, last, by rw [List.append_assoc], clean hcs, hl⟩
    · exact Or.inr ⟨clean hc, he, by omega⟩

/-- `y` does the work of `x` and records calls that account for its result. -/
def Tracks (depth gain : Nat) (x : Session σ α) (y : Session (σ × List Call) α) : Prop :=
  ∀ w calls, ∃ made, y.run (w, calls) = ((x.run w).1, (x.run w).2, calls ++ made) ∧
    Accounts depth gain made (x.run w).1.result

variable {depth gain : Nat}

theorem tracks_lift {x : Outcome α} {a : α} (h : x.result = .ok a) :
    Tracks depth 0 (Session.lift x : Session σ α) (Session.lift x) := by
  intro w calls
  refine ⟨[], by simp only [Session.run_lift, List.append_nil], ?_⟩
  rw [Session.run_lift, h]
  exact ⟨fun c hc => absurd hc List.not_mem_nil, Nat.le_refl 0⟩

theorem tracks_pure (a : α) :
    Tracks depth 0 (pure a : Session σ α) (pure a : Session (σ × List Call) α) :=
  tracks_lift (x := pure a) rfl

theorem tracks_tooDeep :
    Tracks 0 gain (Session.lift (Outcome.fail .tooDeep) : Session σ α)
      (Session.lift (Outcome.fail .tooDeep)) := by
  intro w calls
  refine ⟨[], by simp only [Session.run_lift, List.append_nil], Or.inr ⟨?_, rfl, Nat.zero_le _⟩⟩
  exact fun c hc => absurd hc List.not_mem_nil

theorem tracks_recordedAs {call : Option Failure → Call} (hc : ∀ e, (call e).fault = e)
    (hg : ∀ e, gain ≤ listings [call e]) (x : Session σ α) :
    Tracks depth gain x (x.recordedAs call) := by
  intro w calls
  refine ⟨[call (x.run w).1.fault], rfl, ?_⟩
  cases h : (x.run w).1.result with
  | ok a =>
    refine ⟨fun c hcall => ?_, hg _⟩
    -- the only call is the one that is recorded
    rw [List.mem_singleton.mp hcall, hc, Outcome.fault, h]
  | error e =>
    refine Or.inl ⟨[], _, rfl, fun c hcall => absurd hcall List.not_mem_nil, ?_⟩
    rw [hc, Outcome.fault, h]

/-- The calls of two pieces of work in a row; those of the first count for the nesting below. -/
theorem Tracks.bind {x : Session σ α} {y : Session (σ × List Call) α} {f : α → Session σ β}
    {g : α → Session (σ × List Call) β} (h : Tracks (depth + gain) gain x y)
    (hf : ∀ a, Tracks depth 0 (f a) (g a)) : Tracks (depth + gain) gain (x >>= f) (y >>= g) := by
  intro w calls
  obtain ⟨made, hy, hm⟩ := h w calls
  cases hx : (x.run w).1.result with
  | error e =>
    -- the second piece of work is never begun
    have hy' : (y.run (w, calls)).1.result = .error e := by
      rw [hy]
      exact hx
    rw [hx] at hm
    refine ⟨made, ?_, ?_⟩
    · rw [Session.run_bind_of_error g hy', Session.run_bind_of_error f hx, hy]
    · rw [Session.run_bind_of_error f hx]
      exact hm
  | ok a =>
    have hy' : (y.run (w, calls)).1.result = .ok a := by
      rw [hy]
      exact hx
    obtain ⟨made', hg, hm'⟩ := hf a (x.run w).2 (calls ++ made)
    rw [hx] at hm
    refine ⟨made ++ made', ?_, ?_⟩
    · rw [Session.run_bind_of_ok g hy', Session.run_bind_of_ok f hx, hy, hg, List.append_assoc]
    · rw [Session.run_bind_of_ok f hx]
      exact hm'.append hm.1 hm.2

theorem Tracks.drop {x : Session σ α} {y : Session (σ × List Call) α} (h : Tracks depth gain x y) :
    Tracks depth 0 x y := by
  intro w calls
  obtain ⟨made, hy, hm⟩ := h w calls
  refine ⟨made, hy, ?_⟩
  cases hr : (x.run w).1.result with
  | ok a =>
    rw [hr] at hm
    exact ⟨hm.1, Nat.zero_le _⟩
  | error e =>
    rw [hr] at hm
    exact hm

/-! ### The walk -/

theorem walkEntries_cons (visit : TreeEntry → Session σ (List α))
    (below : Text → Session σ (List α)) (e : TreeEntry) (es : List TreeEntry) :
    walkEntries visit below (e :: es) =
      (if e.isDirectory then below e.path
        else if e.isFile then visit e else pure []) >>= fun here =>
        walkEntries visit below es >>= fun rest => pure (here ++ rest) := by
  rw [walkEntries]
  split
  · rfl
  · split
    · rfl
    · rfl

theorem tracks_walkEntries {visit : TreeEntry → Session σ (List α)}
    {visit' : TreeEntry → Session (σ × List Call) (List α)} {below : Text → Session σ (List α)}
    {below' : Text → Session (σ × List Call) (List α)}
    (hv : ∀ e, Tracks depth 0 (visit e) (visit' e))
    (hb : ∀ p, Tracks depth 0 (below p) (below' p)) (es : List TreeEntry) :
    Tracks depth 0 (walkEntries visit below es) (walkEntries visit' below' es) := by
  induction es with
  | nil => exact tracks_pure []
  | cons e es ih =>
    rw [walkEntries_cons, walkEntries_cons]
    refine Tracks.bind ?_ fun here => ih.bind fun rest => tracks_pure (here ++ rest)
    split
    · exact hb e.path
    · split
      · exact hv e
      · exact tracks_pure []

theorem keeping_walkEntries {P : Event → Bool} {visit visit' : TreeEntry → Session σ (List α)}
    {below below' : Text → Session σ (List α)} {es : List TreeEntry}
    (hv : ∀ e ∈ es, (visit e).keeping P = (visit' e).keeping P)
    (hb : ∀ e ∈ es, e.isDirectory = true → (below e.path).keeping P = (below' e.path).keeping P) :
    (walkEntries visit below es).keeping P = (walkEntries visit' below' es).keeping P := by
  induction es with
  | nil => rfl
  | cons e es ih =>
    obtain ⟨hve, hvs⟩ := List.forall_mem_cons.mp hv
    obtain ⟨hbe, hbs⟩ := List.forall_mem_cons.mp hb
    rw [walkEntries_cons, walkEntries_cons]
    refine Session.keeping_bind_congr ?_ fun _ here _ =>
      Session.keeping_bind_congr (ih hvs hbs) fun _ _ _ => rfl
    split
    · rename_i hd
      exact hbe hd
    · split
      · exact hve
      · rfl

/-- Each level of nesting takes one listing more. -/
theorem tracks_walkWithin (src : ContentSource σ) (r : Repository)
    {visit : TreeEntry → Session σ (List α)}
    {visit' : TreeEntry → Session (σ × List Call) (List α)}
    (hv : ∀ d e, Tracks d 0 (visit e) (visit' e)) (depth : Nat) (path : Text) :
    Tracks depth 0 (walkWithin src r visit depth path)
      (walkWithin src.recorded r visit' depth path) := by
  induction depth generalizing path with
  | zero => exact tracks_tooDeep
  | succ depth ih =>
    have listing : Tracks (depth + 1) 1 (src.list r path) (src.recorded.list r path) :=
      tracks_recordedAs (fun _ => rfl) (fun _ => Nat.le_refl 1) _
    -- the listing pays for the level that is entered
    exact (listing.bind fun es => tracks_walkEntries (hv depth) ih es).drop

theorem result_scanFile (body path : Text) :
    (scanFile body path).result = .ok (scanBody body path) := by
  unfold scanFile
  split
  · exact Outcome.result_bind_of_ok _ (Outcome.result_tell _)
  · rfl

theorem tracks_scanEntry (src : ContentSource σ) (r : Repository) (e : TreeEntry) :
    Tracks depth 0 (scanEntry src r e) (scanEntry src.recorded r e) := by
  have told : Tracks depth 0
      (Session.lift (Outcome.tell (.noKind e.path)) >>= fun _ => pure [] : Session σ (List Finding))
      (Session.lift (Outcome.tell (.noKind e.path)) >>= fun _ => pure []) :=
    (tracks_lift (Outcome.result_tell _)).bind fun _ => tracks_pure []
  have reading : Tracks depth 0 (src.fetch r e.path) (src.recorded.fetch r e.path) :=
    tracks_recordedAs (fun _ => rfl) (fun _ => Nat.zero_le _) _
  unfold scanEntry
  split
  · exact tracks_pure []
  · split
    · exact told
    · exact reading.bind fun body => tracks_lift (result_scanFile body e.path)

theorem tracks_scanTree (nesting : Nat) (src : ContentSource σ) (r : Repository) (path : Text) :
    Tracks nesting 0 (scanTree nesting src r path) (scanTree nesting src.recorded r path) :=
  tracks_walkWithin src r (fun _ e => tracks_scanEntry src r e) nesting path

/-! ### What a scan of a repository asks for -/

/-- The calls that a scan of the files below a path makes to its source. -/
def scanTreeCalls (nesting : Nat) (src : ContentSource σ) (r : Repository) (path : Text) (w : σ) :
    List Call :=
  ((scanTree nesting src.recorded r path).run (w, [])).2.2

variable (nesting : Nat) (src : ContentSource σ) (r : Repository) (path : Text) (w : σ)

/-- The record changes neither what a scan does nor what it leaves of the source. -/
theorem scanTree_recorded :
    (scanTree nesting src.recorded r path).run (w, []) =
      (((scanTree nesting src r path).run w).1, ((scanTree nesting src r path).run w).2,
        scanTreeCalls nesting src r path w) := by
  obtain ⟨made, hy, -⟩ := tracks_scanTree nesting src r path w []
  rw [scanTreeCalls, hy]

/-- **The calls of a scan account for its result.** -/
theorem scanTree_account :
    Accounts nesting 0 (scanTreeCalls nesting src r path w)
      ((scanTree nesting src r path).run w).1.result := by
  obtain ⟨made, hy, hm⟩ := tracks_scanTree nesting src r path w []
  rw [scanTreeCalls, hy]
  exact hm

/-- A scan goes too deep: no call fails, and still the scan does. -/
def ScanTreeTooDeep : Prop :=
  ((scanTree nesting src r path).run w).1.result = .error .tooDeep ∧
    ∀ c ∈ scanTreeCalls nesting src r path w, c.fault = none

/-- **A scan of the files fails exactly where a call fails or the nesting is too deep.** -/
theorem scanTree_fails_iff :
    (∃ e, ((scanTree nesting src r path).run w).1.result = .error e) ↔
      (∃ c ∈ scanTreeCalls nesting src r path w, c.fault ≠ none) ∨
        ScanTreeTooDeep nesting src r path w := by
  have account := scanTree_account nesting src r path w
  constructor
  · rintro ⟨e, he⟩
    rw [he] at account
    rcases account with ⟨front, last, hcalls, -, hl⟩ | ⟨clean, rfl, -⟩
    · refine Or.inl ⟨last, ?_, by rw [hl]; exact Option.some_ne_none e⟩
      rw [hcalls]
      exact List.mem_append_right front (List.mem_singleton_self last)
    · exact Or.inr ⟨he, clean⟩
  · rintro (⟨c, hc, hf⟩ | ⟨he, -⟩)
    · cases h : ((scanTree nesting src r path).run w).1.result with
      | ok fs =>
        rw [h] at account
        exact absurd (account.1 c hc) hf
      | error e => exact ⟨e, rfl⟩
    · exact ⟨.tooDeep, he⟩

/-- Nesting is too deep only after as many listings as levels are allowed. -/
theorem le_listings_of_tooDeep (h : ScanTreeTooDeep nesting src r path w) :
    nesting ≤ listings (scanTreeCalls nesting src r path w) := by
  have account := scanTree_account nesting src r path w
  rw [h.1] at account
  rcases account with ⟨front, last, hcalls, -, hl⟩ | ⟨-, -, hn⟩
  · have called : last ∈ scanTreeCalls nesting src r path w := by
      rw [hcalls]
      exact List.mem_append_right front (List.mem_singleton_self last)
    have := h.2 last called
    rw [hl] at this
    cases this
  · exact hn

end RepoScan
