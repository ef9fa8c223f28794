import Mathlib.Data.List.Nodup
import Mathlib.Order.MinMax
import RepoScan.Proofs.Tree

/-!
# The plan of a scan

Where a source serves a finite tree, what a scan has to ask for is known beforehand: every directory
when the walk comes to it, and every file that is not binary by its name and has a kind, in the
order of the listings.  This is its `plan`.

* `follows_walkWithin` : events aside, the walk does what the calls of the plan do in a row, unless
  directories are nested too deep; then it does so up to one of them;
* `scanTreeTooDeep_iff` : it fails there, if directories are nested in more levels than are allowed
  and no call fails;
* `plan_nodup` : nothing is asked for twice, where no path occurs twice;
* `asPlanned_iff` : **a scan goes as planned** exactly where directories are not nested too deep, or
  a call fails before that shows.
-/

namespace RepoScan

variable {σ α β : Type}

/-! ### Trees -/

/-- What a directory holds, one entry after the other, with all that is below. -/
inductive Tree where
  | done
  /-- An entry that is no directory. -/
  | leaf (e : TreeEntry) (h : e.isDirectory = false) (rest : Tree)
  | directory (e : TreeEntry) (h : e.isDirectory = true) (inside rest : Tree)

/-- The file of the entry is to be read: it is not binary by its name, and it has a kind. -/
def TreeEntry.isEligible (e : TreeEntry) : Bool :=
  e.isFile && !FileKind.isBinary e.name && !(FileKind.ofPath e.path).isEmpty

namespace Tree

/-- The entries of the directory itself. -/
def entries : Tree → List TreeEntry
  | done => []
  | leaf e _ rest => e :: rest.entries
  | directory e _ _ rest => e :: rest.entries

/-- How many directories are nested in each other, the one that holds the tree included. -/
def levels : Tree → Nat
  | done => 1
  | leaf _ _ rest => rest.levels
  | directory _ _ inside rest => max (inside.levels + 1) rest.levels

/-- The calls that are due below the directory that holds the tree. -/
def calls : Tree → List Call
  | done => []
  | leaf e _ rest => (if e.isEligible then [Call.reading e.path none] else []) ++ rest.calls
  | directory e _ inside rest => (Call.listing e.path none :: inside.calls) ++ rest.calls

theorem levels_pos (tree : Tree) : 0 < tree.levels := by
  induction tree with
  | done => exact Nat.one_pos
  | leaf e h rest ih => exact ih
  | directory e h inside rest => exact Nat.lt_of_lt_of_le (Nat.succ_pos _) (Nat.le_max_left ..)

end Tree

/-- The calls that are due for the directory at a path that holds a tree. -/
def plan (path : Text) (tree : Tree) : List Call := Call.listing path none :: tree.calls

theorem fault_of_mem_calls (tree : Tree) : ∀ c ∈ tree.calls, c.fault = none := by
  induction tree with
  | done => exact nofun
  | leaf e h rest ih =>
    rw [Tree.calls, List.forall_mem_append]
    refine ⟨fun c hc => ?_, ih⟩
    split at hc
    · rw [List.mem_singleton.mp hc]
      rfl
    · cases hc
  | directory e h inside rest ih ih' =>
    rw [Tree.calls, List.forall_mem_append, List.forall_mem_cons]
    exact ⟨⟨rfl, ih⟩, ih'⟩

theorem fault_of_mem_plan (path : Text) (tree : Tree) : ∀ c ∈ plan path tree, c.fault = none :=
  List.forall_mem_cons.mpr ⟨rfl, fault_of_mem_calls tree⟩

/-- The path that the call is about. -/
def Call.path : Call → Text
  | listing path _ => path
  | reading path _ => path

/-- The paths in a tree. -/
def Tree.paths : Tree → List Text
  | done => []
  | leaf e _ rest => e.path :: rest.paths
  | directory e _ inside rest => e.path :: (inside.paths ++ rest.paths)

theorem sublist_paths (tree : Tree) : (tree.calls.map Call.path).Sublist tree.paths := by
  induction tree with
  | done => exact List.Sublist.refl []
  | leaf e h rest ih =>
    rw [Tree.calls, List.map_append, Tree.paths]
    split
    · exact ih.cons_cons e.path
    · exact ih.cons e.path
  | directory e h inside rest ih ih' =>
    rw [Tree.calls, List.map_append, Tree.paths]
    exact (ih.append ih').cons_cons e.path

/-- Where no path occurs twice, nothing is due twice. -/
theorem plan_nodup {path : Text} {tree : Tree} (h : (path :: tree.paths).Nodup) :
    (plan path tree).Nodup := by
  have hpaths : ((plan path tree).map Call.path).Nodup :=
    h.sublist ((sublist_paths tree).cons_cons path)
  exact hpaths.of_map

/-! ### Sources that serve a tree -/

variable (src : ContentSource σ) (r : Repository)

/-- Whenever the directory at a path can be listed, these are its entries. -/
def Lists (path : Text) (es : List TreeEntry) : Prop :=
  ∀ w found, ((src.list r path).run w).1.result = .ok found → found = es

/-- The directories in a tree hold what they hold in it. -/
def Tree.IsServed : Tree → Prop
  | done => True
  | leaf _ _ rest => rest.IsServed
  | directory e _ inside rest =>
    (Lists src r e.path inside.entries ∧ inside.IsServed) ∧ rest.IsServed

/-- The directory at a path holds a tree.  Any request may fail, at any time. -/
def Serves (path : Text) (tree : Tree) : Prop := Lists src r path tree.entries ∧ tree.IsServed src r

variable {src r} {path : Text} {tree : Tree}

theorem Lists.recorded {es : List TreeEntry} (h : Lists src r path es) :
    Lists src.recorded r path es :=
  fun w => h w.1

theorem Tree.IsServed.recorded (h : tree.IsServed src r) : tree.IsServed src.recorded r := by
  induction tree with
  | done => trivial
  | leaf e he rest ih => exact ih h
  | directory e he inside rest ih ih' => exact ⟨⟨h.1.1.recorded, ih h.1.2⟩, ih' h.2⟩

theorem Serves.recorded (h : Serves src r path tree) : Serves src.recorded r path tree :=
  ⟨h.1.recorded, h.2.recorded⟩

theorem Lists.bare_bind {es : List TreeEntry} (h : Lists src r path es)
    (f : List TreeEntry → Session σ α) :
    (src.list r path >>= f).bare = (src.list r path).bare >>= fun _ => (f es).bare := by
  rw [Session.bare_bind]
  funext w
  show ExceptT.bindCont (fun a => (f a).bare) ((src.list r path).run w).1.result _ =
    ExceptT.bindCont (fun _ => (f es).bare) ((src.list r path).run w).1.result _
  cases hw : ((src.list r path).run w).1.result with
  | error e => rfl
  | ok found =>
    rw [h w found hw]
    rfl

/-! ### Calls in a row -/

variable (src r)

/-- Calls are made one after the other, until one fails: the findings in the files that are read. -/
def scanCalls : List Call → Session σ (List Finding)
  | [] => pure []
  | .listing path _ :: cs => do
    let _ ← src.list r path
    scanCalls cs
  | .reading path _ :: cs => do
    let body ← src.fetch r path
    let rest ← scanCalls cs
    pure (scanBody body path ++ rest)

variable {src r}

theorem scanCalls_append (cs ds : List Call) :
    (scanCalls src r (cs ++ ds)).bare = (do
      let here ← scanCalls src r cs
      let rest ← scanCalls src r ds
      pure (here ++ rest) : Session σ (List Finding)).bare := by
  induction cs with
  | nil => simp [scanCalls]
  | cons c cs ih =>
    cases c with
    | listing path => simp [scanCalls, ih]
    | reading path =>
      simp only [List.cons_append, scanCalls, Session.bare_bind, Session.bare_pure, ih, bind_assoc,
        pure_bind, List.append_assoc]

theorem result_scanCalls_append {cs : List Call} {w : σ} {e : Failure}
    (h : ((scanCalls src r cs).run w).1.result = .error e) (ds : List Call) :
    ((scanCalls src r (cs ++ ds)).run w).1.result = .error e := by
  rw [(Session.bare_eq_iff.mp (scanCalls_append cs ds) w).1, Session.run_bind_of_error _ h]

/-- Events aside, the work does what calls do in a row; where it is too deep, it does what those in
front of some call do, and then it fails. -/
def Follows (src : ContentSource σ) (r : Repository) (x : Session σ (List Finding)) (tooDeep : Prop)
    (cs : List Call) : Prop :=
  (¬ tooDeep ∧ x.bare = (scanCalls src r cs).bare) ∨
    (tooDeep ∧ ∃ front next back, cs = front ++ next :: back ∧
      x.bare = (scanCalls src r front >>= fun _ => Session.lift (Outcome.fail .tooDeep)).bare)

section Follows

variable {x y : Session σ (List Finding)} {p q : Prop} {cs ds : List Call}

theorem Follows.append (hx : Follows src r x p cs) (hy : Follows src r y q ds) :
    Follows src r (do let here ← x; let rest ← y; pure (here ++ rest)) (p ∨ q) (cs ++ ds) := by
  rcases hx with ⟨hp, hx⟩ | ⟨hp, front, next, back, rfl, hx⟩
  · rcases hy with ⟨hq, hy⟩ | ⟨hq, front, next, back, rfl, hy⟩
    · refine Or.inl ⟨not_or.mpr ⟨hp, hq⟩, ?_⟩
      simp only [Session.bare_bind, Session.bare_pure, hx, hy, scanCalls_append]
    · refine Or.inr ⟨Or.inr hq, cs ++ front, next, back, (List.append_assoc ..).symm, ?_⟩
      simp only [Session.bare_bind, Session.bare_pure, hx, hy, scanCalls_append, bind_assoc,
        pure_bind]
      rfl
  · -- the second piece of work is never begun
    refine Or.inr ⟨Or.inl hp, front, next, back ++ ds, by simp, ?_⟩
    simp only [Session.bare_bind, hx, bind_assoc]
    rfl

theorem follows_pure : Follows src r (pure []) False [] := Or.inl ⟨id, rfl⟩

theorem follows_scanEntry {e : TreeEntry} (he : e.isFile = true) :
    Follows src r (scanEntry src r e) False
      (if e.isEligible then [Call.reading e.path none] else []) := by
  refine Or.inl ⟨id, ?_⟩
  rw [TreeEntry.isEligible, he, scanEntry]
  by_cases hb : FileKind.isBinary e.name
  · simp [hb, scanCalls]
  · by_cases hk : (FileKind.ofPath e.path).isEmpty
    · simp [hb, hk, scanCalls, Session.bare_lift_of_ok (Outcome.result_tell _)]
    · simp [hb, hk, scanCalls, Session.bare_lift_of_ok (result_scanFile _ _)]

end Follows

/-! ### The walk -/

theorem follows_walkEntries {depth : Nat} {below : Text → Session σ (List Finding)}
    (hb : ∀ path inside, Serves src r path inside →
      Follows src r (below path) (depth < inside.levels) (plan path inside))
    (h : tree.IsServed src r) :
    Follows src r (walkEntries (scanEntry src r) below tree.entries) (depth + 1 < tree.levels)
      tree.calls := by
  -- over the entries of one level; `hb` is what is known of the levels below
  induction tree with
  | done => exact Or.inl ⟨by simp [Tree.levels], rfl⟩
  | leaf e he rest ih =>
    rw [Tree.entries, walkEntries, Tree.levels, Tree.calls, he]
    by_cases hf : e.isFile
    · simpa [hf] using (follows_scanEntry hf).append (ih h)
    · simpa [hf, TreeEntry.isEligible] using follows_pure.append (ih h)
  | directory e he inside rest _ ih =>
    rw [Tree.entries, walkEntries, Tree.levels, Tree.calls, he]
    simpa [lt_max_iff, plan] using (hb e.path inside h.1).append (ih h.2)

/-- **The walk does what the calls of the plan do in a row**, events aside, unless directories are
nested too deep. -/
theorem follows_walkWithin (depth : Nat) (h : Serves src r path tree) :
    Follows src r (walkWithin src r (scanEntry src r) depth path) (depth < tree.levels)
      (plan path tree) := by
  induction depth generalizing path tree with
  | zero => exact Or.inr ⟨tree.levels_pos, [], _, _, rfl, rfl⟩
  | succ depth ih =>
    rw [Follows, walkWithin, h.1.bare_bind]
    rcases follows_walkEntries (fun _ _ => ih) h.2 with ⟨hd, hx⟩ | ⟨hd, front, next, back, hcs, hx⟩
    · refine Or.inl ⟨hd, ?_⟩
      rw [hx, plan, scanCalls, Session.bare_bind]
    · refine Or.inr ⟨hd, Call.listing path none :: front, next, back, ?_, ?_⟩
      · rw [plan, hcs, List.cons_append]
      · simp only [hx, scanCalls, Session.bare_bind, bind_assoc]

/-! ### Records of calls in a row -/

/-- The call, ended in a failure. -/
def Call.failing (e : Failure) : Call → Call
  | listing path _ => listing path (some e)
  | reading path _ => reading path (some e)

/-- Of the calls that are due, these are made for a result: all of them, or those up to one that
ends in the failure of the whole. -/
def Stops (due made : List Call) : Except Failure α → Prop
  | .ok _ => made = due
  | .error e => ∃ front last back, due = front ++ last :: back ∧ made = front ++ [last.failing e]

theorem Stops.cons {due made : List Call} {result : Except Failure α} (h : Stops due made result)
    (c : Call) : Stops (c :: due) (c :: made) result := by
  cases result with
  | ok a => exact congrArg (c :: ·) h
  | error e =>
    obtain ⟨front, last, back, rfl, rfl⟩ := h
    exact ⟨c :: front, last, back, rfl, rfl⟩

/-- `y` does the work of `x`, for which the calls are due, and records those that it makes. -/
def Records (due : List Call) (x : Session σ α) (y : Session (σ × List Call) α) : Prop :=
  ∀ w made, ∃ new, y.run (w, made) = ((x.run w).1, (x.run w).2, made ++ new) ∧
    Stops due new (x.run w).1.result

theorem records_pure (a : α) :
    Records [] (pure a : Session σ α) (pure a : Session (σ × List Call) α) := fun w made =>
  ⟨[], by simp only [Session.run_pure, List.append_nil], rfl⟩

theorem Records.bind {due : List Call} {call : Option Failure → Call} {x : Session σ α}
    {f : α → Session σ β} {g : α → Session (σ × List Call) β}
    (hc : ∀ e, call (some e) = (call none).failing e) (hf : ∀ a, Records due (f a) (g a)) :
    Records (call none :: due) (x >>= f) (x.recordedAs call >>= g) := by
  intro w made
  have hy : (x.recordedAs call).run (w, made) =
    ((x.run w).1, (x.run w).2, made ++ [call (x.run w).1.fault]) := rfl
  cases hx : (x.run w).1.result with
  | error e =>
    have hr : ((x.recordedAs call).run (w, made)).1.result = .error e := hx
    rw [Session.run_bind_of_error g hr, Session.run_bind_of_error f hx, hy, Outcome.fault, hx]
    exact ⟨[call (some e)], rfl, [], call none, due, rfl, congrArg (fun c => [c]) (hc e)⟩
  | ok a =>
    have hr : ((x.recordedAs call).run (w, made)).1.result = .ok a := hx
    rw [Session.run_bind_of_ok g hr, Session.run_bind_of_ok f hx, hy, Outcome.fault, hx]
    obtain ⟨new, hg, hnew⟩ := hf a (x.run w).2 (made ++ [call none])
    refine ⟨call none :: new, ?_, hnew.cons (call none)⟩
    simp only [hg, List.append_assoc, List.singleton_append]

theorem Records.map {due : List Call} {x : Session σ α} {y : Session (σ × List Call) α}
    (h : Records due x y) (f : α → β) :
    Records due (x >>= fun a => pure (f a)) (y >>= fun a => pure (f a)) := by
  intro w made
  obtain ⟨new, hy, hnew⟩ := h w made
  refine ⟨new, ?_⟩
  cases hx : (x.run w).1.result with
  | error e =>
    have hr : (y.run (w, made)).1.result = .error e := by rw [hy, hx]
    rw [hx] at hnew
    rw [Session.run_bind_of_error _ hr, Session.run_bind_of_error _ hx, hy]
    exact ⟨rfl, hnew⟩
  | ok a =>
    have hr : (y.run (w, made)).1.result = .ok a := by rw [hy, hx]
    rw [hx] at hnew
    rw [Session.run_bind_of_ok _ hr, Session.run_bind_of_ok _ hx, hy]
    exact ⟨rfl, hnew⟩

theorem records_scanCalls (src : ContentSource σ) (r : Repository) {due : List Call}
    (h : ∀ c ∈ due, c.fault = none) :
    Records due (scanCalls src r due) (scanCalls src.recorded r due) := by
  induction due with
  | nil => exact records_pure []
  | cons c due ih =>
    obtain ⟨hc, hdue⟩ := List.forall_mem_cons.mp h
    cases c with
    | listing path fault =>
      obtain rfl : fault = none := hc
      exact Records.bind (fun _ => rfl) fun _ => ih hdue
    | reading path fault =>
      obtain rfl : fault = none := hc
      exact Records.bind (fun _ => rfl) fun body => (ih hdue).map (scanBody body path ++ ·)

/-! ### Scans as planned -/

/-- The scan of what is below a path goes as planned for a tree. -/
structure AsPlanned (nesting : Nat) (src : ContentSource σ) (r : Repository) (path : Text)
    (tree : Tree) (w : σ) : Prop where
  /-- It makes all calls of the plan, or those up to one that fails as the scan does. -/
  calls : Stops (plan path tree) (scanTreeCalls nesting src r path w)
    ((scanTree nesting src r path).run w).1.result
  /-- It finds what is in the files that the calls of the plan read. -/
  found : ((scanTree nesting src r path).run w).1.result =
    ((scanCalls src r (plan path tree)).run w).1.result

variable {nesting : Nat} {w : σ}

theorem scanTree_of_bare_eq {y : Session (σ × List Call) (List Finding)}
    (h : (scanTree nesting src.recorded r path).bare = y.bare) (w : σ) :
    ((scanTree nesting src r path).run w).1.result = (y.run (w, [])).1.result ∧
      scanTreeCalls nesting src r path w = (y.run (w, [])).2.2 := by
  obtain ⟨hresult, hstate⟩ := Session.bare_eq_iff.mp h (w, [])
  rw [scanTree_recorded] at hresult
  refine ⟨hresult, ?_⟩
  rw [scanTreeCalls, hstate]

theorem asPlanned_of_bare_eq
    (h : (scanTree nesting src.recorded r path).bare =
      (scanCalls src.recorded r (plan path tree)).bare) :
    AsPlanned nesting src r path tree w := by
  obtain ⟨hresult, hcalls⟩ := scanTree_of_bare_eq h w
  obtain ⟨new, hy, hnew⟩ := records_scanCalls src r (fault_of_mem_plan path tree) w []
  rw [hy] at hresult hcalls
  refine ⟨?_, hresult⟩
  rw [hcalls, hresult]
  exact hnew

section TooDeep

variable {front back : List Call} {next : Call}

theorem scanTreeTooDeep_of_ok {fs : List Finding} (clean : ∀ c ∈ front, c.fault = none)
    (h : (scanTree nesting src.recorded r path).bare =
      (scanCalls src.recorded r front >>= fun _ => Session.lift (Outcome.fail .tooDeep)).bare)
    (hx : ((scanCalls src r front).run w).1.result = .ok fs) :
    ScanTreeTooDeep nesting src r path w := by
  obtain ⟨hresult, hcalls⟩ := scanTree_of_bare_eq h w
  obtain ⟨new, hy, hnew⟩ := records_scanCalls src r clean w []
  have hr : ((scanCalls src.recorded r front).run (w, [])).1.result = .ok fs := by rw [hy, hx]
  rw [Session.run_bind_of_ok _ hr] at hresult hcalls
  rw [hy] at hcalls
  rw [hx] at hnew
  refine ⟨hresult, ?_⟩
  rw [hcalls, hnew]
  exact clean

theorem asPlanned_of_error {e : Failure} (clean : ∀ c ∈ front, c.fault = none)
    (hplan : plan path tree = front ++ next :: back)
    (h : (scanTree nesting src.recorded r path).bare =
      (scanCalls src.recorded r front >>= fun _ => Session.lift (Outcome.fail .tooDeep)).bare)
    (hx : ((scanCalls src r front).run w).1.result = .error e) :
    AsPlanned nesting src r path tree w ∧
      ∃ c ∈ scanTreeCalls nesting src r path w, c.fault ≠ none := by
  obtain ⟨hresult, hcalls⟩ := scanTree_of_bare_eq h w
  obtain ⟨new, hy, hnew⟩ := records_scanCalls src r clean w []
  have hr : ((scanCalls src.recorded r front).run (w, [])).1.result = .error e := by rw [hy, hx]
  rw [Session.run_bind_of_error _ hr] at hresult hcalls
  rw [hy] at hcalls
  rw [hx] at hnew
  obtain ⟨before, last, after, rfl, rfl⟩ := hnew
  refine ⟨⟨?_, ?_⟩, last.failing e, ?_, ?_⟩
  · rw [hresult, hcalls, hplan]
    exact ⟨before, last, after ++ next :: back, by simp, rfl⟩
  · rw [hresult, hplan, result_scanCalls_append hx]
  · rw [hcalls, List.nil_append]
    exact List.mem_append_right _ (List.mem_singleton_self _)
  · cases last <;> exact Option.some_ne_none e

/-- A scan that is too deep goes as planned up to a call that fails, if one fails before. -/
theorem asPlanned_or_tooDeep (hplan : plan path tree = front ++ next :: back)
    (h : (scanTree nesting src.recorded r path).bare =
      (scanCalls src.recorded r front >>= fun _ => Session.lift (Outcome.fail .tooDeep)).bare) :
    (AsPlanned nesting src r path tree w ∧
        ∃ c ∈ scanTreeCalls nesting src r path w, c.fault ≠ none) ∨
      ScanTreeTooDeep nesting src r path w := by
  have clean : ∀ c ∈ front, c.fault = none := fun c hc =>
    fault_of_mem_plan path tree c (hplan ▸ List.mem_append_left _ hc)
  cases hx : ((scanCalls src r front).run w).1.result with
  | ok fs => exact Or.inr (scanTreeTooDeep_of_ok clean h hx)
  | error e => exact Or.inl (asPlanned_of_error clean hplan h hx)

end TooDeep

theorem not_asPlanned_of_tooDeep (h : ScanTreeTooDeep nesting src r path w) :
    ¬ AsPlanned nesting src r path tree w := by
  intro hp
  have hcalls := hp.calls
  rw [h.1] at hcalls
  obtain ⟨front, last, back, -, hmade⟩ := hcalls
  have hlast : (last.failing .tooDeep).fault = none :=
    h.2 _ (hmade ▸ List.mem_append_right _ (List.mem_singleton_self _))
  cases last <;> cases hlast

theorem scanTree_cases (h : Serves src r path tree) :
    (tree.levels ≤ nesting ∧ AsPlanned nesting src r path tree w) ∨
      (AsPlanned nesting src r path tree w ∧
        ∃ c ∈ scanTreeCalls nesting src r path w, c.fault ≠ none) ∨
      (nesting < tree.levels ∧ ScanTreeTooDeep nesting src r path w) := by
  rcases follows_walkWithin nesting h.recorded with ⟨hd, hx⟩ | ⟨hd, front, next, back, hplan, hx⟩
  · exact Or.inl ⟨Nat.le_of_not_lt hd, asPlanned_of_bare_eq hx⟩
  · rcases asPlanned_or_tooDeep hplan hx with hp | hdeep
    · exact Or.inr (Or.inl hp)
    · exact Or.inr (Or.inr ⟨hd, hdeep⟩)

/-- **A scan is too deep** exactly where directories are nested in more levels than are allowed and
no call fails. -/
theorem scanTreeTooDeep_iff (h : Serves src r path tree) :
    ScanTreeTooDeep nesting src r path w ↔
      nesting < tree.levels ∧ ∀ c ∈ scanTreeCalls nesting src r path w, c.fault = none := by
  constructor
  · intro hdeep
    rcases scanTree_cases h with ⟨-, hp⟩ | ⟨hp, -⟩ | ⟨hd, -⟩
    · exact absurd hp (not_asPlanned_of_tooDeep hdeep)
    · exact absurd hp (not_asPlanned_of_tooDeep hdeep)
    · exact ⟨hd, hdeep.2⟩
  · rintro ⟨hd, clean⟩
    rcases scanTree_cases h with ⟨hd', -⟩ | ⟨-, c, hc, hf⟩ | ⟨-, hdeep⟩
    · exact absurd hd (Nat.not_lt_of_le hd')
    · exact absurd (clean c hc) hf
    · exact hdeep

/-! ### Sources that never fail -/

/-- A request to the source never fails. -/
def ContentSource.NeverFails (src : ContentSource σ) : Prop :=
  (∀ r path w, ∃ es, ((src.list r path).run w).1.result = .ok es) ∧
    ∀ r path w, ∃ t, ((src.fetch r path).run w).1.result = .ok t

theorem exists_scanCalls_of_neverFails (h : src.NeverFails) (cs : List Call) (w : σ) :
    ∃ fs, ((scanCalls src r cs).run w).1.result = .ok fs := by
  induction cs generalizing w with
  | nil => exact ⟨[], rfl⟩
  | cons c cs ih =>
    cases c with
    | listing path =>
      obtain ⟨es, hes⟩ := h.1 r path w
      rw [scanCalls, Session.result_bind_of_ok _ hes]
      exact ih _
    | reading path =>
      obtain ⟨t, ht⟩ := h.2 r path w
      obtain ⟨fs, hfs⟩ := ih ((src.fetch r path).run w).2
      rw [scanCalls, Session.result_bind_of_ok _ ht, Session.result_bind_of_ok _ hfs]
      exact ⟨_, rfl⟩

/-- Nesting that is too deep is enough for a scan to fail, though no request does. -/
theorem not_asPlanned_of_neverFails (h : Serves src r path tree) (hn : src.NeverFails)
    (hd : nesting < tree.levels) :
    ((scanTree nesting src r path).run w).1.result = .error .tooDeep ∧
      ¬ AsPlanned nesting src r path tree w := by
  have hdeep : ((scanTree nesting src r path).run w).1.result = .error .tooDeep := by
    rcases follows_walkWithin nesting h with ⟨hd', -⟩ | ⟨-, front, next, back, -, hx⟩
    · exact absurd hd hd'
    · obtain ⟨fs, hfs⟩ := exists_scanCalls_of_neverFails hn front w
      rw [scanTree, walk, (Session.bare_eq_iff.mp hx w).1, Session.result_bind_of_ok _ hfs]
      rfl
  refine ⟨hdeep, fun hp => ?_⟩
  obtain ⟨fs, hfs⟩ := exists_scanCalls_of_neverFails hn (plan path tree) w
  have hfound := hp.found
  rw [hdeep, hfs] at hfound
  cases hfound

/-! ### Nested directories -/

/-- The path of what a directory holds under a name. -/
def pathIn (path name : Text) : Text := if path.isEmpty then name else path ++ "/" ++ name

/-- A directory in the directory at a path. -/
def directoryIn (path : Text) : TreeEntry := ⟨"d", pathIn path "d", "dir"⟩

/-- A file in the directory at a path. -/
def fileIn (path : Text) : TreeEntry := ⟨"a.py", pathIn path "a.py", "file"⟩

/-- Directories nested in each other, `n` below the one at a path, and a file in the last one. -/
def nestedTree : (n : Nat) → (path : Text) → Tree
  | 0, path => .leaf (fileIn path) rfl .done
  | n + 1, path => .directory (directoryIn path) rfl (nestedTree n (pathIn path "d")) .done

/-- The source of directories nested in each other, `n` below the root. -/
def nestedSource (n : Nat) : ContentSource Unit where
  list _ path := pure [if (path.length + 1) / 2 < n then directoryIn path else fileIn path]
  fetch _ _ := pure "x = 1"

theorem levels_nestedTree (n : Nat) (path : Text) : (nestedTree n path).levels = n + 1 := by
  induction n generalizing path with
  | zero => rfl
  | succ n ih => simp [nestedTree, Tree.levels, ih]

theorem neverFails_nestedSource (n : Nat) : (nestedSource n).NeverFails :=
  ⟨fun _ _ _ => ⟨_, rfl⟩, fun _ _ _ => ⟨_, rfl⟩⟩

theorem lists_nestedSource (n : Nat) (path : Text) :
    Lists (nestedSource n) r path
      [if (path.length + 1) / 2 < n then directoryIn path else fileIn path] := fun _ _ hfound =>
  (Except.ok.inj hfound).symm

theorem components_pathIn (path : Text) :
    ((pathIn path "d").length + 1) / 2 = (path.length + 1) / 2 + 1 := by
  cases path with
  | nil => rfl
  | cons c path =>
    have hlength : (pathIn (c :: path) "d").length = path.length + 3 := by
      simp only [pathIn, List.isEmpty_cons, Bool.false_eq_true, if_false, List.length_append]
      rfl
    rw [hlength, List.length_cons]
    omega

theorem serves_nestedTree {n m : Nat} (h : (path.length + 1) / 2 + m = n) :
    Serves (nestedSource n) r path (nestedTree m path) := by
  have lists := lists_nestedSource (r := r) n path
  induction m generalizing path with
  | zero =>
    rw [if_neg (by omega)] at lists
    exact ⟨lists, trivial⟩
  | succ m ih =>
    rw [if_pos (by omega)] at lists
    have hm : ((pathIn path "d").length + 1) / 2 + m = n := by
      rw [components_pathIn]
      omega
    exact ⟨lists, ih hm (lists_nestedSource n _), trivial⟩

/-! ### When a scan goes as planned -/

/-- **A scan goes as planned** exactly where directories are nested in no more levels than are
allowed or a call fails. -/
theorem asPlanned_iff (h : Serves src r path tree) (w : σ) :
    AsPlanned nesting src r path tree w ↔
      tree.levels ≤ nesting ∨ ∃ c ∈ scanTreeCalls nesting src r path w, c.fault ≠ none := by
  rcases scanTree_cases h with ⟨hd, hp⟩ | ⟨hp, hf⟩ | ⟨hd, hdeep⟩
  · exact iff_of_true hp (Or.inl hd)
  · exact iff_of_true hp (Or.inr hf)
  · refine iff_of_false (not_asPlanned_of_tooDeep hdeep) ?_
    rintro (hd' | ⟨c, hc, hf⟩)
    · omega
    · exact hf (hdeep.2 c hc)

/-- A scan of two nested directories goes as planned. -/
theorem asPlanned_nestedTree :
    Serves (nestedSource 2) ⟨"acme", "shop"⟩ "" (nestedTree 2 "") ∧
      AsPlanned 988 (nestedSource 2) ⟨"acme", "shop"⟩ "" (nestedTree 2 "") () :=
  have h : Serves (nestedSource 2) ⟨"acme", "shop"⟩ "" (nestedTree 2 "") := serves_nestedTree rfl
  ⟨h, (asPlanned_iff h ()).mpr (Or.inl (by decide))⟩

/-- A scan of more nested directories than are allowed fails, though no request does. -/
theorem not_asPlanned_nestedTree :
    (nestedSource 988).NeverFails ∧
      Serves (nestedSource 988) ⟨"acme", "shop"⟩ "" (nestedTree 988 "") ∧
      ((scanTree 988 (nestedSource 988) ⟨"acme", "shop"⟩ "").run ()).1.result =
        .error .tooDeep ∧
      ¬ AsPlanned 988 (nestedSource 988) ⟨"acme", "shop"⟩ "" (nestedTree 988 "") () := by
  have h : Serves (nestedSource 988) ⟨"acme", "shop"⟩ "" (nestedTree 988 "") :=
    serves_nestedTree (Nat.zero_add 988)
  have hlevels : 988 < (nestedTree 988 "").levels := by
    rw [levels_nestedTree]
    exact Nat.lt_succ_self 988
  exact ⟨neverFails_nestedSource 988, h,
    not_asPlanned_of_neverFails h (neverFails_nestedSource 988) hlevels⟩

end RepoScan
