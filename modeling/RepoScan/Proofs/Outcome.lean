import RepoScan.Outcome

/-!
# Results and events of work

Work is put together from `Outcome`s and `Session`s.  The lemmas here say, for each way of putting
work together, what its result is, which events it leaves and in which state it ends, so that later
proofs follow the shape of the work and never open it.

* `Outcome.bind_of_ok`, `Outcome.bind_of_error` : two pieces of work in a row;
* `Outcome.result_mapM`, `Outcome.events_mapM` : the same work for each of some items;
* `Outcome.AllEvents.bind` : what all events of the parts are, all events of the whole are;
* `Session.run_bind_of_ok`, `Session.run_bind_of_error` : the same where a state is kept;
* `Session.AllEvents.bind` : and what all events of the parts are;
* `Session.bare` : work without its events, in a monad whose laws are known;
* `Session.keeping_bind_congr` : work that is the same up to some events.
-/

namespace RepoScan

namespace Outcome

variable {α β γ : Type}

@[simp] theorem result_pure (a : α) : (Pure.pure a : Outcome α).result = .ok a := rfl

@[simp] theorem events_pure (a : α) : (Pure.pure a : Outcome α).events = [] := rfl

@[simp] theorem result_tell (n : Notice) : (tell n).result = .ok () := rfl

@[simp] theorem result_ofExcept (r : Except Failure α) : (ofExcept r).result = r := rfl

@[simp] theorem result_attempt (x : Outcome α) : x.attempt.result = .ok x.result := rfl

@[simp] theorem events_attempt (x : Outcome α) : x.attempt.events = x.events := rfl

theorem bind_of_ok {x : Outcome α} {a : α} (f : α → Outcome β) (h : x.result = .ok a) :
    x >>= f = ⟨x.events ++ (f a).events, (f a).result⟩ := by
  show Outcome.bind x f = _
  simp only [Outcome.bind, h]

theorem bind_of_error {x : Outcome α} {e : Failure} (f : α → Outcome β)
    (h : x.result = .error e) : x >>= f = ⟨x.events, .error e⟩ := by
  show Outcome.bind x f = _
  simp only [Outcome.bind, h]

theorem result_bind_of_ok {x : Outcome α} {a : α} (f : α → Outcome β) (h : x.result = .ok a) :
    (x >>= f).result = (f a).result := by
  rw [bind_of_ok f h]

theorem result_bind_of_error {x : Outcome α} {e : Failure} (f : α → Outcome β)
    (h : x.result = .error e) : (x >>= f).result = .error e := by
  rw [bind_of_error f h]

theorem exists_of_result_bind {x : Outcome α} {f : α → Outcome β} {b : β}
    (h : (x >>= f).result = .ok b) : ∃ a, x.result = .ok a ∧ (f a).result = .ok b := by
  cases hx : x.result with
  | error e =>
    rw [result_bind_of_error f hx] at h
    cases h
  | ok a => exact ⟨a, rfl, (result_bind_of_ok f hx).symm.trans h⟩

theorem events_bind_of_ok {x : Outcome α} {a : α} (f : α → Outcome β) (h : x.result = .ok a) :
    (x >>= f).events = x.events ++ (f a).events := by
  rw [bind_of_ok f h]

theorem bind_pure_eq (x : Outcome α) : x.bind Outcome.pure = x := by
  rcases x with ⟨events, r⟩
  cases r with
  | ok a => simp only [Outcome.bind, Outcome.pure, List.append_nil]
  | error e => rfl

theorem bind_pure_eq_map (x : Outcome α) (g : α → β) :
    (x >>= fun a => Pure.pure (g a)) = ⟨x.events, x.result.map g⟩ := by
  show Outcome.bind x (fun a => Outcome.pure (g a)) = _
  rcases x with ⟨events, e | a⟩
  · rfl
  · simp only [Outcome.bind, Outcome.pure, List.append_nil, Except.map]

theorem bind_bind (x : Outcome α) (f : α → Outcome β) (g : β → Outcome γ) :
    (x.bind f).bind g = x.bind fun a => (f a).bind g := by
  rcases x with ⟨events, r⟩
  cases r with
  | error e => rfl
  | ok a =>
    -- whether `g` runs depends on what `f` gives
    cases h : (f a).result with
    | error e => simp only [Outcome.bind, h]
    | ok b => simp only [Outcome.bind, h, List.append_assoc]

instance : LawfulMonad Outcome :=
  LawfulMonad.mk' Outcome bind_pure_eq (fun _ _ => rfl) bind_bind

/-- Work that succeeds for each item succeeds for all. -/
theorem result_mapM {f : α → Outcome β} {g : α → β} (h : ∀ a, (f a).result = .ok (g a))
    (xs : List α) : (xs.mapM f).result = .ok (xs.map g) := by
  induction xs with
  | nil => rfl
  | cons x xs ih =>
    rw [List.mapM_cons, result_bind_of_ok _ (h x), result_bind_of_ok _ ih]
    rfl

/-- The events of work that succeeds for each item. -/
theorem events_mapM {f : α → Outcome β} {g : α → β} (h : ∀ a, (f a).result = .ok (g a))
    (xs : List α) : (xs.mapM f).events = xs.flatMap fun x => (f x).events := by
  induction xs with
  | nil => rfl
  | cons x xs ih =>
    rw [List.mapM_cons, events_bind_of_ok _ (h x), events_bind_of_ok _ (result_mapM h xs), ih,
      events_pure, List.append_nil, List.flatMap_cons]

/-! ### All events -/

/-- Every event of the work is such. -/
def AllEvents (P : Event → Prop) (x : Outcome α) : Prop := ∀ e ∈ x.events, P e

section AllEvents

variable {P : Event → Prop}

theorem allEvents_pure (a : α) : (Pure.pure a : Outcome α).AllEvents P := nofun

theorem allEvents_fail (e : Failure) : (fail e : Outcome α).AllEvents P := nofun

theorem allEvents_emit {e : Event} (h : P e) : (emit e).AllEvents P :=
  List.forall_mem_singleton.mpr h

theorem AllEvents.attempt {x : Outcome α} (h : x.AllEvents P) : x.attempt.AllEvents P := h

theorem AllEvents.bind {x : Outcome α} {f : α → Outcome β} (hx : x.AllEvents P)
    (hf : ∀ a, (f a).AllEvents P) : (x >>= f).AllEvents P := by
  obtain ⟨events, r⟩ := x
  cases r with
  | error e => exact hx
  | ok a => exact List.forall_mem_append.mpr ⟨hx, hf a⟩

end AllEvents

end Outcome

namespace Session

variable {σ α β : Type}

@[simp] theorem run_pure (a : α) (w : σ) : (pure a : Session σ α).run w = (pure a, w) := rfl

@[simp] theorem run_lift (x : Outcome α) (w : σ) : (lift x : Session σ α).run w = (x, w) := rfl

@[simp] theorem run_attempt (x : Session σ α) (w : σ) :
    x.attempt.run w = ((x.run w).1.attempt, (x.run w).2) := rfl

theorem result_attempt (x : Session σ α) (w : σ) :
    (x.attempt.run w).1.result = .ok (x.run w).1.result := rfl

theorem run_bind_of_ok {x : Session σ α} {w : σ} {a : α} (f : α → Session σ β)
    (h : (x.run w).1.result = .ok a) :
    (x >>= f).run w =
      (⟨(x.run w).1.events ++ ((f a).run (x.run w).2).1.events,
        ((f a).run (x.run w).2).1.result⟩, ((f a).run (x.run w).2).2) := by
  show Session.bind x f w = _
  simp only [run] at h ⊢
  rcases hx : x w with ⟨⟨es, r⟩, w'⟩
  rw [hx] at h
  obtain rfl : r = .ok a := h
  simp only [Session.bind, hx]

theorem run_bind_of_error {x : Session σ α} {w : σ} {e : Failure} (f : α → Session σ β)
    (h : (x.run w).1.result = .error e) :
    (x >>= f).run w = (⟨(x.run w).1.events, .error e⟩, (x.run w).2) := by
  show Session.bind x f w = _
  simp only [run] at h ⊢
  rcases hx : x w with ⟨⟨es, r⟩, w'⟩
  rw [hx] at h
  obtain rfl : r = .error e := h
  simp only [Session.bind, hx]

theorem result_bind_of_ok {x : Session σ α} {w : σ} {a : α} (f : α → Session σ β)
    (h : (x.run w).1.result = .ok a) :
    ((x >>= f).run w).1.result = ((f a).run (x.run w).2).1.result := by
  rw [run_bind_of_ok f h]

theorem bind_bind {γ : Type} (x : Session σ α) (f : α → Session σ β) (g : β → Session σ γ) :
    x >>= f >>= g = x >>= fun a => f a >>= g := by
  funext w
  show Session.bind (Session.bind x f) g w = Session.bind x (fun a => Session.bind (f a) g) w
  simp only [Session.bind]
  rcases x w with ⟨⟨events, e | a⟩, w'⟩
  · rfl
  · -- whether `g` runs depends on what `f` gives
    dsimp only
    rcases f a w' with ⟨⟨events', e | b⟩, w''⟩
    · rfl
    · simp only [List.append_assoc]

theorem run_state_bind (f : σ → Session σ α) (w : σ) : (state >>= f).run w = (f w).run w := by
  show Session.bind state f w = f w w
  simp only [Session.bind, state, Outcome.pure]
  rcases f w w with ⟨⟨events, r⟩, w'⟩
  rfl

theorem lift_bind (x : Outcome α) (f : α → Outcome β) :
    (lift (x >>= f) : Session σ β) = lift x >>= fun a => lift (f a) := by
  funext w
  show (Outcome.bind x f, w) = Session.bind (lift x) (fun a => lift (f a)) w
  rcases x with ⟨events, e | a⟩ <;> rfl

/-! ### All events -/

/-- Every event of the work is such, whatever the state. -/
def AllEvents (P : Event → Prop) (x : Session σ α) : Prop := ∀ w, (x.run w).1.AllEvents P

section AllEvents

variable {P : Event → Prop}

theorem allEvents_pure (a : α) : (pure a : Session σ α).AllEvents P :=
  fun _ => Outcome.allEvents_pure a

theorem allEvents_lift {x : Outcome α} (h : x.AllEvents P) :
    (lift x : Session σ α).AllEvents P := fun _ => h

theorem AllEvents.attempt {x : Session σ α} (h : x.AllEvents P) : x.attempt.AllEvents P := h

theorem AllEvents.bind {x : Session σ α} {f : α → Session σ β} (hx : x.AllEvents P)
    (hf : ∀ a, (f a).AllEvents P) : (x >>= f).AllEvents P := by
  intro w
  cases h : (x.run w).1.result with
  | error e =>
    rw [run_bind_of_error f h]
    exact hx w
  | ok a =>
    rw [run_bind_of_ok f h]
    exact List.forall_mem_append.mpr ⟨hx w, hf a _⟩

end AllEvents

/-! ### Work without its events -/

/-- What work comes to and where it leaves the state, its events aside. -/
def bare (x : Session σ α) : ExceptT Failure (StateM σ) α := fun w =>
  ((x.run w).1.result, (x.run w).2)

theorem bare_eq_iff {x y : Session σ α} : x.bare = y.bare ↔
    ∀ w, (x.run w).1.result = (y.run w).1.result ∧ (x.run w).2 = (y.run w).2 :=
  ⟨fun h w => Prod.mk.inj (congrFun h w), fun h => funext fun w => Prod.ext (h w).1 (h w).2⟩

@[simp] theorem bare_pure (a : α) : (pure a : Session σ α).bare = pure a := rfl

@[simp] theorem bare_bind (x : Session σ α) (f : α → Session σ β) :
    (x >>= f).bare = x.bare >>= fun a => (f a).bare := by
  funext w
  show (_, _) = ExceptT.bindCont (fun a => (f a).bare) (x.run w).1.result (x.run w).2
  cases h : (x.run w).1.result with
  | error e =>
    rw [run_bind_of_error f h]
    rfl
  | ok a =>
    rw [run_bind_of_ok f h]
    rfl

theorem bare_lift_congr {x y : Outcome α} (h : x.result = y.result) :
    (lift x : Session σ α).bare = (lift y).bare := by
  funext w
  show (x.result, w) = (y.result, w)
  rw [h]

theorem bare_attempt_congr {x y : Session σ α} (h : x.bare = y.bare) :
    x.attempt.bare = y.attempt.bare := by
  rw [bare_eq_iff] at h ⊢
  intro w
  obtain ⟨hresult, hstate⟩ := h w
  exact ⟨congrArg Except.ok hresult, hstate⟩

theorem bare_lift_of_ok {x : Outcome α} {a : α} (h : x.result = .ok a) :
    (lift x : Session σ α).bare = pure a := by
  funext w
  show (x.result, w) = _
  rw [h]
  rfl

/-! ### Work with some of its events -/

/-- Work of whose events only some are kept. -/
def keeping (P : Event → Bool) (x : Session σ α) : Session σ α := fun w =>
  (⟨(x.run w).1.events.filter P, (x.run w).1.result⟩, (x.run w).2)

section Keeping

variable {P : Event → Bool}

theorem keeping_eq_iff {x y : Session σ α} : x.keeping P = y.keeping P ↔
    ∀ w, (x.run w).1.events.filter P = (y.run w).1.events.filter P ∧
      (x.run w).1.result = (y.run w).1.result ∧ (x.run w).2 = (y.run w).2 := by
  constructor
  · intro h w
    obtain ⟨houtcome, hstate⟩ := Prod.mk.inj (congrFun h w)
    obtain ⟨hevents, hresult⟩ := Outcome.mk.inj houtcome
    exact ⟨hevents, hresult, hstate⟩
  · intro h
    funext w
    obtain ⟨hevents, hresult, hstate⟩ := h w
    simp only [keeping, hevents, hresult, hstate]

/-- What follows may differ for values that the work does not come to. -/
theorem keeping_bind_congr {x y : Session σ α} {f g : α → Session σ β}
    (h : x.keeping P = y.keeping P)
    (hf : ∀ w a, (x.run w).1.result = .ok a → (f a).keeping P = (g a).keeping P) :
    (x >>= f).keeping P = (y >>= g).keeping P := by
  rw [keeping_eq_iff] at h ⊢
  intro w
  obtain ⟨hevents, hresult, hstate⟩ := h w
  cases hx : (x.run w).1.result with
  | error e =>
    rw [run_bind_of_error f hx, run_bind_of_error g (hresult ▸ hx)]
    exact ⟨hevents, rfl, hstate⟩
  | ok a =>
    obtain ⟨hlater, hresult', hstate'⟩ := keeping_eq_iff.mp (hf w a hx) (x.run w).2
    rw [run_bind_of_ok f hx, run_bind_of_ok g (hresult ▸ hx), ← hstate]
    refine ⟨?_, hresult', hstate'⟩
    rw [List.filter_append, List.filter_append, hevents, hlater]

theorem bare_eq_iff_keeping {x y : Session σ α} :
    x.bare = y.bare ↔ x.keeping (fun _ => false) = y.keeping (fun _ => false) := by
  have none (es : List Event) : es.filter (fun _ => false) = [] := by simp
  simp only [bare_eq_iff, keeping_eq_iff, none, true_and]

end Keeping

end Session

end RepoScan
