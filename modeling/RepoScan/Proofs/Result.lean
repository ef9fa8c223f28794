import Mathlib.Data.List.Forall2

/-!
# Results that may fail

What a result in two steps comes from.

* `exists_of_bind_eq_ok` : the second step goes on from the result of the first one;
* `exists_of_map_eq_ok` : the second step cannot fail;
* `exists_bind_bind_iff` : two steps that do not depend on each other;
* `Fails` : the ways in which a result may fail, step by step;
* `forall₂_of_mapM` : the same step for each of some items;
* `forall₂_replace`, `forall₂_trans` : one of the results is replaced, or all of them are;
* `exists_of_mem_forall₂` : what one of the results comes from.
-/

namespace RepoScan

variable {ε α β γ : Type} {x : Except ε α} {y : Except ε β} {g : α → β → γ}

theorem exists_of_bind_eq_ok {f : α → Except ε β} {b : β} (h : (x >>= f) = .ok b) :
    ∃ a, x = .ok a ∧ f a = .ok b := by
  cases x with
  | error e => cases h
  | ok a => exact ⟨a, rfl, h⟩

theorem exists_of_map_eq_ok {f : α → β} {b : β} (h : x.map f = .ok b) :
    ∃ a, x = .ok a ∧ f a = b := by
  cases x with
  | error e => cases h
  | ok a => exact ⟨a, rfl, Except.ok.inj h⟩

theorem exists_of_isOk (h : x.isOk = true) : ∃ a, x = .ok a := by
  cases x with
  | error e => cases h
  | ok a => exact ⟨a, rfl⟩

theorem toOption_eq_some_iff {a : α} : x.toOption = some a ↔ x = .ok a := by
  cases x with
  | error e => exact iff_of_false nofun nofun
  | ok b => simp [Except.toOption]

/-- Two steps that do not depend on each other succeed, if both of them do. -/
theorem exists_bind_bind_iff :
    (∃ c, (x >>= fun a => y >>= fun b => pure (g a b)) = .ok c) ↔
      (∃ a, x = .ok a) ∧ ∃ b, y = .ok b := by
  constructor
  · rintro ⟨c, h⟩
    obtain ⟨a, ha, h⟩ := exists_of_bind_eq_ok h
    obtain ⟨b, hb, -⟩ := exists_of_bind_eq_ok h
    exact ⟨⟨a, ha⟩, b, hb⟩
  · rintro ⟨⟨a, rfl⟩, b, rfl⟩
    exact ⟨g a b, rfl⟩

/-! ### Ways to fail -/

/-- The result fails in these ways only. -/
def Fails (F : ε → Prop) (x : Except ε α) : Prop := ∀ e, x = .error e → F e

section Fails

variable {F F' : ε → Prop}

theorem fails_ok (a : α) : Fails F (.ok a : Except ε α) := nofun

theorem fails_error {e : ε} (h : F e) : Fails F (.error e : Except ε α) := by
  rintro _ ⟨⟩
  exact h

theorem Fails.mono (hx : Fails F x) (h : ∀ e, F e → F' e) : Fails F' x :=
  fun e he => h e (hx e he)

theorem Fails.bind {f : α → Except ε β} (hx : Fails F x) (hf : ∀ a, Fails F (f a)) :
    Fails F (x >>= f) := by
  cases x with
  | error e => exact fails_error (hx e rfl)
  | ok a => exact hf a

theorem Fails.map (hx : Fails F x) (f : α → β) : Fails F (x.map f) := by
  cases x with
  | error e => exact fails_error (hx e rfl)
  | ok a => exact fails_ok (f a)

theorem fails_mapM {f : α → Except ε β} (hf : ∀ a, Fails F (f a)) (xs : List α) :
    Fails F (xs.mapM f) := by
  induction xs with
  | nil => exact fails_ok []
  | cons x xs ih =>
    rw [List.mapM_cons]
    exact (hf x).bind fun _ => ih.bind fun _ => fails_ok _

end Fails

/-! ### Results for items -/

/-- Where a step succeeds for all items, its results are those of the items, in order. -/
theorem forall₂_of_mapM {f : α → Except ε β} {xs : List α} {ys : List β}
    (h : xs.mapM f = .ok ys) : List.Forall₂ (fun x y => f x = .ok y) xs ys := by
  induction xs generalizing ys with
  | nil =>
    cases h
    exact .nil
  | cons x xs ih =>
    rw [List.mapM_cons] at h
    obtain ⟨y, hy, h⟩ := exists_of_bind_eq_ok h
    obtain ⟨ys', hys, h⟩ := exists_of_bind_eq_ok h
    cases h
    exact .cons hy (ih hys)

theorem mapM_of_forall₂ {f : α → Except ε β} {xs : List α} {ys : List β}
    (h : List.Forall₂ (fun x y => f x = .ok y) xs ys) : xs.mapM f = .ok ys := by
  induction h with
  | nil => rfl
  | cons hx _ ih =>
    rw [List.mapM_cons, hx, ih]
    rfl

/-- Only the item that is replaced has to be looked at. -/
theorem forall₂_replace {R : α → β → Prop} {y y' : β} (hy : ∀ x, R x y → R x y') {xs : List α}
    {before after : List β} (h : List.Forall₂ R xs (before ++ y :: after)) :
    List.Forall₂ R xs (before ++ y' :: after) := by
  induction before generalizing xs with
  | nil =>
    cases h with
    | cons hx hrest => exact .cons (hy _ hx) hrest
  | cons z before ih =>
    cases h with
    | cons hx hrest => exact .cons hx (ih hrest)

theorem exists_forall₂_of_forall {R : α → β → Prop} {xs : List α} (h : ∀ x ∈ xs, ∃ y, R x y) :
    ∃ ys, List.Forall₂ R xs ys := by
  induction xs with
  | nil => exact ⟨[], .nil⟩
  | cons x xs ih =>
    obtain ⟨y, hy⟩ := h x List.mem_cons_self
    obtain ⟨ys, hys⟩ := ih fun x hx => h x (List.mem_cons_of_mem _ hx)
    exact ⟨y :: ys, .cons hy hys⟩

theorem forall₂_trans {γ : Type} {R : α → β → Prop} {S : β → γ → Prop} {T : α → γ → Prop}
    (h : ∀ x y z, R x y → S y z → T x z) {xs : List α} {ys : List β} {zs : List γ}
    (hxy : List.Forall₂ R xs ys) (hyz : List.Forall₂ S ys zs) : List.Forall₂ T xs zs := by
  induction hxy generalizing zs with
  | nil =>
    cases hyz
    exact .nil
  | cons hx _ ih =>
    cases hyz with
    | cons hy hyz => exact .cons (h _ _ _ hx hy) (ih hyz)

theorem exists_of_mem_forall₂ {R : α → β → Prop} {xs : List α} {ys : List β}
    (h : List.Forall₂ R xs ys) {y : β} (hy : y ∈ ys) : ∃ x ∈ xs, R x y := by
  induction h with
  | nil => cases hy
  | cons hx _ ih =>
    rcases List.mem_cons.mp hy with rfl | hy
    · exact ⟨_, List.mem_cons_self, hx⟩
    · obtain ⟨x, hmem, hx⟩ := ih hy
      exact ⟨x, List.mem_cons_of_mem _ hmem, hx⟩

end RepoScan
