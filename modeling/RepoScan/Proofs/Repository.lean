import RepoScan.Proofs.Result
import RepoScan.Proofs.Text.Basic
import RepoScan.Proofs.Text.Lines
import RepoScan.Repository

/-!
# Names of repositories

Owner and name of a repository should be words of name characters, since they become parts of
addresses and of paths.  They are, except that the check of a name passes over a line feed at the
end.

* `Repository.isName_iff` : what the check accepts;
* `Address.mem_path` : the path of an address holds no line breaks;
* `Repository.exists_of_ofText`, `exists_of_ofPlace` : where owner and name come from;
* `Repository.isWorded_iff` : **owner and name are words**, exactly unless a line feed stands in an
  identifier that is neither a remote nor an address.
-/

namespace RepoScan

/-! ### Addresses -/

namespace Address

theorem mem_takeScheme {t : Text} {c : CodePoint} (h : c ∈ (takeScheme t).2) : c ∈ t := by
  unfold takeScheme at h
  split at h
  · rename_i d scheme rest hcut
    split at h
    · rw [Text.eq_of_cut? hcut]
      exact List.mem_append_right _ (List.mem_append_right _ h)
    · exact h
  · exact h

theorem mem_takeAuthority {t : Text} {c : CodePoint} (h : c ∈ (takeAuthority t).2) : c ∈ t := by
  unfold takeAuthority at h
  split at h
  · rename_i rest hafter
    rw [Text.after?_eq_some_iff.mp hafter]
    exact List.mem_append_right _ ((List.dropWhile_sublist _).subset h)
  · exact h

theorem mem_withoutParameters {path : Text} {c : CodePoint} (h : c ∈ withoutParameters path) :
    c ∈ path := by
  unfold withoutParameters at h
  split at h
  · rename_i front last hcut
    split at h
    · rw [Text.eq_of_cutLast? hcut]
      rcases List.mem_append.mp h with h | h
      · exact List.mem_append.mpr ((List.mem_append.mp h).imp_right
          fun h => List.mem_cons.mpr (.inl (List.mem_singleton.mp h)))
      · exact List.mem_append_right _
          (List.mem_cons_of_mem _ ((List.takeWhile_sublist _).subset h))
    · exact h
  · exact (List.takeWhile_sublist _).subset h

/-- The path of an address is what is left of the text, without the line breaks in it. -/
theorem mem_path {t : Text} {a : Address} (ha : ofText t = .ok a) {c : CodePoint}
    (h : c ∈ a.path) : c ∈ t ∧ c.isIn "\t\r\n" = false := by
  unfold ofText at ha
  simp only [] at ha
  generalize htrimmed : (t.dropWhile fun c => c.val ≤ 32).filter (fun c => !c.isIn "\t\r\n") =
    trimmed at ha
  obtain ⟨_, -, ha⟩ := exists_of_bind_eq_ok ha
  obtain ⟨_, -, ha⟩ := exists_of_bind_eq_ok ha
  cases ha
  have rest : c ∈ (takeAuthority (takeScheme trimmed).2).2 := by
    refine (List.takeWhile_sublist fun c : CodePoint => c != '?' && c != '#').subset ?_
    split at h
    · exact mem_withoutParameters h
    · exact h
  have inside := mem_takeScheme (mem_takeAuthority rest)
  rw [← htrimmed, List.mem_filter, Bool.not_eq_true'] at inside
  exact ⟨(List.dropWhile_sublist _).subset inside.1, inside.2⟩

end Address

namespace Repository

/-! ### Words -/

/-- Name characters in a row. -/
def IsWord (t : Text) : Prop := t ≠ [] ∧ ∀ c ∈ t, isNameCharacter c = true

instance (t : Text) : Decidable (IsWord t) := inferInstanceAs (Decidable (_ ∧ _))

theorem IsWord.notMem {t : Text} (h : IsWord t) {c : CodePoint}
    (hc : isNameCharacter c = false) : c ∉ t := by
  intro hmem
  rw [h.2 c hmem] at hc
  cases hc

theorem isName_concat (t : Text) (c : CodePoint) :
    isName (t ++ [c]) = true ↔
      if c = ('\n' : CodePoint) then IsWord t else IsWord (t ++ [c]) := by
  have word (t : Text) : (!t.isEmpty && t.all isNameCharacter) = true ↔ IsWord t := by
    rw [Bool.and_eq_true, Bool.not_eq_true', List.isEmpty_eq_false_iff, List.all_eq_true, IsWord]
  unfold isName
  rw [List.getLast?_concat, List.dropLast_concat]
  by_cases hc : c = ('\n' : CodePoint)
  · subst hc
    exact word t
  · have other : some c ≠ some ('\n' : CodePoint) := fun e => hc (Option.some.inj e)
    simp only [other, hc, if_false]
    exact word (t ++ [c])

/-- The check accepts words, and words with a line feed behind them. -/
theorem isName_iff {t : Text} :
    isName t = true ↔ IsWord t ∨ ∃ w, IsWord w ∧ t = w ++ [('\n' : CodePoint)] := by
  rcases t.eq_nil_or_concat with rfl | ⟨t, c, rfl⟩
  · exact ⟨nofun, fun h => h.elim (fun h => absurd rfl h.1) fun ⟨w, _, h⟩ => by simp at h⟩
  · rw [List.concat_eq_append, isName_concat]
    split
    · rename_i hc
      subst hc
      constructor
      · exact fun h => .inr ⟨t, h, rfl⟩
      · rintro (h | ⟨w, hw, h⟩)
        · exact absurd (List.mem_append_right t List.mem_cons_self) (h.notMem (by decide))
        · obtain rfl := List.append_cancel_right h
          exact hw
    · rename_i hc
      constructor
      · exact .inl
      · rintro (h | ⟨w, hw, h⟩)
        · exact h
        · exact absurd (List.append_inj' h rfl).2 fun e => hc (List.cons.inj e).1

theorem isWord_iff_of_isName {t : Text} (h : isName t = true) :
    IsWord t ↔ ('\n' : CodePoint) ∉ t := by
  refine ⟨fun h => h.notMem (by decide), fun hn => ?_⟩
  rcases isName_iff.mp h with hw | ⟨w, -, rfl⟩
  · exact hw
  · exact absurd (List.mem_append_right w List.mem_cons_self) hn

theorem notMem_slash_of_isName {t : Text} (h : isName t = true) :
    t ≠ [] ∧ ('/' : CodePoint) ∉ t := by
  rcases isName_iff.mp h with hw | ⟨w, hw, rfl⟩
  · exact ⟨hw.1, hw.notMem (by decide)⟩
  · refine ⟨List.append_ne_nil_of_left_ne_nil hw.1 _, ?_⟩
    rw [List.mem_append, List.mem_singleton]
    exact fun h => h.elim (hw.notMem (by decide)) (by decide)

/-! ### Where the names come from -/

theorem eq_or_append_bareName (t : Text) : t = bareName t ∨ t = bareName t ++ ".git" := by
  unfold bareName
  split
  · rename_i h
    obtain ⟨front, rfl⟩ := List.isSuffixOf_iff_suffix.mp h
    refine .inr ?_
    have length : (front ++ (".git" : Text)).length - 4 = front.length := by
      rw [List.length_append]
      rfl
    rw [length, List.take_left]
  · exact .inl rfl

theorem mem_feed_bareName {t : Text} :
    ('\n' : CodePoint) ∈ bareName t ↔ ('\n' : CodePoint) ∈ t := by
  rcases eq_or_append_bareName t with h | h
  · rw [← h]
  · have whole : ('\n' : CodePoint) ∈ t ↔ ('\n' : CodePoint) ∈ bareName t ++ ".git" := by rw [← h]
    rw [whole, List.mem_append]
    exact ⟨.inl, fun h => h.elim id fun h => absurd h (by decide)⟩

theorem mem_components {path p : Text} (hp : p ∈ components path) {c : CodePoint} (hc : c ∈ p) :
    c ∈ path := by
  have hmem : c ∈ (Text.splitOn '/' path).flatten :=
    List.mem_flatten.mpr ⟨p, (List.mem_filter.mp hp).1, hc⟩
  rw [Text.flatten_splitOn] at hmem
  exact (List.mem_filter.mp hmem).1

theorem exists_mem_components {path : Text} {c : CodePoint} (hc : c ∈ path)
    (hne : c ≠ ('/' : CodePoint)) : ∃ p ∈ components path, c ∈ p := by
  have hmem : c ∈ (Text.splitOn '/' path).flatten := by
    rw [Text.flatten_splitOn]
    exact List.mem_filter.mpr ⟨hc, bne_iff_ne.mpr hne⟩
  obtain ⟨p, hp, hc⟩ := List.mem_flatten.mp hmem
  refine ⟨p, List.mem_filter.mpr ⟨hp, ?_⟩, hc⟩
  rw [Bool.not_eq_true', List.isEmpty_eq_false_iff]
  exact List.ne_nil_of_mem hc

theorem exists_of_ofValue {v : Value} {r : Repository} (h : ofValue v = .ok r) :
    ∃ t, v = .text t ∧ ofText t = .ok r := by
  cases v with
  | text t => exact ⟨t, rfl, h⟩
  | _ => cases h

theorem exists_of_ofText {given : Text} {r : Repository} (h : ofText given = .ok r) :
    ∃ p, placeOf given (Text.strip given) = .ok p ∧ ofPlace given p = .ok r := by
  unfold ofText at h
  simp only [] at h
  split at h
  · cases h
  · exact exists_of_bind_eq_ok h

theorem exists_of_ofPlace {given : Text} {p : Place} {r : Repository}
    (h : ofPlace given p = .ok r) : ∃ name,
      (if p.isPage then (components p.path).take 2 else components p.path) = [r.owner, name] ∧
        r.name = bareName name ∧ isName r.owner = true ∧ isName r.name = true := by
  unfold ofPlace at h
  split at h
  · cases h
  · simp only [] at h
    split at h
    · rename_i owner name hparts
      split at h
      · rename_i hnames
        cases h
        rw [Bool.and_eq_true] at hnames
        exact ⟨name, hparts, rfl, hnames.1, hnames.2⟩
      · cases h
    · cases h

/-- The identifier is neither a remote nor an address. -/
def IsShort (t : Text) : Prop := ofRemote? t = none ∧ Text.hasInfix "://" t = false

instance (t : Text) : Decidable (IsShort t) := inferInstanceAs (Decidable (_ ∧ _))

theorem placeOf_of_isShort {t : Text} (h : IsShort t) (given : Text) :
    placeOf given t = .ok ⟨homeHost, t, false⟩ := by
  unfold placeOf
  rw [h.1, h.2]
  rfl

theorem notMem_feed_of_ofRemote? {t : Text} {p : Place} (h : ofRemote? t = some p) :
    ('\n' : CodePoint) ∉ p.path := by
  unfold ofRemote? at h
  split at h
  · rename_i host path _
    split at h
    · cases h
    · rename_i hcheck
      cases h
      intro hmem
      exact hcheck (Bool.or_eq_true_iff.mpr (.inr (List.contains_iff_mem.mpr hmem)))
  · cases h

theorem notMem_feed_of_ofAddress {given t : Text} {a : Address} {p : Place}
    (ha : Address.ofText t = .ok a) (h : ofAddress given a = .ok p) :
    ('\n' : CodePoint) ∉ p.path := by
  have path : ('\n' : CodePoint) ∉ a.path := fun hmem =>
    absurd (Address.mem_path ha hmem).2 (by decide)
  unfold ofAddress at h
  split at h
  · cases h
  · split at h
    · cases h
      exact path
    · cases h

/-- A line feed in a remote or an address does not get into the path. -/
theorem notMem_feed_path {given t : Text} {p : Place} (h : placeOf given t = .ok p)
    (hs : ¬ IsShort t) : ('\n' : CodePoint) ∉ p.path := by
  unfold placeOf at h
  cases hr : ofRemote? t with
  | some place =>
    rw [hr] at h
    cases h
    exact notMem_feed_of_ofRemote? hr
  | none =>
    cases hi : Text.hasInfix "://" t with
    | false => exact absurd ⟨hr, hi⟩ hs
    | true =>
      rw [hr, hi] at h
      obtain ⟨a, ha, h⟩ := exists_of_bind_eq_ok h
      exact notMem_feed_of_ofAddress ha h

/-! ### Owner and name -/

/-- Owner and name are words. -/
def IsWorded (r : Repository) : Prop := IsWord r.owner ∧ IsWord r.name

/-- **Owner and name are words**, exactly unless the identifier is a short one that holds a line
feed. -/
theorem isWorded_iff {given : Text} {r : Repository} (h : ofText given = .ok r) :
    r.IsWorded ↔
      ¬ (IsShort (Text.strip given) ∧ ('\n' : CodePoint) ∈ Text.strip given) := by
  obtain ⟨p, hplace, hread⟩ := exists_of_ofText h
  obtain ⟨name, hparts, hbare, howner, hname⟩ := exists_of_ofPlace hread
  rw [IsWorded, isWord_iff_of_isName howner, isWord_iff_of_isName hname, hbare, mem_feed_bareName]
  -- what is not in the path is in neither of its components
  have parts : ∀ q ∈ [r.owner, name], q ∈ components p.path := by
    rw [← hparts]
    split
    · exact fun q hq => List.mem_of_mem_take hq
    · exact fun q hq => hq
  obtain ⟨ownerIn, nameIn⟩ := List.forall_mem_cons.mp parts
  have within (hn : ('\n' : CodePoint) ∉ p.path) :
      ('\n' : CodePoint) ∉ r.owner ∧ ('\n' : CodePoint) ∉ name :=
    ⟨fun h => hn (mem_components ownerIn h),
      fun h => hn (mem_components (List.forall_mem_singleton.mp nameIn) h)⟩
  by_cases hs : IsShort (Text.strip given)
  · rw [placeOf_of_isShort hs] at hplace
    cases hplace
    refine ⟨fun ⟨ho, hn⟩ ⟨_, hmem⟩ => ?_, fun h => within fun hmem => h ⟨hs, hmem⟩⟩
    -- the whole identifier is made of the two components and slashes
    obtain ⟨q, hq, hc⟩ := exists_mem_components hmem (by decide)
    have all : components (Text.strip given) = [r.owner, name] := hparts
    rw [all] at hq
    rcases List.mem_cons.mp hq with rfl | hq
    · exact ho hc
    · rw [List.mem_singleton.mp hq] at hc
      exact hn hc
  · exact iff_of_true (within (notMem_feed_path hplace hs)) fun h => hs h.1

/-- An address may be broken into lines. -/
theorem isWorded_brokenAddress : ofText "https://github.com/acme/sh\nop" = .ok ⟨"acme", "shop"⟩ ∧
    (⟨"acme", "shop"⟩ : Repository).IsWorded := by
  have accepted : ofText "https://github.com/acme/sh\nop" = .ok ⟨"acme", "shop"⟩ := rfl
  exact ⟨accepted, (isWorded_iff accepted).mpr (by decide +kernel)⟩

/-- A line feed behind the owner becomes part of it. -/
theorem not_isWorded_brokenOwner : ofText "acme\n/shop" = .ok ⟨"acme\n", "shop"⟩ ∧
    ¬ (⟨"acme\n", "shop"⟩ : Repository).IsWorded :=
  ⟨rfl, fun h => h.1.notMem (c := '\n') (by decide) (by decide)⟩

end Repository

end RepoScan
