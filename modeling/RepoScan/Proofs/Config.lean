import RepoScan.Config
import RepoScan.Proofs.Outcome
import RepoScan.Proofs.Yaml.Alike
import RepoScan.Proofs.Yaml.Keys

/-!
# What a configuration is made of

A configuration comes from entries that are put one after the other, any of which may stop it, and
from the environment.  None of its settings knows of the others: each is what the environment says,
or else what the document gives at its key, or else the default.

* `Config.setting_put`, `Config.same_of_settings` : a configuration is its settings;
* `Config.setting_putEntry`, `Config.setting_putEntries` : what an entry sets, and what all of them
  set;
* `Config.exists_putEntries_iff` : entries can be put where each of them can be read;
* `Config.setting_of_load` : **where each setting comes from**;
* `Config.load_settles` : and what it does not depend on;
* `Config.sameSettings_of_apart` : values that do not hold the mapping that they are entries of are
  the same whatever the order of its keys is, and whatever other keys it has.
-/

namespace RepoScan.Config

open Yaml (Place)

variable {base path : Path} {env : Environment} {es es' : List (Value × Place)}
  {c c' : Config} {k : Key}

/-! ### Settings -/

/-- The key of a setting. -/
def Setting.key : Setting → Key
  | detectorLimit _ => .detectorLimit
  | cloneLimit _ => .cloneLimit
  | clones _ => .clones
  | readsHistory _ => .readsHistory
  | historyDepth _ => .historyDepth
  | secretCommand _ => .secretCommand
  | auditCommand _ => .auditCommand
  | auditStatuses _ => .auditStatuses
  | manifest _ => .manifest
  | ignoreFile _ => .ignoreFile

/-- What is set at a key. -/
def setting (c : Config) : Key → Setting
  | .detectorLimit => .detectorLimit c.detectorLimit
  | .cloneLimit => .cloneLimit c.cloneLimit
  | .clones => .clones c.clones
  | .readsHistory => .readsHistory c.readsHistory
  | .historyDepth => .historyDepth c.historyDepth
  | .secretCommand => .secretCommand c.secretCommand
  | .auditCommand => .auditCommand c.auditCommand
  | .auditStatuses => .auditStatuses c.auditStatuses
  | .manifest => .manifest c.manifest
  | .ignoreFile => .ignoreFile c.ignoreFile

/-- A setting that is put is there, and the others stay. -/
theorem setting_put (c : Config) (s : Setting) (k : Key) :
    (c.put s).setting k = if s.key = k then s else c.setting k := by
  cases s <;> cases k <;> rfl

/-- The settings are equal, or manifests that are given by the same value. -/
inductive Setting.Same : Setting → Setting → Prop
  | refl (s : Setting) : Same s s
  | manifest {p q : Place} (h : p.Alike q) : Same (.manifest p) (.manifest q)

/-- The configurations are equal, but that the same manifest may be given in two documents. -/
structure Same (c c' : Config) : Prop where
  manifest : c.manifest.Alike c'.manifest
  others : { c with manifest := c'.manifest } = c'

theorem Setting.Same.eq {s s' : Setting} (h : s.Same s') (hk : s.key ≠ .manifest) : s = s' := by
  cases h with
  | refl => rfl
  | manifest => exact absurd rfl hk

theorem same_of_settings (h : ∀ k, (c.setting k).Same (c'.setting k)) : c.Same c' := by
  have detectorLimit := Setting.detectorLimit.inj ((h .detectorLimit).eq nofun)
  have cloneLimit := Setting.cloneLimit.inj ((h .cloneLimit).eq nofun)
  have clones := Setting.clones.inj ((h .clones).eq nofun)
  have readsHistory := Setting.readsHistory.inj ((h .readsHistory).eq nofun)
  have historyDepth := Setting.historyDepth.inj ((h .historyDepth).eq nofun)
  have secretCommand := Setting.secretCommand.inj ((h .secretCommand).eq nofun)
  have auditCommand := Setting.auditCommand.inj ((h .auditCommand).eq nofun)
  have auditStatuses := Setting.auditStatuses.inj ((h .auditStatuses).eq nofun)
  have ignoreFile := Setting.ignoreFile.inj ((h .ignoreFile).eq nofun)
  have manifest : c.manifest.Alike c'.manifest := by
    have same := h .manifest
    simp only [setting] at same
    generalize c.manifest = p at same
    generalize c'.manifest = q at same
    cases same with
    | refl => exact .refl _
    | manifest h => exact h
  refine ⟨manifest, ?_⟩
  cases c
  cases c'
  congr

theorem key_of_readSetting {v : Place} {s : Setting} (h : readSetting base k v = .ok s) :
    s.key = k := by
  cases k with
  | clones | readsHistory | manifest =>
    cases h
    rfl
  | historyDepth | ignoreFile =>
    unfold readSetting at h
    dsimp only at h
    split at h
    · obtain ⟨_, -, rfl⟩ := exists_of_map_eq_ok h
      rfl
    · cases h
      rfl
  | _ =>
    obtain ⟨_, -, rfl⟩ := exists_of_map_eq_ok h
    rfl

/-! ### Keys -/

theorem Key.exists_text {v : Value} (h : Key.ofValue? v = some k) :
    ∃ t, v = .text t ∧ (t, k) ∈ Key.table := by
  unfold Key.ofValue? at h
  split at h
  · obtain ⟨front, back, htable, -⟩ := List.lookup_eq_some_iff.mp h
    exact ⟨_, rfl, htable ▸ List.mem_append_right _ List.mem_cons_self⟩
  · cases h

theorem Key.name_eq {t u : Text} (ht : (t, k) ∈ Key.table) (hu : (u, k) ∈ Key.table) : t = u := by
  have once : ∀ a ∈ Key.table, ∀ b ∈ Key.table, a.2 = b.2 → a.1 = b.1 := by decide
  exact once (t, k) ht (u, k) hu rfl

/-- No key comes twice among the entries. -/
def KeysOnce (es : List (Value × Place)) : Prop :=
  es.Pairwise fun e f => ∀ k, Key.ofValue? e.1 = some k → Key.ofValue? f.1 ≠ some k

theorem keysOnce_of_document {fs : Files} {room : Nat} {top : Place}
    (hdoc : fs.document? room path = .ok (some top)) (hes : top.entries? = some es) :
    KeysOnce es := by
  refine (Files.entries_once hdoc hes).imp fun differ k he hf => ?_
  obtain ⟨t, htext, ht⟩ := Key.exists_text he
  obtain ⟨u, hutext, hu⟩ := Key.exists_text hf
  exact differ t htext (Key.name_eq hu ht ▸ hutext)

/-- What entries give at a key. -/
def given? (es : List (Value × Place)) (k : Key) : Option Place :=
  (es.find? fun e => Key.ofValue? e.1 = some k).map (·.2)

theorem given?_cons_of_key {e : Value × Place} (he : Key.ofValue? e.1 = some k) :
    given? (e :: es) k = some e.2 := by
  rw [given?, List.find?_cons_of_pos (by simp [he]), Option.map_some]

theorem given?_cons_of_other {e : Value × Place} (he : Key.ofValue? e.1 ≠ some k) :
    given? (e :: es) k = given? es k := by
  rw [given?, List.find?_cons_of_neg (by simp [he]), given?]

theorem given?_eq_none_iff : given? es k = none ↔ ∀ e ∈ es, Key.ofValue? e.1 ≠ some k := by
  simp [given?]

/-! ### Entries -/

/-- The entry can be read: its value makes a setting, or its key means nothing. -/
def IsReadable (base : Path) (e : Value × Place) : Prop :=
  match Key.ofValue? e.1 with
  | none => True
  | some k => ∃ s, readSetting base k e.2 = .ok s

/-- An entry can be put where it can be read, whatever was put before. -/
theorem exists_putEntry_iff (base : Path) (c : Config) (e : Value × Place) :
    (∃ c', (putEntry base c e).result = .ok c') ↔ IsReadable base e := by
  rw [putEntry, IsReadable]
  cases Key.ofValue? e.1 with
  | none => exact iff_of_true ⟨c, rfl⟩ trivial
  | some k =>
    dsimp only
    rw [Outcome.result_ofExcept]
    constructor
    · rintro ⟨c', h⟩
      obtain ⟨s, hs, -⟩ := exists_of_map_eq_ok h
      exact ⟨s, hs⟩
    · rintro ⟨s, hs⟩
      exact ⟨c.put s, by rw [hs]; rfl⟩

/-- An entry sets what is read from its value at its key, and nothing else. -/
theorem setting_putEntry {e : Value × Place} (h : (putEntry base c e).result = .ok c') (k : Key) :
    if Key.ofValue? e.1 = some k then readSetting base k e.2 = .ok (c'.setting k)
    else c'.setting k = c.setting k := by
  rw [putEntry] at h
  cases hkey : Key.ofValue? e.1 with
  | none =>
    rw [hkey] at h
    cases h
    rw [if_neg nofun]
  | some k' =>
    rw [hkey] at h
    obtain ⟨s, hs, rfl⟩ := exists_of_map_eq_ok h
    rw [setting_put, key_of_readSetting hs]
    by_cases hk : k' = k
    · subst hk
      rw [if_pos rfl, if_pos rfl, hs]
    · rw [if_neg fun heq => hk (Option.some.inj heq), if_neg hk]

/-- Entries can be put where each of them can be read. -/
theorem exists_putEntries_iff (base : Path) (c : Config) (es : List (Value × Place)) :
    (∃ c', (putEntries base c es).result = .ok c') ↔ ∀ e ∈ es, IsReadable base e := by
  induction es generalizing c with
  | nil => exact ⟨fun _ => nofun, fun _ => ⟨c, rfl⟩⟩
  | cons e es ih =>
    rw [List.forall_mem_cons, ← exists_putEntry_iff base c, putEntries, List.foldlM_cons]
    constructor
    · rintro ⟨c', h⟩
      obtain ⟨c₁, h₁, h⟩ := Outcome.exists_of_result_bind h
      exact ⟨⟨c₁, h₁⟩, (ih c₁).mp ⟨c', h⟩⟩
    · rintro ⟨⟨c₁, h₁⟩, hes⟩
      rw [Outcome.result_bind_of_ok _ h₁]
      exact (ih c₁).mpr hes

/-- Entries set what is read from the values that they give, and nothing else. -/
theorem setting_putEntries (honce : KeysOnce es) (h : (putEntries base c es).result = .ok c')
    (k : Key) :
    match given? es k with
    | none => c'.setting k = c.setting k
    | some v => readSetting base k v = .ok (c'.setting k) := by
  induction es generalizing c with
  | nil =>
    cases h
    rfl
  | cons e es ih =>
    obtain ⟨hfirst, honce⟩ := List.pairwise_cons.mp honce
    rw [putEntries, List.foldlM_cons] at h
    obtain ⟨c₁, h₁, h⟩ := Outcome.exists_of_result_bind h
    have first := setting_putEntry h₁ k
    have rest := ih honce h
    by_cases he : Key.ofValue? e.1 = some k
    · -- the key does not come again
      rw [given?_eq_none_iff.mpr fun f hf => hfirst f hf k he] at rest
      rw [if_pos he] at first
      rw [given?_cons_of_key he, rest]
      exact first
    · rw [if_neg he] at first
      rw [given?_cons_of_other he, ← first]
      exact rest

/-! ### The environment -/

/-- What the environment sets at a key, whatever the document says. -/
def override? (env : Environment) : Key → Option Setting
  | .detectorLimit => ((valueOf? env limitVariable).bind Number.readReal?).map .detectorLimit
  | .clones => if (valueOf? env noCloneVariable).any meansYes then some (.clones false) else none
  | _ => none

/-- The environment stops nothing, and has the last word on what it sets. -/
theorem result_putEnvironment (env : Environment) (c : Config) :
    ∃ c', (c.putEnvironment env).result = .ok c' ∧
      ∀ k, c'.setting k = (override? env k).getD (c.setting k) := by
  have limit : ∃ c₁, (c.putLimit env).result = .ok c₁ ∧ ∀ k, c₁.setting k =
      if k = .detectorLimit then (override? env k).getD (c.setting k) else c.setting k := by
    unfold putLimit override?
    cases valueOf? env limitVariable with
    | none => exact ⟨c, rfl, fun k => by cases k <;> rfl⟩
    | some t =>
      cases hreal : Number.readReal? t with
      | none => exact ⟨c, by simp only [hreal]; rfl, fun k => by cases k <;> simp [hreal]⟩
      | some x =>
        exact ⟨{ c with detectorLimit := x }, by simp only [hreal]; rfl,
          fun k => by cases k <;> simp [hreal, setting]⟩
  obtain ⟨c₁, hlimit, hsettings⟩ := limit
  refine ⟨_, by rw [putEnvironment, Outcome.result_bind_of_ok _ hlimit]; rfl, fun k => ?_⟩
  have settings := hsettings k
  by_cases hno : (valueOf? env noCloneVariable).any meansYes
  · rw [if_pos hno]
    cases k <;> simp_all [setting, override?]
  · rw [if_neg hno, settings]
    cases k <;> simp [setting, override?, hno]

/-! ### Documents -/

/-- Where the setting of a key comes from: the environment has the last word, then the document, if
it gives anything at the key. -/
def Settles (base : Path) (env : Environment) (es : List (Value × Place)) (k : Key) (s : Setting) :
    Prop :=
  match override? env k, given? es k with
  | some s', _ => s = s'
  | none, some v => readSetting base k v = .ok s
  | none, none => s = default.setting k

variable {fs fs' : Files} {room : Nat} {top top' : Place}

theorem result_ofDocument (hdoc : fs.document? room path = .ok (some top))
    (hes : top.entries? = some es) :
    (ofDocument room fs path).result = (putEntries path.parent default es).result := by
  have entries : documentEntries path top = .ok es := by rw [documentEntries, hes]
  rw [ofDocument, hdoc, Outcome.result_bind_of_ok _ (Outcome.result_ofExcept _)]
  dsimp only
  rw [entries, Outcome.result_bind_of_ok _ (Outcome.result_ofExcept _)]

theorem exists_of_load (hdoc : fs.document? room path = .ok (some top))
    (hes : top.entries? = some es) (h : (load room fs (some path) env).result = .ok c) :
    ∃ c₀, (putEntries path.parent default es).result = .ok c₀ ∧
      ∀ k, c.setting k = (override? env k).getD (c₀.setting k) := by
  obtain ⟨c₀, h₀, h⟩ := Outcome.exists_of_result_bind h
  obtain ⟨c', h', hsettings⟩ := result_putEnvironment env c₀
  obtain rfl := Except.ok.inj (h'.symm.trans h)
  exact ⟨c₀, (result_ofDocument hdoc hes).symm.trans h₀, hsettings⟩

theorem exists_load_iff (hdoc : fs.document? room path = .ok (some top))
    (hes : top.entries? = some es) (env : Environment) :
    (∃ c, (load room fs (some path) env).result = .ok c) ↔
      ∀ e ∈ es, IsReadable path.parent e := by
  rw [← exists_putEntries_iff path.parent default]
  constructor
  · rintro ⟨c, h⟩
    obtain ⟨c₀, h₀, -⟩ := exists_of_load hdoc hes h
    exact ⟨c₀, h₀⟩
  · rintro ⟨c₀, h₀⟩
    obtain ⟨c, h, -⟩ := result_putEnvironment env c₀
    rw [← result_ofDocument hdoc hes] at h₀
    exact ⟨c, (Outcome.result_bind_of_ok _ h₀).trans h⟩

/-- **Where each setting comes from.** -/
theorem setting_of_load (hdoc : fs.document? room path = .ok (some top))
    (hes : top.entries? = some es) (h : (load room fs (some path) env).result = .ok c) (k : Key) :
    Settles path.parent env es k (c.setting k) := by
  obtain ⟨c₀, h₀, hsettings⟩ := exists_of_load hdoc hes h
  have fromEntries := setting_putEntries (keysOnce_of_document hdoc hes) h₀ k
  rw [Settles, hsettings k]
  cases override? env k with
  | some s => rfl
  | none =>
    generalize given? es k = v? at fromEntries
    cases v? <;> exact fromEntries

/-! ### The same values -/

section Like

variable {ordered : Prop} {v w : Place}

theorem commandWords_yields (h : Place.Like ordered v w) :
    Place.Yields ordered (commandWords v) (commandWords w) := by
  have items := h.items?
  unfold commandWords
  generalize v.items? = is at items
  generalize w.items? = js at items
  cases items with
  | none => exact h.toText.map Text.words
  | some items => exact .mapM (items.imp fun _ _ hij => hij.toText)

theorem statuses_yields (h : Place.Like ordered v w) :
    Place.Yields ordered (statuses v) (statuses w) := by
  have items := h.items?
  unfold statuses
  generalize v.items? = is at items
  generalize w.items? = js at items
  cases items with
  | none => exact .of_eq (by rw [h.toInt_eq])
  | some items => exact .mapM (items.imp fun _ _ hij => .of_eq hij.toInt_eq)

theorem readSetting_yields (h : Place.Like ordered v w) (base : Path) (hk : k ≠ .manifest) :
    Place.Yields ordered (readSetting base k v) (readSetting base k w) := by
  cases k with
  | detectorLimit | cloneLimit => exact .of_eq (by rw [readSetting, readSetting, h.toReal_eq])
  | clones | readsHistory => exact .of_eq (by rw [readSetting, readSetting, h.isTruthy_eq])
  | historyDepth =>
    exact .of_eq (by rw [readSetting, readSetting, h.isTruthy_eq, h.toInt_eq])
  | secretCommand | auditCommand => exact (commandWords_yields h).map _
  | auditStatuses => exact (statuses_yields h).map _
  | manifest => exact absurd rfl hk
  | ignoreFile =>
    rw [readSetting, readSetting, h.isTruthy_eq]
    split
    · exact h.toText.map _
    · exact .refl _

/-- Of two places that hold the same value a key reads the same setting. -/
theorem exists_readSetting (h : Place.Like ordered v w) (base : Path) {s : Setting}
    (hs : readSetting base k v = .ok s) :
    ∃ s', readSetting base k w = .ok s' ∧ (ordered → s.Same s') := by
  by_cases hk : k = .manifest
  · subst hk
    cases hs
    refine ⟨.manifest w, rfl, fun ho => .manifest ?_⟩
    rwa [eq_true ho] at h
  · obtain ⟨s', hs', heq⟩ := readSetting_yields h base hk s hs
    exact ⟨s', hs', fun ho => heq ho ▸ .refl s⟩

theorem IsReadable.of_like {key : Value} (h : Place.Like ordered v w)
    (hv : IsReadable base (key, v)) : IsReadable base (key, w) := by
  unfold IsReadable at hv ⊢
  dsimp only at hv ⊢
  cases hkey : Key.ofValue? key with
  | none =>
    rw [hkey] at hv
    exact hv
  | some k =>
    rw [hkey] at hv
    obtain ⟨s, hs⟩ := hv
    obtain ⟨s', hs', -⟩ := exists_readSetting h base hs
    exact ⟨s', hs'⟩

end Like

/-- The same values are given at the known keys, whatever the order of the keys is and whatever
other keys there are. -/
def SameSettings (es es' : List (Value × Place)) : Prop :=
  ∀ k, Option.Rel Place.Alike (given? es k) (given? es' k)

theorem SameSettings.settles_same (h : SameSettings es es') {s s' : Setting}
    (hs : Settles base env es k s) (hs' : Settles base env es' k s') : s.Same s' := by
  have values := h k
  unfold Settles at hs hs'
  cases ho : override? env k with
  | some s₀ =>
    rw [ho] at hs hs'
    exact hs.trans hs'.symm ▸ .refl s
  | none =>
    rw [ho] at hs hs'
    generalize given? es k = v? at hs values
    generalize given? es' k = w? at hs' values
    cases values with
    | none => exact hs.trans hs'.symm ▸ .refl s
    | some alike =>
      obtain ⟨s₁, hs₁, hsame⟩ := exists_readSetting alike base hs
      obtain rfl := Except.ok.inj (hs₁.symm.trans hs')
      exact hsame trivial

theorem seen_of_given? {v : Place} (hes : top.entries? = some es) (hv : given? es k = some v) :
    v.parts = top.parts ∧ v.room = top.room := by
  rw [given?, Option.map_eq_some_iff] at hv
  obtain ⟨e, he, rfl⟩ := hv
  have hmem := List.mem_of_find?_eq_some he
  unfold Place.entries? at hes
  split at hes
  · obtain rfl := Option.some.inj hes
    obtain ⟨_, -, rfl⟩ := List.mem_map.mp hmem
    exact ⟨rfl, rfl⟩
  · cases hes

/-- Two documents are the same but for the order of the keys of their mappings and for other keys:
parts are related that match below the mappings, and the values at the known keys are. -/
structure MatchesBelow (top : Place) (es : List (Value × Place)) (top' : Place)
    (es' : List (Value × Place)) (R : Nat → Nat → Prop) : Prop where
  room : top.room = top'.room
  left : ∀ {i j j'}, R i j → R i j' → j = j'
  right : ∀ {i i' j}, R i j → R i' j → i = i'
  parts : ∀ {i j}, R i j → i ≠ top.index →
    (top.parts.getD i (.scalar .null)).Matches True R (top'.parts.getD j (.scalar .null))
  given : ∀ k, Option.Rel (fun v w => R v.index w.index) (given? es k) (given? es' k)

/-- A value at a known key holds the mapping that it is a value of. -/
def HoldsItself (top : Place) (es : List (Value × Place)) : Prop :=
  ∃ k v, given? es k = some v ∧ Place.Holds top.parts top.index v.index

/-- **Neither order nor other keys matter to values that do not hold the mapping itself.** -/
theorem sameSettings_of_apart {R : Nat → Nat → Prop} (h : MatchesBelow top es top' es' R)
    (hes : top.entries? = some es) (hes' : top'.entries? = some es')
    (hapart : ¬ HoldsItself top es) : SameSettings es es' := by
  intro k
  have corresponding := h.given k
  have seen := fun v => seen_of_given? (k := k) (v := v) hes
  have seen' := fun v => seen_of_given? (k := k) (v := v) hes'
  have apart : ∀ v, given? es k = some v → ¬ Place.Holds top.parts top.index v.index :=
    fun v hv hholds => hapart ⟨k, v, hv, hholds⟩
  have parts := @h.parts
  generalize given? es k = v? at corresponding seen apart
  generalize given? es' k = w? at corresponding seen'
  cases corresponding with
  | none => exact .none
  | @some v w hvw =>
    obtain ⟨hv, hvroom⟩ := seen v rfl
    obtain ⟨hw, hwroom⟩ := seen' w rfl
    have apart := apart v rfl
    rw [← hv] at parts apart
    rw [← hw] at parts
    have hroom : v.room = w.room := hvroom.trans (h.room.trans hwroom.symm)
    exact .some (Place.like_of_apart (R := R) hroom h.left h.right parts hvw apart)

/-- Mappings that are the same up to the order of entries can both be read, or neither. -/
theorem forall_isReadable_of_resembles (h : top.Resembles top') (hes : top.entries? = some es)
    (hes' : top'.entries? = some es') (hread : ∀ e ∈ es, IsReadable base e) :
    ∀ e ∈ es', IsReadable base e := by
  obtain ⟨fs, hfs, gs, hgs, hlike⟩ := h.entries? hes
  obtain rfl := Option.some.inj (hfs.symm.trans hes')
  have hread : ∀ e ∈ gs, IsReadable base e := fun e he => hread e (hgs.perm.mem_iff.mpr he)
  clear hgs hfs hes hes'
  induction hlike with
  | nil => exact nofun
  | @cons e f _ _ hef _ ih =>
    obtain ⟨hfirst, hrest⟩ := List.forall_mem_cons.mp hread
    refine List.forall_mem_cons.mpr ⟨?_, ih hrest⟩
    obtain ⟨key, w⟩ := f
    obtain ⟨key', v⟩ := e
    obtain ⟨rfl, hvw⟩ := hef
    exact hfirst.of_like hvw

/-- **Settings do not depend on each other.**  What is loaded from a document is at each key what
the environment sets, or else what is read from the value there, or else the default; it is loaded
where the value at each known key can be read, whatever the environment is.  Another document with
the same values at the known keys comes to the same, and these do not change with the order of keys
or with other keys, unless one of them holds the mapping itself.  A document that differs in the
order of keys can always be loaded as well. -/
theorem load_settles (hdoc : fs.document? room path = .ok (some top))
    (hes : top.entries? = some es) (env : Environment) :
    (∀ c, (load room fs (some path) env).result = .ok c →
      ∀ k, Settles path.parent env es k (c.setting k)) ∧
    ((∃ c, (load room fs (some path) env).result = .ok c) ↔ ∀ e ∈ es, IsReadable path.parent e) ∧
    ∀ fs' top' es', fs'.document? room path = .ok (some top') → top'.entries? = some es' →
      (SameSettings es es' → ∀ c c', (load room fs (some path) env).result = .ok c →
        (load room fs' (some path) env).result = .ok c' → c.Same c') ∧
      (∀ R, MatchesBelow top es top' es' R → ¬ HoldsItself top es → SameSettings es es') ∧
      (top.Resembles top' → ∀ env', (∃ c, (load room fs (some path) env).result = .ok c) ↔
        ∃ c', (load room fs' (some path) env').result = .ok c') := by
  refine ⟨fun c h => setting_of_load hdoc hes h, exists_load_iff hdoc hes env, ?_⟩
  intro fs' top' es' hdoc' hes'
  refine ⟨fun hsame c c' h h' => same_of_settings fun k => ?_,
    fun R h hapart => sameSettings_of_apart h hes hes' hapart, fun hlike env' => ?_⟩
  · exact hsame.settles_same (setting_of_load hdoc hes h k) (setting_of_load hdoc' hes' h' k)
  · rw [exists_load_iff hdoc hes env, exists_load_iff hdoc' hes' env']
    exact ⟨forall_isReadable_of_resembles hlike hes hes',
      forall_isReadable_of_resembles hlike.symm hes' hes⟩

/-! ### Samples -/

/-- The file of a document. -/
def samplePath : Path := ⟨[], ["devsecguard.yml"]⟩

/-- A document and nothing else. -/
def sampleFiles (t : Text) : Files := ⟨[(samplePath, t)], []⟩

/-- Two parts of the kinds that samples have are the same. -/
def isSamePart : Yaml.Part → Yaml.Part → Bool
  | .scalar (.text t), .scalar (.text u) => t == u
  | .scalar (.bool b), .scalar (.bool c) => b == c
  | .scalar (.int i), .scalar (.int j) => i == j
  | .map es, .map fs => es == fs
  | _, _ => false

theorem eq_of_isSamePart {a b : Yaml.Part} (h : isSamePart a b = true) : a = b := by
  unfold isSamePart at h
  split at h
  · rw [eq_of_beq h]
  · rw [eq_of_beq h]
  · rw [eq_of_beq h]
  · rw [eq_of_beq h]
  · cases h

/-- The place of the first of these parts. -/
def sampleTop (ps : List Yaml.Part) : Place := ⟨ps.toArray, 0, 985⟩

/-- The document of the text has these parts, the first one as its root. -/
def sampleIs (t : Text) (ps : List Yaml.Part) : Bool :=
  match (sampleFiles t).document? 985 samplePath with
  | .ok (some top) => top.index == 0 && top.room == 985 && top.parts.toList.isEqv ps isSamePart
  | _ => false

theorem document?_of_sampleIs {t : Text} {ps : List Yaml.Part} (h : sampleIs t ps = true) :
    (sampleFiles t).document? 985 samplePath = .ok (some (sampleTop ps)) := by
  have same : ∀ {qs rs : List Yaml.Part}, qs.isEqv rs isSamePart = true → qs = rs := by
    intro qs
    induction qs with
    | nil =>
      intro rs h
      cases rs with
      | nil => rfl
      | cons r rs => cases h
    | cons q qs ih =>
      intro rs h
      cases rs with
      | nil => cases h
      | cons r rs =>
        rw [List.isEqv, Bool.and_eq_true] at h
        rw [eq_of_isSamePart h.1, ih h.2]
  unfold sampleIs at h
  split at h
  · rename_i top hdoc
    rw [Bool.and_eq_true, Bool.and_eq_true, beq_iff_eq, beq_iff_eq] at h
    obtain ⟨⟨hindex, hroom⟩, hparts⟩ := h
    obtain ⟨⟨parts⟩, index, room⟩ := top
    rw [hdoc, sampleTop, ← same hparts, ← hindex, ← hroom]
  · cases h

/-- The parts of the document `history_depth: 5`, `clone: no`. -/
def sampleParts : List Yaml.Part := [.map [(1, 2), (3, 4)], .scalar (.text "history_depth"),
  .scalar (.int 5), .scalar (.text "clone"), .scalar (.bool false)]

/-- The parts of the same document with its keys in another order and one more. -/
def reorderedParts : List Yaml.Part := [.map [(1, 2), (3, 4), (5, 6)], .scalar (.text "clone"),
  .scalar (.bool false), .scalar (.text "other"), .scalar (.int 1), .scalar (.text "history_depth"),
  .scalar (.int 5)]

/-- The entries of the sample documents. -/
def sampleEntries (ps : List Yaml.Part) : List (Value × Place) :=
  ((sampleTop ps).entries?).getD []

theorem matchesBelow_sampleParts :
    MatchesBelow (sampleTop sampleParts) (sampleEntries sampleParts) (sampleTop reorderedParts)
      (sampleEntries reorderedParts) fun i j => (i, j) ∈ [(2, 6), (4, 2)] := by
  have once : ∀ a ∈ [(2, 6), (4, 2)], ∀ b ∈ [(2, 6), (4, 2)], a.1 = b.1 ↔ a.2 = b.2 := by decide
  have parts : ∀ a ∈ [(2, 6), (4, 2)], (sampleParts.toArray.getD a.1 (.scalar .null)).Matches True
      (fun i j => (i, j) ∈ [(2, 6), (4, 2)])
      (reorderedParts.toArray.getD a.2 (.scalar .null)) := by
    simp only [List.forall_mem_cons]
    exact ⟨.scalar _, .scalar _, by simp⟩
  refine ⟨rfl, fun h h' => (once _ h _ h').mp rfl, fun h h' => (once _ h _ h').mpr rfl,
    fun h _ => parts _ h, fun k => ?_⟩
  cases k with
  | historyDepth => exact .some (List.mem_cons_self)
  | clones => exact .some (List.mem_cons_of_mem _ List.mem_cons_self)
  | _ => exact .none

theorem not_holdsItself_sampleParts :
    ¬ HoldsItself (sampleTop sampleParts) (sampleEntries sampleParts) := by
  -- the values are scalars, which nothing is inside of
  have apart {i : Nat} (hi : i = 2 ∨ i = 4) : ¬ Place.Holds sampleParts.toArray 0 i := by
    intro h
    cases h with
    | here => omega
    | inside hc _ => rcases hi with rfl | rfl <;> cases hc
  rintro ⟨k, v, hv, hholds⟩
  cases k with
  | historyDepth =>
    obtain rfl := Option.some.inj hv
    exact apart (.inl rfl) hholds
  | clones =>
    obtain rfl := Option.some.inj hv
    exact apart (.inr rfl) hholds
  | _ => cases hv

/-- Neither the order of two keys nor one that means nothing matters. -/
theorem load_settles_reordered : ∃ c c',
    (load 985 (sampleFiles "history_depth: 5\nclone: no\n") (some samplePath) []).result = .ok c ∧
    (load 985 (sampleFiles "clone: no\nother: 1\nhistory_depth: 5\n") (some samplePath) []).result =
      .ok c' ∧ c.Same c' := by
  have hdoc : sampleIs "history_depth: 5\nclone: no\n" sampleParts = true := by
    simp only [sampleIs, Files.document?, Yaml.Document.read_eq]
    decide +kernel
  have hdoc' : sampleIs "clone: no\nother: 1\nhistory_depth: 5\n" reorderedParts = true := by
    simp only [sampleIs, Files.document?, Yaml.Document.read_eq]
    decide +kernel
  obtain ⟨-, hload, hother⟩ := load_settles (document?_of_sampleIs hdoc) rfl []
  obtain ⟨-, hload', -⟩ := load_settles (document?_of_sampleIs hdoc') rfl []
  obtain ⟨c, hc⟩ := hload.mpr (List.forall_mem_cons.mpr ⟨⟨_, rfl⟩,
    List.forall_mem_singleton.mpr ⟨_, rfl⟩⟩)
  obtain ⟨c', hc'⟩ := hload'.mpr (List.forall_mem_cons.mpr ⟨⟨_, rfl⟩,
    List.forall_mem_cons.mpr ⟨trivial, List.forall_mem_singleton.mpr ⟨_, rfl⟩⟩⟩)
  obtain ⟨hequal, hsame, -⟩ := hother _ _ _ (document?_of_sampleIs hdoc') rfl
  exact ⟨c, c', hc, hc', hequal (hsame _ matchesBelow_sampleParts not_holdsItself_sampleParts)
    c c' hc hc'⟩

/-- A document that is a value of its own. -/
def ownText : Text := "&all\nclone: true\nsecret_scan_command: *all\n"

/-- The same document with its keys the other way round. -/
def ownTextReordered : Text := "&all\nsecret_scan_command: *all\nclone: true\n"

/-- The parts of the one. -/
def ownParts : List Yaml.Part := [.map [(1, 2), (3, 0)], .scalar (.text "clone"),
  .scalar (.bool true), .scalar (.text "secret_scan_command")]

/-- The parts of the other one. -/
def ownPartsReordered : List Yaml.Part := [.map [(1, 0), (2, 3)],
  .scalar (.text "secret_scan_command"), .scalar (.text "clone"), .scalar (.bool true)]

theorem resembles_ownParts :
    (sampleTop ownParts).Resembles (sampleTop ownPartsReordered) := by
  have once : ∀ a ∈ [(0, 0), (1, 2), (2, 3), (3, 1)], ∀ b ∈ [(0, 0), (1, 2), (2, 3), (3, 1)],
      a.1 = b.1 ↔ a.2 = b.2 := by decide
  have parts : ∀ a ∈ [(0, 0), (1, 2), (2, 3), (3, 1)],
      (ownParts.toArray.getD a.1 (.scalar .null)).Matches False
        (fun i j => (i, j) ∈ [(0, 0), (1, 2), (2, 3), (3, 1)])
        (ownPartsReordered.toArray.getD a.2 (.scalar .null)) := by
    simp only [List.forall_mem_cons]
    refine ⟨.map ⟨[(3, 0), (1, 2)], ⟨.swap _ _ _, False.elim⟩, ?_⟩, .scalar _, .scalar _,
      .scalar _, nofun⟩
    exact .cons ⟨by decide, by decide⟩ (.cons ⟨by decide, by decide⟩ .nil)
  exact ⟨rfl, fun i j => (i, j) ∈ [(0, 0), (1, 2), (2, 3), (3, 1)],
    ⟨fun h h' => (once _ h _ h').mp rfl, fun h h' => (once _ h _ h').mpr rfl,
      fun h => parts _ h⟩, by decide⟩

/-- Where the mapping is a value of its own, the order of its keys is seen: they are shown in the
words of a command.  No other mapping is in the documents. -/
theorem load_ne_of_own_value : ∃ top top' c c',
    (sampleFiles ownText).document? 985 samplePath = .ok (some top) ∧
    (sampleFiles ownTextReordered).document? 985 samplePath = .ok (some top') ∧
    top.Resembles top' ∧
    (∀ i es, top.parts.getD i (.scalar .null) = .map es → i = top.index) ∧
    (load 985 (sampleFiles ownText) (some samplePath) []).result = .ok c ∧
    (load 985 (sampleFiles ownTextReordered) (some samplePath) []).result = .ok c' ∧
    c.secretCommand ≠ c'.secretCommand := by
  have hdoc : sampleIs ownText ownParts = true := by
    simp only [sampleIs, Files.document?, Yaml.Document.read_eq]
    decide +kernel
  have hdoc' : sampleIs ownTextReordered ownPartsReordered = true := by
    simp only [sampleIs, Files.document?, Yaml.Document.read_eq]
    decide +kernel
  have hload : (load 985 (sampleFiles ownText) (some samplePath) []).result.isOk = true := by
    simp only [load, ofDocument, Files.document?, Yaml.Document.read_eq]
    decide +kernel
  have hload' :
      (load 985 (sampleFiles ownTextReordered) (some samplePath) []).result.isOk = true := by
    simp only [load, ofDocument, Files.document?, Yaml.Document.read_eq]
    decide +kernel
  have hne : (load 985 (sampleFiles ownText) (some samplePath) []).result.toOption.map
        (·.secretCommand) ≠
      (load 985 (sampleFiles ownTextReordered) (some samplePath) []).result.toOption.map
        (·.secretCommand) := by
    simp only [load, ofDocument, Files.document?, Yaml.Document.read_eq]
    decide +kernel
  obtain ⟨c, hc⟩ := exists_of_isOk hload
  obtain ⟨c', hc'⟩ := exists_of_isOk hload'
  refine ⟨_, _, c, c', document?_of_sampleIs hdoc, document?_of_sampleIs hdoc',
    resembles_ownParts, fun i es hi => ?_, hc, hc', ?_⟩
  · -- the other parts are scalars
    match i with
    | 0 => rfl
    | 1 | 2 | 3 => cases hi
    | i + 4 =>
      rw [Array.getD_eq_getD_getElem?] at hi
      cases hi
  · intro heq
    rw [hc, hc'] at hne
    exact hne (congrArg some heq)

end RepoScan.Config
