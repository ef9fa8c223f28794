import RepoScan.Files
import RepoScan.Proofs.Json.Text
import RepoScan.Proofs.Path
import RepoScan.Proofs.Result

/-!
# Files that are written

A file is put into a directory that was made for it and is found again at its path, whatever steps
to a parent the path has, as long as the directories stay and nothing else is put at the same place.

* `Files.Keeps` : the directories stay, and `Files.texts_makeDirectory` : so do the files, where a
  directory is made;
* `Files.textAt_put` : what is at a place after a file was put at one;
* `Files.writeFile_eq_ok_iff` : when a text is put into a file;
* `Files.read?_eq_textAt` : **a path leads to its place**, once the directory that it names has been
  made.
-/

namespace RepoScan

namespace Files

/-! ### Directories -/

theorem hasDirectory_iff {fs : Files} {p : Path} : fs.hasDirectory p = true ↔
    (∀ c ∈ p.parts, c = Path.up) ∨ (∃ d ∈ fs.directories, p.root = d.root ∧ p.parts <+: d.parts) ∨
      ∃ f ∈ fs.texts, f.1.root = p.root ∧ f.1.parts ≠ p.parts ∧ p.parts <+: f.1.parts := by
  simp [hasDirectory, holds, Path.leadsTo, or_assoc, and_assoc]

theorem hasDirectory_of_prefix {fs : Files} {root : Text} {parts more : List Text}
    (h : fs.hasDirectory ⟨root, parts ++ more⟩ = true) : fs.hasDirectory ⟨root, parts⟩ = true := by
  rw [hasDirectory_iff] at h ⊢
  rcases h with h | ⟨d, hd, hroot, hpre⟩ | ⟨f, hf, hroot, hne, hpre⟩
  · exact .inl fun c hc => h c (List.mem_append_left more hc)
  · exact .inr (.inl ⟨d, hd, hroot, (List.prefix_append parts more).trans hpre⟩)
  · refine .inr (.inr ⟨f, hf, hroot, ?_, (List.prefix_append parts more).trans hpre⟩)
    -- nothing is longer than the file and still part of its path
    intro heq
    have short := hpre.length_le
    simp only [heq, List.length_append] at short
    obtain rfl : more = [] := List.length_eq_zero_iff.mp (by omega)
    exact hne (heq.trans (List.append_nil parts).symm)

/-- Every directory is still there later. -/
def Keeps (fs later : Files) : Prop := ∀ d, fs.hasDirectory d = true → later.hasDirectory d = true

theorem Keeps.refl (fs : Files) : fs.Keeps fs := fun _ => id

theorem Keeps.trans {fs later last : Files} (h : fs.Keeps later) (h' : later.Keeps last) :
    fs.Keeps last := fun d hd => h' d (h d hd)

theorem keeps_put (fs : Files) (p : Path) (t : Text) : fs.Keeps (fs.put p t) := by
  intro d hd
  rw [hasDirectory_iff] at hd ⊢
  refine hd.imp_right (Or.imp id ?_)
  rintro ⟨f, hf, hroot, hne, hpre⟩
  rw [put]
  dsimp only
  split
  · -- the file keeps its path, whether its text is replaced or not
    refine ⟨_, List.mem_map_of_mem hf, ?_⟩
    split
    · rename_i hq
      exact hq ▸ ⟨hroot, hne, hpre⟩
    · exact ⟨hroot, hne, hpre⟩
  · exact ⟨f, List.mem_append_left _ hf, hroot, hne, hpre⟩

theorem keeps_directory (fs : Files) (p : Path) :
    fs.Keeps { fs with directories := p :: fs.directories } := by
  intro d hd
  rw [hasDirectory_iff] at hd ⊢
  refine hd.imp_right (Or.imp ?_ id)
  rintro ⟨e, he, hroot, hpre⟩
  exact ⟨e, List.mem_cons_of_mem _ he, hroot, hpre⟩

/-! ### Ways to directories -/

/-- Steps to the parent stand only at the start of the components, which are reversed. -/
def IsWalked : List Text → Prop
  | [] => True
  | q :: rest => (q = Path.up → ∀ c ∈ rest, c = Path.up) ∧ IsWalked rest

theorem isWalked_leave {done : List Text} (h : IsWalked done) (hasRoot : Bool) :
    IsWalked (Path.leave hasRoot done) := by
  cases done with
  | nil => cases hasRoot <;> simp [Path.leave, IsWalked]
  | cons q rest =>
    rw [Path.leave]
    split
    · rename_i hq
      exact ⟨fun _ => List.forall_mem_cons.mpr ⟨hq, h.1 hq⟩, h⟩
    · exact h.2

theorem hasDirectory_leave {fs : Files} {root : Text} {done : List Text} (hw : IsWalked done)
    (h : fs.hasDirectory ⟨root, done.reverse⟩ = true) (hasRoot : Bool) :
    fs.hasDirectory ⟨root, (Path.leave hasRoot done).reverse⟩ = true := by
  cases done with
  | nil => cases hasRoot <;> simp [Path.leave, hasDirectory]
  | cons q rest =>
    rw [Path.leave]
    split
    · rename_i hq
      refine hasDirectory_iff.mpr (.inl ?_)
      simp only [List.mem_reverse, List.mem_cons]
      rintro c (rfl | rfl | hc)
      · rfl
      · exact hq
      · exact hw.1 hq c hc
    · rw [List.reverse_cons] at h
      exact hasDirectory_of_prefix h

section Making

variable {path : Path} {done : List Text} {isNew : Bool} {fs made later : Files}

theorem makeFrom_cons {p : Text} {ps : List Text}
    (h : makeFrom path (p :: ps) done isNew fs = .ok made) :
    (p = Path.up ∧
      makeFrom path ps (Path.leave path.isAbsolute done) isNew fs = .ok made) ∨
    (p ≠ Path.up ∧ Path.isLongName p = false ∧ ∃ isNew' fs', fs.Keeps fs' ∧
      fs'.hasDirectory ⟨path.root, (p :: done).reverse⟩ = true ∧
      makeFrom path ps (p :: done) isNew' fs' = .ok made) := by
  rw [makeFrom] at h
  by_cases hup : p = Path.up
  · rw [if_pos hup] at h
    exact .inl ⟨hup, h⟩
  · rw [if_neg hup] at h
    cases hlong : Path.isLongName p with
    | true =>
      rw [if_pos hlong] at h
      cases h
    | false =>
      refine .inr ⟨hup, rfl, ?_⟩
      rw [hlong, if_neg Bool.false_ne_true] at h
      dsimp only at h
      split at h
      · cases h
      · split at h
        · rename_i hd
          exact ⟨isNew, fs, .refl fs, hd, h⟩
        · refine ⟨true, _, keeps_directory fs _, ?_, h⟩
          exact hasDirectory_iff.mpr (.inr (.inl
            ⟨_, List.mem_cons_self, rfl, List.prefix_refl _⟩))

theorem keeps_makeFrom {ps : List Text} (h : makeFrom path ps done isNew fs = .ok made) :
    fs.Keeps made := by
  induction ps generalizing done isNew fs with
  | nil =>
    cases h
    exact .refl _
  | cons p ps ih =>
    rcases makeFrom_cons h with ⟨-, h⟩ | ⟨-, -, isNew', fs', keeps, -, h⟩
    · exact ih h
    · exact keeps.trans (ih h)

theorem keeps_makeDirectory {p : Path} (h : fs.makeDirectory p = .ok made) : fs.Keeps made := by
  obtain ⟨_, -, h⟩ := exists_of_bind_eq_ok h
  exact keeps_makeFrom h

theorem texts_makeFrom {ps : List Text} (h : makeFrom path ps done isNew fs = .ok made) :
    made.texts = fs.texts := by
  fun_induction makeFrom path ps done isNew fs with
  | case1 => exact congrArg texts (Except.ok.inj h).symm
  | case2 _ _ _ _ ih => exact ih h
  | case3 => cases h
  | case4 => cases h
  | case5 _ _ _ _ _ _ _ _ _ _ ih => exact ih h
  | case6 _ _ _ _ _ _ _ _ _ _ ih => exact ih h

/-- No file changes where a directory is made. -/
theorem texts_makeDirectory {p : Path} (h : fs.makeDirectory p = .ok made) :
    made.texts = fs.texts := by
  obtain ⟨_, -, h⟩ := exists_of_bind_eq_ok h
  exact texts_makeFrom h

theorem spotFrom_of_makeFrom {ps : List Text} {last : Text}
    (h : makeFrom path ps done isNew fs = .ok made) (hk : made.Keeps later)
    (hd : fs.hasDirectory ⟨path.root, done.reverse⟩ = true) (hw : IsWalked done)
    (hl : Path.isLongName last = false) :
    spotFrom later path.root (ps ++ [last]) done =
      .at ⟨path.root, Path.collapseParts path.isAbsolute (ps ++ [last]) done⟩ := by
  have there := hk _ (keeps_makeFrom h _ hd)
  -- induction on the way; what was walked so far is a directory
  induction ps generalizing done isNew fs with
  | nil =>
    simp only [List.nil_append, spotFrom, there, hl, Path.collapseParts, Path.isAbsolute,
      Bool.not_true, Bool.false_eq_true, if_false]
    split
    · rfl
    · rfl
  | cons p ps ih =>
    rw [List.cons_append, spotFrom, there, Path.collapseParts]
    rcases makeFrom_cons h with ⟨hup, h⟩ | ⟨hup, hlong, isNew', fs', -, hd', h⟩
    · have hd' := hasDirectory_leave hw hd path.isAbsolute
      rw [if_pos hup, if_pos hup]
      exact ih h hd' (isWalked_leave hw _) (hk _ (keeps_makeFrom h _ hd'))
    · rw [if_neg hup, if_neg hup, hlong]
      exact ih h hd' ⟨fun e => absurd e hup, hw⟩ (hk _ (keeps_makeFrom h _ hd'))

end Making

/-! ### Texts -/

/-- The text of the file at a place. -/
def textAt (fs : Files) (p : Path) : Option Text := (fs.texts.find? fun f => f.1 = p).map (·.2)

/-- What is put at a place is there, and nothing changes elsewhere. -/
theorem textAt_put (fs : Files) (p q : Path) (t : Text) :
    (fs.put p t).textAt q = if q = p.collapse then some t else fs.textAt q := by
  have kept (f : Path × Text) : (if f.1 = p.collapse then (p.collapse, t) else f).1 = f.1 := by
    split
    · rename_i h
      exact h.symm
    · rfl
  rw [textAt, textAt, put]
  cases hany : fs.texts.any fun f => f.1 = p.collapse with
  | true =>
    simp only [if_true, List.find?_map, Function.comp_def, kept, Option.map_map]
    cases hf : fs.texts.find? fun f => f.1 = q with
    | none =>
      have absent : q ≠ p.collapse := by
        rintro rfl
        obtain ⟨f, hmem, hq⟩ := List.any_eq_true.mp hany
        exact List.find?_eq_none.mp hf f hmem hq
      rw [if_neg absent]
      rfl
    | some f =>
      have place : f.1 = q := by simpa using List.find?_some hf
      by_cases hq : q = p.collapse
      · simp [place, hq]
      · simp [place, hq]
  | false =>
    simp only [Bool.false_eq_true, if_false, List.find?_append]
    by_cases hq : q = p.collapse
    · subst hq
      have absent : (fs.texts.find? fun f => f.1 = p.collapse) = none := by
        simpa [List.find?_eq_none] using hany
      simp [absent]
    · simp [hq, Ne.symm hq]

/-- A file can be put at the path. -/
structure Admits (fs : Files) (p : Path) : Prop where
  path : checkPath p = .ok ()
  name : Path.isLongName p.name = false
  free : fs.hasDirectory p.collapse = false

theorem writeFile_eq_ok_iff {fs later : Files} {p : Path} {t : Text} :
    fs.writeFile p t = (.ok (), later) ↔
      fs.Admits p ∧ t.NoSurrogates ∧ later = fs.put p t := by
  have surrogates : (t.any (·.isSurrogate)) = false ↔ t.NoSurrogates := by
    simp [Text.NoSurrogates]
  constructor
  · intro h
    rw [writeFile] at h
    split at h
    · cases h
    · rename_i path
      split_ifs at h with name free noSurrogates
      · cases h
      · cases h
      · cases h
      · cases h
        rw [Bool.not_eq_true] at name free noSurrogates
        exact ⟨⟨path, name, free⟩, surrogates.mp noSurrogates, rfl⟩
  · rintro ⟨⟨path, name, free⟩, noSurrogates, rfl⟩
    simp [writeFile, path, name, free, surrogates.mpr noSurrogates]

/-- However the writing of a file ends, a text is put at its place or nothing changes. -/
theorem writeFile_cases (fs : Files) (p : Path) (t : Text) :
    (fs.writeFile p t).2 = fs ∨ ∃ u, (fs.writeFile p t).2 = fs.put p u := by
  rw [writeFile]
  split
  · exact .inl rfl
  · split_ifs
    · exact .inl rfl
    · exact .inl rfl
    · exact .inr ⟨[], rfl⟩
    · exact .inr ⟨t, rfl⟩

/-- **A path leads to its place**, once the directory that it names has been made. -/
theorem read?_eq_textAt {fs made later last : Files} {p : Path}
    (h : fs.makeDirectory p.parent = .ok made) (ha : later.Admits p) (hk : made.Keeps last) :
    last.read? p = .ok (last.textAt p.collapse) := by
  obtain ⟨_, -, made⟩ := exists_of_bind_eq_ok h
  have parts : p.parts = p.parts.dropLast ++ [p.name] := by
    have hne : p.parts ≠ [] := by
      intro hnil
      have free := ha.free
      simp [hasDirectory, Path.collapse, Path.collapseParts, hnil] at free
    rw [Path.name, List.getLast?_eq_some_getLast hne, Option.getD_some,
      List.dropLast_concat_getLast hne]
  have spot : last.spot p = .at p.collapse := by
    have path := ha.path
    rw [checkPath] at path
    split_ifs at path with encodable null long
    have way := spotFrom_of_makeFrom made hk (by simp [hasDirectory]) trivial ha.name
    rw [spot, if_neg (by simp [encodable, null]), if_neg long, Path.collapse, parts]
    exact way
  rw [read?, spot]
  rfl

end Files

end RepoScan
