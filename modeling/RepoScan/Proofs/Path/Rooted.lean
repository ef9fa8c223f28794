import RepoScan.Proofs.Path

/-!
# Paths in a directory

Whether a path lies in a directory is asked of the components of both, not of their texts.  So any
spelling of a path in the directory is found to lie in it, and a path whose text only begins with
the text of the directory is not.

* `Path.isRooted_ofText` : an absolute path that is read from a text is in normal form;
* `Path.relativeTo?_below` : the text of a directory, a slash and any relative text spell what the
  relative text spells, seen from the directory;
* `Path.relativeTo?_beside` : without the slash the last name of the directory goes on, and the path
  does not lie in it.
-/

namespace RepoScan

theorem Text.join_concat (sep : Text) {ps : List Text} (hne : ps ≠ []) (last : Text) :
    join sep (ps ++ [last]) = join sep ps ++ (sep ++ last) := by
  induction ps with
  | nil => exact absurd rfl hne
  | cons p ps ih =>
    cases ps with
    | nil =>
      show List.intercalate sep [p, last] = List.intercalate sep [p] ++ _
      rw [List.intercalate_cons_cons, List.intercalate_singleton, List.intercalate_singleton,
        List.append_assoc]
    | cons q ps =>
      have rest := ih (List.cons_ne_nil q ps)
      simp only [join, List.cons_append] at rest ⊢
      rw [List.intercalate_cons_cons, rest, List.intercalate_cons_cons]
      simp only [List.append_assoc]

namespace Path

/-! ### Names -/

/-- A component of a path. -/
def IsName (c : Text) : Prop := c ≠ [] ∧ c ≠ ("." : Text) ∧ ('/' : CodePoint) ∉ c

/-- The components that a text spells. -/
def partsOf (t : Text) : List Text := (ofText t).parts

theorem isName_of_mem_partsOf {t c : Text} (h : c ∈ partsOf t) : IsName c := by
  obtain ⟨hmem, hkept⟩ := List.mem_filter.mp h
  rw [Bool.and_eq_true, Bool.not_eq_true', List.isEmpty_eq_false_iff, bne_iff_ne] at hkept
  exact ⟨hkept.1, hkept.2, Text.notMem_of_mem_splitOn hmem⟩

theorem partsOf_append_slash (s t : Text) :
    partsOf (s ++ ('/' : CodePoint) :: t) = partsOf s ++ partsOf t := by
  show List.filter _ (Text.splitOn '/' (s ++ ('/' : CodePoint) :: t)) = _
  rw [Text.splitOn_append_cons, List.filter_append]
  rfl

theorem partsOf_slash (t : Text) : partsOf (('/' : CodePoint) :: t) = partsOf t :=
  partsOf_append_slash [] t

theorem partsOf_of_isName {c : Text} (h : IsName c) : partsOf c = [c] := by
  rw [partsOf, ofText_of_notMem h.2.2, if_neg fun e => e.elim h.1 h.2.1]

theorem partsOf_join {ps : List Text} (h : ∀ c ∈ ps, IsName c) :
    partsOf (Text.join "/" ps) = ps := by
  induction ps with
  | nil => rfl
  | cons c ps ih =>
    obtain ⟨hc, hps⟩ := List.forall_mem_cons.mp h
    cases ps with
    | nil =>
      rw [Text.join, List.intercalate_singleton]
      exact partsOf_of_isName hc
    | cons d ps =>
      rw [Text.join, List.intercalate_cons_cons, List.append_assoc]
      show partsOf (c ++ ('/' : CodePoint) :: Text.join "/" (d :: ps)) = _
      rw [partsOf_append_slash, partsOf_of_isName hc, ih hps]
      rfl

/-! ### Roots -/

/-- A root: one slash, or exactly two. -/
def IsRoot (r : Text) : Prop := r = ("/" : Text) ∨ r = ("//" : Text)

theorem IsRoot.ne_nil {r : Text} (h : IsRoot r) : r ≠ [] := by
  rcases h with rfl | rfl <;> nofun

theorem IsRoot.rootOf_append {r : Text} (h : IsRoot r) {t : Text}
    (ht : t.head? ≠ some ('/' : CodePoint)) : rootOf (r ++ t) = r := by
  have stop : t.takeWhile (fun c : CodePoint => c == '/') = [] := by
    cases t with
    | nil => rfl
    | cons c t =>
      have hc : (c == ('/' : CodePoint)) = false :=
        beq_eq_false_iff_ne.mpr fun e => ht (congrArg some e)
      rw [List.takeWhile_cons, hc]
      rfl
  rw [rootOf, List.takeWhile_append_of_pos (by rcases h with rfl | rfl <;> decide), stop]
  rcases h with rfl | rfl <;> rfl

theorem IsRoot.partsOf_append {r : Text} (h : IsRoot r) (t : Text) :
    partsOf (r ++ t) = partsOf t := by
  rcases h with rfl | rfl
  · exact partsOf_slash t
  · exact (partsOf_slash (('/' : CodePoint) :: t)).trans (partsOf_slash t)

/-- An absolute path in normal form. -/
structure IsRooted (p : Path) : Prop where
  root : IsRoot p.root
  names : ∀ c ∈ p.parts, IsName c

/-- What is read from a text is in normal form. -/
theorem isRooted_ofText {t : Text} (h : (ofText t).isAbsolute = true) : (ofText t).IsRooted := by
  refine ⟨?_, fun c hc => isName_of_mem_partsOf hc⟩
  have some : rootOf t ≠ [] := by
    intro hnone
    rw [isAbsolute, ofText, hnone] at h
    cases h
  show IsRoot (rootOf t)
  unfold rootOf at some ⊢
  split
  · rename_i h0
    rw [h0] at some
    exact absurd rfl some
  · exact .inr rfl
  · exact .inl rfl

theorem ofText_of_head {t : Text} (h : t.head? ≠ some ('/' : CodePoint)) :
    ofText t = ⟨[], partsOf t⟩ := by
  rw [partsOf, ← rootOf_of_head h]
  rfl

namespace IsRooted

variable {p : Path} (h : p.IsRooted)

include h

theorem toText_eq : p.toText = p.root ++ Text.join "/" p.parts := by
  have some : p.root.isEmpty = false := List.isEmpty_eq_false_iff.mpr h.root.ne_nil
  rw [toText, some]
  rfl

theorem partsOf_toText : partsOf p.toText = p.parts := by
  rw [h.toText_eq, h.root.partsOf_append, partsOf_join h.names]

theorem rootOf_toText_append (hp : p.parts ≠ []) (t : Text) : rootOf (p.toText ++ t) = p.root := by
  have relative : (⟨[], p.parts⟩ : Path).IsRelative := ⟨rfl, hp, h.names⟩
  obtain ⟨c, rest, htext, hc⟩ := relative.head_toText
  rw [relative.toText_eq] at htext
  rw [h.toText_eq, List.append_assoc, htext]
  exact h.root.rootOf_append fun e => hc (Option.some.inj e)

theorem exists_toText_concat {front : List Text} {last : Text} (hp : p.parts = front ++ [last]) :
    ∃ u, p.toText = u ++ ('/' : CodePoint) :: last ∧ partsOf u = front := by
  have names := h.names
  rw [hp, List.forall_mem_append] at names
  rw [h.toText_eq, hp]
  by_cases hfront : front = []
  · subst hfront
    have single : Text.join "/" ([] ++ [last]) = last := List.intercalate_singleton
    rw [single]
    rcases h.root with hr | hr
    · exact ⟨[], by rw [hr]; rfl, rfl⟩
    · exact ⟨"/", by rw [hr]; rfl, rfl⟩
  · refine ⟨p.root ++ Text.join "/" front, ?_, ?_⟩
    · rw [Text.join_concat "/" hfront, ← List.append_assoc]
      rfl
    · rw [h.root.partsOf_append, partsOf_join names.1]

/-! ### Paths below and beside a directory -/

theorem ofText_below (hp : p.parts ≠ []) (t : Text) :
    ofText (p.toText ++ ('/' : CodePoint) :: t) = ⟨p.root, p.parts ++ partsOf t⟩ := by
  have parts := partsOf_append_slash p.toText t
  rw [h.partsOf_toText] at parts
  rw [← h.rootOf_toText_append hp (('/' : CodePoint) :: t), ← parts]
  rfl

/-- Without the slash what follows goes on with the last name of the directory. -/
theorem ofText_beside {front : List Text} {last : Text} (hp : p.parts = front ++ [last]) {t : Text}
    (hne : t ≠ []) (ht : t.head? ≠ some ('/' : CodePoint)) :
    ∃ more rest, more ≠ [] ∧
      ofText (p.toText ++ t) = ⟨p.root, front ++ (last ++ more) :: rest⟩ := by
  obtain ⟨u, hu, hfront⟩ := h.exists_toText_concat hp
  obtain ⟨hlast, -, hslash⟩ := h.names last (hp ▸ List.mem_append_right front List.mem_cons_self)
  have some : p.parts ≠ [] :=
    hp ▸ List.append_ne_nil_of_right_ne_nil front (List.cons_ne_nil last [])
  have whole : ofText (p.toText ++ t) = ⟨p.root, front ++ partsOf (last ++ t)⟩ := by
    rw [← h.rootOf_toText_append some t, ← hfront, ← partsOf_append_slash, ← List.cons_append,
      ← List.append_assoc, ← hu]
    rfl
  -- a name with something behind it is still a name
  have longer {more : Text} (hmore : more ≠ []) (hs : ('/' : CodePoint) ∉ more) :
      IsName (last ++ more) := by
    refine ⟨List.append_ne_nil_of_left_ne_nil hlast more, fun e => ?_, ?_⟩
    · have length := congrArg List.length e
      have one : (("." : Text)).length = 1 := rfl
      have someLast := List.length_pos_iff.mpr hlast
      have someMore := List.length_pos_iff.mpr hmore
      rw [List.length_append, one] at length
      omega
    · rw [List.mem_append]
      exact fun e => e.elim hslash hs
  rw [whole]
  by_cases hmem : ('/' : CodePoint) ∈ t
  · obtain ⟨more, rest, rfl, hs⟩ := List.eq_append_cons_of_mem hmem
    have hmore : more ≠ [] := by
      rintro rfl
      exact ht rfl
    refine ⟨more, partsOf rest, hmore, ?_⟩
    rw [← List.append_assoc, partsOf_append_slash, partsOf_of_isName (longer hmore hs)]
    rfl
  · exact ⟨t, [], hne, by rw [partsOf_of_isName (longer hne hmem)]⟩

/-- Whether a path lies in a directory is asked of the components. -/
theorem relativeTo?_eq (q : Path) : p.relativeTo? q =
    if q.root = p.root ∧ p.parts <+: q.parts then some ⟨[], q.parts.drop p.parts.length⟩
    else none := by
  have some : p.root.isEmpty = false := List.isEmpty_eq_false_iff.mpr h.root.ne_nil
  simp only [relativeTo?, some, Bool.false_and, Bool.false_eq_true, if_false, Bool.and_eq_true,
    decide_eq_true_eq, List.isPrefixOf_iff_prefix]

/-- **A path in the directory** is what its text goes on with, seen from the directory. -/
theorem relativeTo?_below (hp : p.parts ≠ []) {t : Text} (ht : t.head? ≠ some ('/' : CodePoint)) :
    p.relativeTo? (ofText (p.toText ++ ('/' : CodePoint) :: t)) = some (ofText t) := by
  rw [h.ofText_below hp, h.relativeTo?_eq, if_pos ⟨rfl, List.prefix_append _ _⟩, List.drop_left,
    ofText_of_head ht]

theorem relativeTo?_relative {t : Text} (ht : t.head? ≠ some ('/' : CodePoint)) :
    p.relativeTo? (ofText t) = none := by
  rw [ofText_of_head ht, h.relativeTo?_eq, if_neg fun e => h.root.ne_nil e.1.symm]

/-- **A path whose text begins with that of the directory** need not lie in it. -/
theorem relativeTo?_beside (hp : p.parts ≠ []) {t : Text} (hne : t ≠ [])
    (ht : t.head? ≠ some ('/' : CodePoint)) :
    p.relativeTo? (ofText (p.toText ++ t)) = none := by
  rcases p.parts.eq_nil_or_concat with hnil | ⟨front, last, hparts⟩
  · exact absurd hnil hp
  · rw [List.concat_eq_append] at hparts
    obtain ⟨more, rest, hmore, hpath⟩ := h.ofText_beside hparts hne ht
    rw [hpath, h.relativeTo?_eq, hparts, if_neg]
    rintro ⟨-, hprefix⟩
    have first := (List.prefix_append_right_inj front).mp hprefix
    obtain ⟨hname, -⟩ := List.cons_prefix_cons.mp first
    exact hmore (List.self_eq_append_right.mp hname)

end IsRooted

end Path

end RepoScan
