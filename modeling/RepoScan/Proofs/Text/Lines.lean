import RepoScan.Text.Lines

/-!
# Cutting texts into lines

The two ways of cutting a text at line ends, told by what they do to a first line and the rest.

* `Text.splitOn_append` : `Text.splitOn` cuts at one character only;
* `Text.lines_append_feed`, `Text.lines_append_boundary` : `Text.lines` cuts at every boundary, and
  takes a carriage return and a line feed together;
* `Text.splitOn_ended`, `Text.lines_ended` : a text made of lines that a line feed ends is cut into
  these lines by both, up to carriage returns at their ends;
* `Text.lines_append` : a text of whole lines and what follows it are cut one after the other.
-/

namespace RepoScan.Text

/-! ### Texts made of lines -/

/-- The text of lines each of which is ended by a line feed. -/
def ended (ls : List Text) : Text := ls.flatMap fun l => l ++ [('\n' : CodePoint)]

@[simp] theorem ended_nil : ended [] = [] := rfl

@[simp] theorem ended_cons (l : Text) (ls : List Text) :
    ended (l :: ls) = l ++ ('\n' : CodePoint) :: ended ls := by
  rw [ended, List.flatMap_cons, List.append_assoc]
  rfl

theorem ended_append (ls ls' : List Text) : ended (ls ++ ls') = ended ls ++ ended ls' :=
  List.flatMap_append

/-! ### Cutting at one character -/

variable {sep : CodePoint}

theorem splitOn_cons_self (t : Text) : splitOn sep (sep :: t) = [] :: splitOn sep t := by
  rw [splitOn, List.foldr_cons, if_pos rfl]
  rfl

theorem splitOn_ne_nil (sep : CodePoint) (t : Text) : splitOn sep t ≠ [] := by
  cases t with
  | nil => exact List.cons_ne_nil _ _
  | cons c t =>
    rw [splitOn, List.foldr_cons]
    split
    · exact List.cons_ne_nil _ _
    · split <;> exact List.cons_ne_nil _ _

theorem splitOn_cons_of_ne {c : CodePoint} (h : c ≠ sep) {t p : Text} {ps : List Text}
    (ht : splitOn sep t = p :: ps) : splitOn sep (c :: t) = (c :: p) :: ps := by
  rw [splitOn] at ht
  rw [splitOn, List.foldr_cons, if_neg h, ht]

theorem splitOn_append {l : Text} (h : sep ∉ l) (t : Text) :
    splitOn sep (l ++ sep :: t) = l :: splitOn sep t := by
  induction l with
  | nil => exact splitOn_cons_self t
  | cons c l ih =>
    have hc : c ≠ sep := fun e => h (e ▸ List.mem_cons_self)
    exact splitOn_cons_of_ne hc (ih fun hl => h (List.mem_cons_of_mem _ hl))

theorem splitOn_append_cons (s t : Text) :
    splitOn sep (s ++ sep :: t) = splitOn sep s ++ splitOn sep t := by
  induction s with
  | nil => exact splitOn_cons_self t
  | cons c s ih =>
    by_cases hc : c = sep
    · subst hc
      rw [List.cons_append, splitOn_cons_self, splitOn_cons_self, ih, List.cons_append]
    · obtain ⟨p, ps, hp⟩ := List.exists_cons_of_ne_nil (splitOn_ne_nil sep s)
      rw [hp, List.cons_append] at ih
      rw [List.cons_append, splitOn_cons_of_ne hc hp, splitOn_cons_of_ne hc ih, List.cons_append]

theorem notMem_of_mem_splitOn {t l : Text} (h : l ∈ splitOn sep t) : sep ∉ l := by
  induction t generalizing l with
  | nil =>
    rw [List.mem_singleton.mp h]
    exact List.not_mem_nil
  | cons c t ih =>
    by_cases hc : c = sep
    · subst hc
      rw [splitOn_cons_self] at h
      rcases List.mem_cons.mp h with rfl | h
      · exact List.not_mem_nil
      · exact ih h
    · obtain ⟨p, ps, hp⟩ := List.exists_cons_of_ne_nil (splitOn_ne_nil sep t)
      rw [splitOn_cons_of_ne hc hp] at h
      rcases List.mem_cons.mp h with rfl | h
      · intro hm
        rcases List.mem_cons.mp hm with rfl | hm
        · exact hc rfl
        · -- the piece lost its first character only
          exact ih (hp ▸ List.mem_cons_self) hm
      · exact ih (hp ▸ List.mem_cons_of_mem _ h)

theorem flatten_splitOn (t : Text) : (splitOn sep t).flatten = t.filter (· != sep) := by
  induction t with
  | nil => rfl
  | cons c t ih =>
    by_cases hc : c = sep
    · subst hc
      rw [splitOn_cons_self, List.flatten_cons, List.nil_append, ih, List.filter_cons_of_neg]
      simp
    · obtain ⟨p, ps, hp⟩ := List.exists_cons_of_ne_nil (splitOn_ne_nil sep t)
      rw [hp, List.flatten_cons] at ih
      rw [splitOn_cons_of_ne hc hp, List.flatten_cons, List.cons_append, ih]
      exact (List.filter_cons_of_pos (p := (· != sep)) (bne_iff_ne.mpr hc)).symm

theorem splitOn_ended {ls : List Text} (h : ∀ l ∈ ls, ('\n' : CodePoint) ∉ l) :
    splitOn '\n' (ended ls) = ls ++ [[]] := by
  induction ls with
  | nil => rfl
  | cons l ls ih =>
    rw [ended_cons, splitOn_append (h l List.mem_cons_self),
      ih fun l' hl' => h l' (List.mem_cons_of_mem _ hl')]
    rfl

theorem exists_ended_append (t : Text) : ∃ ls last, (∀ l ∈ ls, ('\n' : CodePoint) ∉ l) ∧
    ('\n' : CodePoint) ∉ last ∧ t = ended ls ++ last := by
  induction t with
  | nil => exact ⟨[], [], nofun, List.not_mem_nil, rfl⟩
  | cons c t ih =>
    obtain ⟨ls, last, hls, hlast, rfl⟩ := ih
    by_cases hc : c = ('\n' : CodePoint)
    · subst hc
      exact ⟨[] :: ls, last, List.forall_mem_cons.mpr ⟨List.not_mem_nil, hls⟩, hlast, rfl⟩
    · have keep {l : Text} (hl : ('\n' : CodePoint) ∉ l) : ('\n' : CodePoint) ∉ c :: l := fun h =>
        (List.mem_cons.mp h).elim (fun e => hc e.symm) hl
      cases ls with
      | nil => exact ⟨[], c :: last, nofun, keep hlast, rfl⟩
      | cons l ls =>
        obtain ⟨hl, hls⟩ := List.forall_mem_cons.mp hls
        exact ⟨(c :: l) :: ls, last, List.forall_mem_cons.mpr ⟨keep hl, hls⟩, hlast, rfl⟩

theorem exists_ended {t : Text} (h : t.getLast? = some ('\n' : CodePoint)) :
    ∃ ls, (∀ l ∈ ls, ('\n' : CodePoint) ∉ l) ∧ t = ended ls := by
  obtain ⟨ls, last, hls, hlast, rfl⟩ := exists_ended_append t
  cases last with
  | nil => exact ⟨ls, hls, List.append_nil _⟩
  | cons c last =>
    -- the last character is none that ends a line
    rw [List.getLast?_append, List.getLast?_cons] at h
    exact absurd (List.mem_of_getLast? ((List.getLast?_cons ..).trans h)) hlast

/-! ### Cutting at boundaries -/

/-- The text is within one line. -/
def IsUnbroken (l : Text) : Prop := ∀ c ∈ l, c.isLineBoundary = false

instance (l : Text) : Decidable (IsUnbroken l) := inferInstanceAs (Decidable (∀ c ∈ l, _ = false))

theorem IsUnbroken.append {l l' : Text} (h : IsUnbroken l) (h' : IsUnbroken l') :
    IsUnbroken (l ++ l') := fun c hc => (List.mem_append.mp hc).elim (h c) (h' c)

theorem linesGo_cons {c : CodePoint} (h : c.isLineBoundary = false) (t line : Text)
    (done : List Text) : lines.go (c :: t) line done = lines.go t (c :: line) done := by
  have hr : c ≠ ('\r' : CodePoint) := by
    rintro rfl
    cases h
  rw [lines.go.eq_def]
  simp only [if_neg hr, h, Bool.false_eq_true, if_false]

theorem linesGo_boundary {c : CodePoint} (h : c.isLineBoundary = true)
    (hr : c ≠ ('\r' : CodePoint)) (t line : Text) (done : List Text) :
    lines.go (c :: t) line done = lines.go t [] (line.reverse :: done) := by
  rw [lines.go.eq_def]
  simp only [if_neg hr, h, if_true]

theorem linesGo_return_feed (t line : Text) (done : List Text) :
    lines.go (('\r' : CodePoint) :: ('\n' : CodePoint) :: t) line done =
      lines.go t [] (line.reverse :: done) := by
  rw [lines.go.eq_def]
  simp only [if_true]

theorem linesGo_return {d : CodePoint} (h : d ≠ ('\n' : CodePoint)) (t line : Text)
    (done : List Text) :
    lines.go (('\r' : CodePoint) :: d :: t) line done =
      lines.go (d :: t) [] (line.reverse :: done) := by
  rw [lines.go.eq_def]
  simp only [if_true, if_neg h]

/-- The current line grows up to the next boundary. -/
theorem linesGo_append {l : Text} (h : IsUnbroken l) (t line : Text) (done : List Text) :
    lines.go (l ++ t) line done = lines.go t (l.reverse ++ line) done := by
  induction l generalizing line with
  | nil => rfl
  | cons c l ih =>
    obtain ⟨hc, hl⟩ := List.forall_mem_cons.mp h
    rw [List.cons_append, linesGo_cons hc, ih hl, List.reverse_cons, List.append_assoc]
    rfl

theorem linesGo_nil (line : Text) (done : List Text) :
    lines.go [] line done = (if line.isEmpty then done else line.reverse :: done).reverse := by
  rw [lines.go.eq_def]

theorem linesGo_last_return (line : Text) (done : List Text) :
    lines.go [('\r' : CodePoint)] line done = (line.reverse :: done).reverse := by
  rw [lines.go.eq_def]
  simp only [if_true]

theorem linesGo_done (t line : Text) (done before : List Text) :
    lines.go t line (done ++ before) = before.reverse ++ lines.go t line done := by
  -- by cases of the definition; where it goes on, only the finished lines have grown
  fun_induction lines.go t line done with
  | case1 line done =>
    rw [linesGo_nil]
    split
    · exact List.reverse_append
    · rw [← List.cons_append, List.reverse_append]
  | case2 line done t ih =>
    rw [List.unattach_reverse, List.unattach_attach] at ih
    rw [linesGo_return_feed]
    exact ih
  | case3 line done d t hd ih =>
    rw [List.unattach_reverse, List.unattach_attach] at ih
    rw [linesGo_return hd]
    exact ih
  | case4 line done => rw [linesGo_last_return, ← List.cons_append, List.reverse_append]
  | case5 c t line done hr hb ih =>
    rw [List.unattach_reverse, List.unattach_attach] at ih
    rw [linesGo_boundary hb hr]
    exact ih
  | case6 c t line done hr hb ih =>
    rw [linesGo_cons (Bool.eq_false_iff.mpr hb)]
    exact ih

theorem lines_nil : lines [] = [] := linesGo_nil [] []

/-- A boundary ends the first line; a carriage return does so as well, but not one before a line
feed. -/
theorem lines_append_boundary {l : Text} (h : IsUnbroken l) {b : CodePoint}
    (hb : b.isLineBoundary = true) (t : Text)
    (hr : b = ('\r' : CodePoint) → ∃ d t', t = d :: t' ∧ d ≠ ('\n' : CodePoint)) :
    lines (l ++ b :: t) = l :: lines t := by
  have cut : lines.go (b :: t) (l.reverse ++ []) [] = lines.go t [] ([] ++ [l]) := by
    by_cases hbr : b = ('\r' : CodePoint)
    · subst hbr
      obtain ⟨d, t', rfl, hd⟩ := hr rfl
      rw [linesGo_return hd, List.append_nil, List.reverse_reverse]
      rfl
    · rw [linesGo_boundary hb hbr, List.append_nil, List.reverse_reverse]
      rfl
  rw [lines, linesGo_append h, cut, linesGo_done]
  rfl

/-- A line feed ends the first line. -/
theorem lines_append_feed {l : Text} (h : IsUnbroken l) (t : Text) :
    lines (l ++ ('\n' : CodePoint) :: t) = l :: lines t :=
  lines_append_boundary h (by decide) t fun e => absurd e (by decide)

/-- A line feed ends the first line together with a carriage return before it. -/
theorem lines_append_return_feed {l : Text} (h : IsUnbroken l) (t : Text) :
    lines (l ++ ('\r' : CodePoint) :: ('\n' : CodePoint) :: t) = l :: lines t := by
  have cut : lines.go (('\r' : CodePoint) :: ('\n' : CodePoint) :: t) (l.reverse ++ []) [] =
      lines.go t [] ([] ++ [l]) := by
    rw [linesGo_return_feed, List.append_nil, List.reverse_reverse]
    rfl
  rw [lines, linesGo_append h, cut, linesGo_done]
  rfl

theorem lines_ended_append {ls : List Text} (h : ∀ l ∈ ls, IsUnbroken l) (t : Text) :
    lines (ended ls ++ t) = ls ++ lines t := by
  induction ls with
  | nil => rfl
  | cons l ls ih =>
    obtain ⟨hl, hls⟩ := List.forall_mem_cons.mp h
    rw [ended_cons, List.append_assoc, List.cons_append, lines_append_feed hl, ih hls]
    rfl

/-! ### Texts of whole lines -/

/-- The text is empty, or a line feed ends its last line. -/
def IsEnded (t : Text) : Prop := t = [] ∨ t.getLast? = some ('\n' : CodePoint)

instance (t : Text) : Decidable (IsEnded t) := inferInstanceAs (Decidable (_ ∨ _))

theorem IsEnded.tail {c : CodePoint} {t : Text} (h : IsEnded (c :: t)) : IsEnded t := by
  cases t with
  | nil => exact Or.inl rfl
  | cons d t =>
    rcases h with h | h
    · cases h
    · rw [List.getLast?_cons_cons] at h
      exact Or.inr h

theorem linesGo_ended {t line : Text} (h : IsEnded t) (hline : t = [] → line = [])
    (done : List Text) (rest : Text) :
    lines.go (t ++ rest) line done = lines.go t line done ++ lines rest := by
  -- by cases of the definition; only where the text is used up something is to be shown
  fun_induction lines.go t line done with
  | case1 line done =>
    obtain rfl := hline rfl
    have before := linesGo_done rest [] [] done
    rw [List.nil_append] at before
    rw [List.nil_append, before, lines]
    rfl
  | case2 line done t ih =>
    rw [List.unattach_reverse, List.unattach_attach] at ih
    rw [List.cons_append, List.cons_append, linesGo_return_feed]
    exact ih h.tail.tail fun _ => rfl
  | case3 line done d t hd ih =>
    rw [List.unattach_reverse, List.unattach_attach] at ih
    rw [List.cons_append, List.cons_append, linesGo_return hd]
    exact ih h.tail fun _ => rfl
  | case4 line done =>
    rcases h with h | h
    · cases h
    · cases h
  | case5 c t line done hr hb ih =>
    rw [List.unattach_reverse, List.unattach_attach] at ih
    rw [List.cons_append, linesGo_boundary hb hr]
    exact ih h.tail fun _ => rfl
  | case6 c t line done hr hb ih =>
    rw [List.cons_append, linesGo_cons (Bool.eq_false_iff.mpr hb)]
    refine ih h.tail fun ht => ?_
    -- the last character would have to be the line feed
    subst ht
    rcases h with h | h
    · cases h
    · cases h
      exact absurd rfl hb

/-- **Texts of whole lines are cut one after the other.** -/
theorem lines_append {t : Text} (h : IsEnded t) (rest : Text) :
    lines (t ++ rest) = lines t ++ lines rest := linesGo_ended h (fun _ => rfl) [] rest

theorem IsEnded.append {t t' : Text} (h : IsEnded t) (h' : IsEnded t') : IsEnded (t ++ t') := by
  rcases h' with rfl | h'
  · rwa [List.append_nil]
  · refine Or.inr ?_
    rw [List.getLast?_append, h']
    rfl

theorem isEnded_ended (ls : List Text) : IsEnded (ended ls) := by
  rcases ls.eq_nil_or_concat with rfl | ⟨ls, l, rfl⟩
  · exact Or.inl rfl
  · refine Or.inr ?_
    rw [List.concat_eq_append, ended_append, ended_cons, ended_nil, List.getLast?_append]
    simp

/-- Lines that are unbroken are cut where they were put together. -/
theorem lines_ended {ls : List Text} (h : ∀ l ∈ ls, IsUnbroken l) : lines (ended ls) = ls := by
  have whole := lines_ended_append h []
  rwa [lines_nil, List.append_nil, List.append_nil] at whole

theorem exists_lines_append {l : Text} (h : IsUnbroken l) (hne : l ≠ []) (t : Text) :
    ∃ more rest, lines (l ++ t) = (l ++ more) :: rest := by
  induction t generalizing l with
  | nil =>
    have last : lines.go ([] : Text) (l.reverse ++ []) [] = [l] := by
      have some : (l.reverse ++ []).isEmpty = false := by
        rw [List.append_nil, List.isEmpty_eq_false_iff, Ne, List.reverse_eq_nil_iff]
        exact hne
      rw [linesGo_nil, some, List.append_nil, List.reverse_reverse]
      rfl
    refine ⟨[], [], ?_⟩
    rw [lines, linesGo_append h, last, List.append_nil]
  | cons c t ih =>
    by_cases hc : c.isLineBoundary = true
    · -- the line is over
      refine ⟨[], ?_⟩
      rw [List.append_nil]
      by_cases hr : c = ('\r' : CodePoint)
      · subst hr
        cases t with
        | nil =>
          refine ⟨[], ?_⟩
          rw [lines, linesGo_append h, linesGo_last_return, List.append_nil, List.reverse_reverse]
          rfl
        | cons d t =>
          by_cases hd : d = ('\n' : CodePoint)
          · subst hd
            exact ⟨lines t, lines_append_return_feed h t⟩
          · exact ⟨lines (d :: t), lines_append_boundary h hc _ fun _ => ⟨d, t, rfl, hd⟩⟩
      · exact ⟨lines t, lines_append_boundary h hc t fun e => absurd e hr⟩
    · have longer : IsUnbroken (l ++ [c]) :=
        h.append (List.forall_mem_singleton.mpr (Bool.eq_false_iff.mpr hc))
      obtain ⟨more, rest, hm⟩ := ih longer (List.append_ne_nil_of_right_ne_nil _ (by simp))
      rw [List.append_assoc, List.append_assoc] at hm
      exact ⟨c :: more, rest, hm⟩

/-! ### White space -/

theorem strip_cons {c : CodePoint} (h : c.isSpace = false) (t : Text) :
    ∃ t', strip (c :: t) = c :: t' := by
  have left : trimLeft CodePoint.isSpace (c :: t) = c :: t := by
    simp only [trimLeft, List.dropWhile_cons, h, Bool.false_eq_true, if_false]
  have last : [c].dropWhile CodePoint.isSpace = [c] := by
    simp only [List.dropWhile_cons, h, Bool.false_eq_true, if_false]
  rw [strip, trim, left, trimRight, List.reverse_cons, List.dropWhile_append, last]
  split
  · exact ⟨[], rfl⟩
  · exact ⟨_, List.reverse_append⟩

/-! ### Carriage returns -/

/-- The line with an optional carriage return at its end, over some characters. -/
def IsLineOver (S : CodePoint → Prop) (l : Text) : Prop :=
  ∃ b, (∀ c ∈ b, S c) ∧ (l = b ∨ l = b ++ [('\r' : CodePoint)])

/-- The text without the carriage returns at its end. -/
def withoutReturns (l : Text) : Text := trimRight (· == '\r') l

theorem withoutReturns_prefix (l : Text) : withoutReturns l <+: l := by
  have h := List.reverse_prefix.mpr
    (List.dropWhile_suffix (l := l.reverse) (· == ('\r' : CodePoint)))
  rwa [List.reverse_reverse] at h

theorem withoutReturns_append_return (l : Text) :
    withoutReturns (l ++ [('\r' : CodePoint)]) = withoutReturns l := by
  rw [withoutReturns, withoutReturns, trimRight, trimRight, List.reverse_append]
  rfl

theorem withoutReturns_of_isUnbroken {l : Text} (h : IsUnbroken l) : withoutReturns l = l := by
  rw [withoutReturns, trimRight]
  cases hl : l.reverse with
  | nil => rw [List.dropWhile_nil, ← hl, List.reverse_reverse]
  | cons c r =>
    have hc : (c == ('\r' : CodePoint)) = false := by
      rw [beq_eq_false_iff_ne]
      rintro rfl
      have := h _ (List.mem_reverse.mp (hl ▸ List.mem_cons_self))
      cases this
    simp only [List.dropWhile_cons, hc, Bool.false_eq_true, if_false]
    rw [← hl, List.reverse_reverse]

/-- Both ways of cutting agree on a line whose only boundaries are at its end. -/
theorem lines_append_line {l : Text} (h : IsLineOver (fun c => c.isLineBoundary = false) l)
    {front : Text} (hf : IsUnbroken front) (t : Text) :
    lines (front ++ l ++ ('\n' : CodePoint) :: t) = (front ++ withoutReturns l) :: lines t := by
  obtain ⟨b, hb, hl⟩ := h
  have unbroken : IsUnbroken (front ++ b) := IsUnbroken.append hf hb
  rcases hl with rfl | rfl
  · rw [lines_append_feed unbroken, withoutReturns_of_isUnbroken hb]
  · rw [withoutReturns_append_return, withoutReturns_of_isUnbroken hb, ← List.append_assoc,
      List.append_assoc (front ++ b)]
    exact lines_append_return_feed unbroken t

end RepoScan.Text
