import Mathlib.Data.List.TakeDrop
import Mathlib.Data.List.TakeWhile
import RepoScan.Proofs.Path
import RepoScan.Proofs.Repository
import RepoScan.Proofs.Text.Case
import RepoScan.Proofs.Text.Space

/-!
# Reading addresses of repositories

An address that is written as its scheme, its authority and the rest is read as these parts.  The
authority is a host, with or without a user.  The parameters in a path belong to its last component,
so that what is in front of a slash is never taken for them.

* `Address.ofText_spelled` : the address that a scheme, an authority and a rest spell;
* `Address.host?_host`, `Address.host?_login` : the host in an authority;
* `Address.pathIn_of_isPlain`, `Address.exists_pathIn_append` : what is kept of a path.
-/

namespace RepoScan

/-! ### Name characters -/

namespace Repository

theorem bounds_of_isNameCharacter {c : CodePoint} (h : isNameCharacter c = true) :
    45 ≤ c.val ∧ c.val ≤ 122 := by
  have marks : c.isIn "_.-" = true → c.val = 95 ∨ c.val = 46 ∨ c.val = 45 := by
    intro hc
    obtain ⟨d, hd, hcd⟩ := List.any_eq_true.mp hc
    rw [beq_iff_eq.mp hcd]
    have listed : ("_.-" : String).toList = ['_', '.', '-'] := rfl
    rw [listed] at hd
    simp only [List.mem_cons, List.not_mem_nil, or_false] at hd
    rcases hd with rfl | rfl | rfl <;> decide
  have digits : '0'.toNat = 48 ∧ '9'.toNat = 57 := by decide
  simp only [isNameCharacter, CodePoint.isAsciiAlnum, CodePoint.isAsciiLetter,
    CodePoint.isAsciiDigit, CodePoint.between, Bool.or_eq_true, Bool.and_eq_true,
    decide_eq_true_eq, CodePoint.isAsciiUpper_iff, CodePoint.isAsciiLower_iff, digits] at h
  rcases h with h | h
  · omega
  · have := marks h
    omega

end Repository

open Repository (isNameCharacter)

namespace Address

variable {scheme authority host path : Text} {mark : CodePoint}

/-- Name characters, and a mark among them. -/
def IsPlain (mark : CodePoint) (t : Text) : Prop := ∀ c ∈ t, isNameCharacter c = true ∨ c = mark

instance (mark : CodePoint) (t : Text) : Decidable (IsPlain mark t) :=
  inferInstanceAs (Decidable (∀ c ∈ t, _))

theorem IsPlain.notMem {t : Text} (h : IsPlain mark t) {c : CodePoint}
    (hc : isNameCharacter c = false) (hmark : c ≠ mark) : c ∉ t := by
  intro hmem
  rcases h c hmem with hname | rfl
  · rw [hc] at hname
    cases hname
  · exact hmark rfl

theorem IsPlain.bounds {t : Text} (h : IsPlain mark t) (hmark : 45 ≤ mark.val ∧ mark.val ≤ 122) :
    ∀ c ∈ t, 45 ≤ c.val ∧ c.val ≤ 122 := by
  intro c hc
  rcases h c hc with hname | rfl
  · exact Repository.bounds_of_isNameCharacter hname
  · exact hmark

theorem IsPlain.of_isWord {t : Text} (h : Repository.IsWord t) : IsPlain mark t :=
  fun c hc => .inl (h.2 c hc)

theorem isPlain_append {s t : Text} : IsPlain mark (s ++ t) ↔ IsPlain mark s ∧ IsPlain mark t :=
  List.forall_mem_append

/-! ### Authorities -/

theorem checkBrackets_of_isPlain (h : IsPlain '@' authority) :
    checkBrackets authority = .ok () := by
  have opening : authority.contains ('[' : CodePoint) = false := by
    simpa using h.notMem (c := '[') (by decide) (by decide)
  have closing : authority.contains (']' : CodePoint) = false := by
    simpa using h.notMem (c := ']') (by decide) (by decide)
  simp only [checkBrackets, opening, closing]

theorem checkDelimiters_of_isPlain (h : IsPlain '@' authority) :
    checkDelimiters authority = .ok () := by
  have small : ∀ n ∈ delimiterLike, 122 < n := by decide
  have plain : authority.any (fun c => delimiterLike.contains c.val) = false := by
    rw [List.any_eq_false]
    intro c hc hmem
    have := small c.val (List.contains_iff_mem.mp hmem)
    have := (h.bounds (by decide) c hc).2
    omega
  rw [checkDelimiters, plain]
  rfl

theorem takeAuthority_append (h : IsPlain '@' authority) (rest : Text) :
    takeAuthority ("//" ++ (authority ++ ('/' : CodePoint) :: rest)) =
      (authority, ('/' : CodePoint) :: rest) := by
  have inside : ∀ c ∈ authority, (!endsAuthority c) = true := by
    intro c hc
    rw [Bool.not_eq_true']
    refine Bool.eq_false_iff.mpr fun hends => ?_
    simp only [endsAuthority, Bool.or_eq_true, beq_iff_eq] at hends
    rcases hends with (rfl | rfl) | rfl
    · exact h.notMem (by decide) (by decide) hc
    · exact h.notMem (by decide) (by decide) hc
    · exact h.notMem (by decide) (by decide) hc
  have taken : (('/' : CodePoint) :: rest).takeWhile (fun c => !endsAuthority c) = [] :=
    List.takeWhile_cons_of_neg (by decide)
  have left : (('/' : CodePoint) :: rest).dropWhile (fun c => !endsAuthority c) =
      ('/' : CodePoint) :: rest := List.dropWhile_cons_of_neg (by decide)
  rw [takeAuthority, Text.after?_append]
  simp only [List.takeWhile_append_of_pos inside, List.dropWhile_append_of_pos inside, taken, left,
    List.append_nil]

/-! ### Hosts -/

theorem hostAt_of_isWord (h : Repository.IsWord host) : hostAt host = host := by
  have opening : ('[' : CodePoint) ∉ host := h.notMem (by decide)
  have colon : ∀ c ∈ host, (c != (':' : CodePoint)) = true := by
    intro c hc
    refine bne_iff_ne.mpr ?_
    rintro rfl
    exact h.notMem (by decide) hc
  have uncut : Text.cut? "[" host = none := Text.cut?_of_notMem opening []
  rw [hostAt, uncut]
  exact List.takeWhile_eq_self_iff.mpr colon

theorem host?_of_placeOf (h : Repository.IsWord host) (ha : placeOf authority = host) :
    host? ⟨scheme, authority, path⟩ = some (Text.lower host) := by
  have percent : ∀ c ∈ host, (c != ('%' : CodePoint)) = true := by
    intro c hc
    refine bne_iff_ne.mpr ?_
    rintro rfl
    exact h.notMem (by decide) hc
  have nonempty : host.isEmpty = false := List.isEmpty_eq_false_iff.mpr h.1
  have name : host.takeWhile (fun c : CodePoint => c != '%') = host :=
    List.takeWhile_eq_self_iff.mpr percent
  have zone : host.dropWhile (fun c : CodePoint => c != '%') = [] :=
    List.dropWhile_eq_nil_iff.mpr percent
  rw [host?]
  simp only [ha, hostAt_of_isWord h, List.span_eq_takeWhile_dropWhile, name, zone, nonempty,
    Bool.false_eq_true, if_false, List.append_nil]

theorem host?_host (h : Repository.IsWord host) :
    host? ⟨scheme, host, path⟩ = some (Text.lower host) := by
  refine host?_of_placeOf h ?_
  rw [placeOf, Text.cutLast?_of_notMem (h.notMem (by decide))]

theorem host?_login (h : Repository.IsWord host) :
    host? ⟨scheme, "git@" ++ host, path⟩ = some (Text.lower host) := by
  refine host?_of_placeOf h ?_
  have text : ("git@" : Text) ++ host = "git" ++ ('@' : CodePoint) :: host := rfl
  rw [placeOf, text, Text.cutLast?_append (h.notMem (by decide))]

/-! ### Reading -/

theorem takeScheme_append (h : scheme ∈ Repository.schemes) (rest : Text) :
    takeScheme (scheme ++ ("://" ++ rest)) = (scheme, "//" ++ rest) := by
  have colon : (':' : CodePoint) ∉ scheme := by
    revert scheme
    decide
  have cut : Text.cut? ":" (scheme ++ ("://" ++ rest)) = some (scheme, "//" ++ rest) :=
    Text.cut?_append colon [] ("//" ++ rest)
  rw [takeScheme, cut]
  simp only [Repository.schemes, List.mem_cons, List.not_mem_nil, or_false] at h
  rcases h with rfl | rfl | rfl | rfl <;> rfl

/-- The characters of a text that count in an address. -/
def unbroken (t : Text) : Text := t.filter fun c => !c.isIn "\t\r\n"

/-- What an address of a scheme keeps of a text that begins its path. -/
def pathIn (scheme t : Text) : Text :=
  let path := (unbroken t).takeWhile fun c : CodePoint => c != '?' && c != '#'
  if webSchemes.contains scheme then withoutParameters path else path

theorem unbroken_of_bounds {t : Text} (h : ∀ c ∈ t, 32 < c.val) : unbroken t = t := by
  refine List.filter_eq_self.mpr fun c hc => ?_
  rw [Bool.not_eq_true']
  refine Bool.eq_false_iff.mpr fun hin => ?_
  obtain ⟨d, hd, hcd⟩ := List.any_eq_true.mp hin
  have listed : d ∈ ['\t', '\r', '\n'] := hd
  have small : d.toNat ≤ 32 := by
    simp only [List.mem_cons, List.not_mem_nil, or_false] at listed
    rcases listed with rfl | rfl | rfl <;> decide
  have large := h c hc
  rw [beq_iff_eq.mp hcd, CodePoint.val_ofChar] at large
  omega

theorem unbroken_of_isPlain {t : Text} (h : IsPlain mark t)
    (hmark : 45 ≤ mark.val ∧ mark.val ≤ 122) : unbroken t = t :=
  unbroken_of_bounds fun c hc => by
    have := (h.bounds hmark c hc).1
    omega

theorem unbroken_append (t t' : Text) : unbroken (t ++ t') = unbroken t ++ unbroken t' :=
  List.filter_append ..

/-- **The address** that a scheme, an authority and the rest spell. -/
theorem ofText_spelled (hs : scheme ∈ Repository.schemes) (ha : IsPlain '@' authority)
    (rest : Text) :
    ofText (scheme ++ ("://" ++ (authority ++ ('/' : CodePoint) :: rest))) =
      .ok ⟨scheme, authority, pathIn scheme (('/' : CodePoint) :: rest)⟩ := by
  have letters : scheme ≠ [] ∧ ∀ c ∈ scheme, 32 < c.val := by
    revert scheme
    decide
  have start : ∀ c ∈ (scheme ++ ("://" ++ (authority ++ ('/' : CodePoint) :: rest))).head?,
      decide (c.val ≤ 32) = false := by
    intro c hc
    obtain ⟨d, front, hd⟩ := List.exists_cons_of_ne_nil letters.1
    rw [hd] at hc
    obtain rfl : d = c := Option.some.inj hc
    have large := letters.2 d (hd ▸ List.mem_cons_self)
    exact decide_eq_false (by omega)
  have counted : (scheme ++ ("://" ++ (authority ++ ('/' : CodePoint) :: rest))).filter
      (fun c => !c.isIn "\t\r\n") =
        scheme ++ ("://" ++ (authority ++ unbroken (('/' : CodePoint) :: rest))) := by
    have marks : unbroken "://" = "://" := by decide
    have inside : unbroken authority = authority := unbroken_of_isPlain ha (by decide)
    change unbroken _ = _
    rw [unbroken_append, unbroken_append, unbroken_append, unbroken_of_bounds letters.2, marks,
      inside]
  have slash : unbroken (('/' : CodePoint) :: rest) = ('/' : CodePoint) :: unbroken rest := by
    rw [unbroken, List.filter_cons_of_pos (by decide), unbroken]
  rw [ofText, Text.dropWhile_of_head start, counted, slash, takeScheme_append hs]
  simp only [takeAuthority_append ha, checkBrackets_of_isPlain ha, checkDelimiters_of_isPlain ha,
    pathIn, slash]
  rfl

/-! ### Paths -/

theorem withoutParameters_of_notMem (h : (';' : CodePoint) ∉ path) :
    withoutParameters path = path := by
  unfold withoutParameters
  cases hcut : Text.cutLast? '/' path with
  | none =>
    refine List.takeWhile_eq_self_iff.mpr fun c hc => ?_
    refine bne_iff_ne.mpr ?_
    rintro rfl
    exact h hc
  | some parts =>
    obtain ⟨front, last⟩ := parts
    have absent : last.contains (';' : CodePoint) = false := by
      rw [Text.eq_of_cutLast? hcut] at h
      simpa using fun hmem => h (List.mem_append_right _ (List.mem_cons_of_mem _ hmem))
    simp only [absent, Bool.false_eq_true, if_false]

theorem exists_withoutParameters_append (p u : Text) :
    ∃ u', withoutParameters (p ++ ('/' : CodePoint) :: u) = p ++ ('/' : CodePoint) :: u' := by
  -- the parameters are looked for behind the last slash, which is this one or one behind it
  obtain ⟨w, last, hu, hlast⟩ := Text.exists_last_of_mem
    (List.mem_cons_self (a := ('/' : CodePoint)) (l := u))
  have text : p ++ ('/' : CodePoint) :: u = (p ++ w) ++ ('/' : CodePoint) :: last := by
    rw [hu, List.append_assoc]
  have kept (l : Text) : ∃ u', p ++ w ++ ('/' : CodePoint) :: l = p ++ ('/' : CodePoint) :: u' := by
    cases w with
    | nil => exact ⟨l, by rw [List.append_nil]⟩
    | cons c w =>
      obtain rfl : ('/' : CodePoint) = c := (List.cons.inj hu).1
      exact ⟨w ++ ('/' : CodePoint) :: l, by rw [List.append_assoc]; rfl⟩
  rw [withoutParameters, text, Text.cutLast?_append hlast]
  cases hc : last.contains (';' : CodePoint) with
  | true =>
    simp only [hc, if_true]
    obtain ⟨u', hu'⟩ := kept (last.takeWhile fun c : CodePoint => c != ';')
    refine ⟨u', ?_⟩
    rw [← hu', List.append_assoc (p ++ w)]
    rfl
  | false =>
    simp only [hc, Bool.false_eq_true, if_false]
    exact kept last

theorem IsPlain.inside {t : Text} (h : IsPlain '/' t) :
    ∀ c ∈ t, (c != ('?' : CodePoint) && c != ('#' : CodePoint)) = true := by
  intro c hc
  rw [Bool.and_eq_true]
  constructor
  · refine bne_iff_ne.mpr ?_
    rintro rfl
    exact h.notMem (by decide) (by decide) hc
  · refine bne_iff_ne.mpr ?_
    rintro rfl
    exact h.notMem (by decide) (by decide) hc

theorem pathIn_of_isPlain {t : Text} (h : IsPlain '/' t) (scheme : Text) :
    pathIn scheme t = t := by
  have bare : withoutParameters t = t :=
    withoutParameters_of_notMem (h.notMem (by decide) (by decide))
  have whole : t.takeWhile (fun c : CodePoint => c != '?' && c != '#') = t :=
    List.takeWhile_eq_self_iff.mpr h.inside
  have counted : unbroken t = t := unbroken_of_isPlain h (by decide)
  simp only [pathIn, counted, whole, bare, ite_self]

/-- A path begins with what is plain in front of a slash, whatever follows. -/
theorem exists_pathIn_append {p : Text} (h : IsPlain '/' p) (scheme u : Text) :
    ∃ u', pathIn scheme (p ++ ('/' : CodePoint) :: u) = p ++ ('/' : CodePoint) :: u' := by
  have slash : unbroken (('/' : CodePoint) :: u) = ('/' : CodePoint) :: unbroken u :=
    List.filter_cons_of_pos (by decide)
  have path : (p ++ ('/' : CodePoint) :: unbroken u).takeWhile
      (fun c : CodePoint => c != '?' && c != '#') =
        p ++ ('/' : CodePoint) :: (unbroken u).takeWhile fun c => c != '?' && c != '#' := by
    rw [List.takeWhile_append_of_pos h.inside, List.takeWhile_cons_of_pos (by decide)]
  have counted : unbroken p = p := unbroken_of_isPlain h (by decide)
  simp only [pathIn, unbroken_append, counted, slash, path]
  split
  · exact exists_withoutParameters_append p _
  · exact ⟨_, rfl⟩

end Address

end RepoScan
