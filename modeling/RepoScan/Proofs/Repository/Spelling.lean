import RepoScan.Proofs.Repository.Address
import RepoScan.Proofs.Text.Replace

/-!
# Spellings of repositories

A repository can be written in short, as the address of its page or of something below its page, or
as the remote of a login.  All of these are read as the same repository, whatever the case of the
host's letters, what stands below the page, and the white space around.

* `Repository.strip_spelling` : without the white space around it, a spelling is a spelling;
* `Repository.exists_placeOf_spelling` : the place that a spelling names;
* `Repository.ofValue_spelling` : **all spellings of a repository are read as the repository**.
-/

namespace RepoScan.Repository

variable {r : Repository} {host : Text}

/-! ### Hosts -/

/-- A name of the host of repositories, with letters in whatever case. -/
def IsHome (host : Text) : Prop := ∃ name ∈ hostNames, Text.IsCaseOf name host

instance (host : Text) : Decidable (IsHome host) :=
  inferInstanceAs (Decidable (∃ name ∈ hostNames, Text.IsCaseOf name host))

theorem IsHome.of_mem (h : host ∈ hostNames) : IsHome host := ⟨host, h, .refl host⟩

theorem IsHome.lower_mem (h : IsHome host) : Text.lower host ∈ hostNames := by
  obtain ⟨name, hname, hcase⟩ := h
  have small : ∀ name ∈ hostNames, ∀ c ∈ name, c.isAscii = true ∧ c.isAsciiUpper = false := by
    decide
  rwa [hcase.lower_eq (small name hname)]

theorem IsHome.isWord (h : IsHome host) : IsWord host := by
  obtain ⟨name, hname, hcase⟩ := h
  have words : ∀ name ∈ hostNames, IsWord name := by decide
  obtain ⟨nonempty, letters⟩ := words name hname
  refine ⟨?_, fun c hc => ?_⟩
  · rintro rfl
    exact nonempty (List.forall₂_nil_right_iff.mp hcase)
  · rcases hcase.mem_or_isAsciiUpper c hc with hmem | hupper
    · exact letters c hmem
    · simp only [isNameCharacter, CodePoint.isAsciiAlnum, CodePoint.isAsciiLetter, hupper,
        Bool.true_or]

/-! ### Spellings -/

/-- The ways to write a repository. -/
inductive Spelling where
  | short
  | shortGit
  | shortSlash
  | page (secure git : Bool)
  /-- Something below the page. -/
  | below (secure git : Bool) (tail : Text)
  | login
  | remote

/-- The scheme of pages. -/
def pageScheme (secure : Bool) : Text := if secure then "https" else "http"

/-- What may stand behind a name. -/
def ending (git : Bool) : Text := if git then ".git" else []

/-- The address of a page. -/
def pageText (secure git : Bool) (host : Text) (r : Repository) : Text :=
  pageScheme secure ++ "://" ++ host ++ "/" ++ r.owner ++ "/" ++ r.name ++ ending git

/-- The repository as it is written in a way, with the host spelled as given. -/
def Spelling.text (host : Text) (r : Repository) : Spelling → Text
  | short => r.owner ++ "/" ++ r.name
  | shortGit => r.owner ++ "/" ++ r.name ++ ".git"
  | shortSlash => r.owner ++ "/" ++ r.name ++ "/"
  | page secure git => pageText secure git host r
  | below secure git tail => pageText secure git host r ++ "/" ++ tail
  | login => "ssh://git@" ++ host ++ "/" ++ r.owner ++ "/" ++ r.name ++ ".git"
  | remote => "git@" ++ host ++ ":" ++ r.owner ++ "/" ++ r.name ++ ".git"

/-! ### White space around spellings -/

/-- The text holds neither white space nor characters beyond ASCII. -/
def IsVisible (t : Text) : Prop := ∀ c ∈ t, 32 < c.val ∧ c.val < 128

instance (t : Text) : Decidable (IsVisible t) := inferInstanceAs (Decidable (∀ c ∈ t, _))

theorem isVisible_append {s t : Text} : IsVisible (s ++ t) ↔ IsVisible s ∧ IsVisible t :=
  List.forall_mem_append

theorem IsVisible.isSpace {t : Text} (h : IsVisible t) : ∀ c ∈ t, c.isSpace = false := by
  intro c hc
  obtain ⟨low, high⟩ := h c hc
  have ascii : c.isAscii = true := decide_eq_true high
  rw [CodePoint.isSpace, if_pos ascii]
  simp only [Bool.or_eq_false_iff, Bool.and_eq_false_iff, decide_eq_false_iff_not]
  omega

theorem IsWord.isVisible {t : Text} (h : IsWord t) : IsVisible t := by
  intro c hc
  have := bounds_of_isNameCharacter (h.2 c hc)
  omega

theorem isVisible_pageText (hr : r.IsWorded) (hhost : IsHome host) (secure git : Bool) :
    IsVisible (pageText secure git host r) := by
  have scheme : ∀ secure, IsVisible (pageScheme secure) := by decide
  have behind : ∀ git, IsVisible (ending git) := by decide
  have marks : IsVisible "://" ∧ IsVisible "/" := by decide
  simp only [pageText, isVisible_append, scheme, behind, marks, hhost.isWord.isVisible,
    hr.1.isVisible, hr.2.isVisible, and_self]

theorem isVisible_text (hr : r.IsWorded) (hhost : IsHome host) {s : Spelling}
    (hs : ∀ secure git tail, s ≠ .below secure git tail) : IsVisible (s.text host r) := by
  have marks : IsVisible "/" ∧ IsVisible ":" ∧ IsVisible ".git" ∧ IsVisible "git@" ∧
      IsVisible "ssh://git@" := by decide
  cases s with
  | below secure git tail => exact absurd rfl (hs secure git tail)
  | page secure git => exact isVisible_pageText hr hhost secure git
  | _ =>
    simp only [Spelling.text, isVisible_append, hhost.isWord.isVisible, hr.1.isVisible,
      hr.2.isVisible, marks, and_self]

theorem strip_around {t front : Text} (h : IsVisible t) (hne : t ≠ [])
    (hfront : ∀ c ∈ front, c.isSpace = true) (back : Text) :
    Text.strip (front ++ t ++ back) = t ++ Text.trimRight CodePoint.isSpace back := by
  have first : ∀ c ∈ t.head?, c.isSpace = false := fun c hc =>
    h.isSpace c (List.mem_of_mem_head? hc)
  have last : ∀ c ∈ t.getLast?, c.isSpace = false := fun c hc =>
    h.isSpace c (List.mem_of_getLast? hc)
  have before : Text.trimLeft CodePoint.isSpace front = [] :=
    List.dropWhile_eq_nil_iff.mpr hfront
  rw [List.append_assoc, Text.strip_append_append hne first last, before, List.nil_append]

theorem text_ne_nil (hr : r.IsWorded) (host : Text) (s : Spelling) : s.text host r ≠ [] := by
  have name : r.name ≠ [] := hr.2.1
  cases s <;> simp [Spelling.text, pageText, name]

/-- Without the white space around it, a spelling is a spelling: nothing but the tail of an address
may be shortened. -/
theorem strip_spelling (hr : r.IsWorded) (hhost : IsHome host) {front back : Text}
    (hfront : ∀ c ∈ front, c.isSpace = true) (hback : ∀ c ∈ back, c.isSpace = true)
    (s : Spelling) :
    ∃ s' : Spelling, Text.strip (front ++ s.text host r ++ back) = s'.text host r := by
  have name : r.name ≠ [] := hr.2.1
  by_cases hs : ∃ secure git tail, s = .below secure git tail
  · obtain ⟨secure, git, tail, rfl⟩ := hs
    refine ⟨.below secure git (Text.trimRight CodePoint.isSpace (tail ++ back)), ?_⟩
    have visible : IsVisible (pageText secure git host r ++ "/") :=
      isVisible_append.mpr ⟨isVisible_pageText hr hhost secure git, by decide⟩
    have nonempty : pageText secure git host r ++ ("/" : Text) ≠ [] := by simp [pageText, name]
    rw [Spelling.text, ← List.append_assoc front, List.append_assoc _ tail,
      strip_around visible nonempty hfront, Spelling.text]
  · simp only [not_exists] at hs
    have behind : Text.trimRight CodePoint.isSpace back = [] := by
      have dropped : back.reverse.dropWhile CodePoint.isSpace = [] :=
        List.dropWhile_eq_nil_iff.mpr fun c hc => hback c (List.mem_reverse.mp hc)
      rw [Text.trimRight, dropped, List.reverse_nil]
    have nonempty := text_ne_nil hr host s
    exact ⟨s, by rw [strip_around (isVisible_text hr hhost hs) nonempty hfront, behind,
      List.append_nil]⟩

/-! ### Paths -/

theorem slash_eq : ("/" : Text) = [('/' : CodePoint)] := rfl

theorem components_slash (t : Text) : components (('/' : CodePoint) :: t) = components t := by
  rw [components, Text.splitOn_cons_self]
  rfl

theorem components_append {l : Text} (hne : l ≠ []) (h : ('/' : CodePoint) ∉ l) (t : Text) :
    components (l ++ ('/' : CodePoint) :: t) = l :: components t := by
  have kept : (!l.isEmpty) = true := by simpa using hne
  simp only [components, Text.splitOn_append h, List.filter_cons, kept, if_true]

theorem components_of_notMem {l : Text} (hne : l ≠ []) (h : ('/' : CodePoint) ∉ l) :
    components l = [l] := by
  have kept : (!l.isEmpty) = true := by simpa using hne
  simp only [components, Text.splitOn_of_notMem h, List.filter_cons, kept, if_true, List.filter_nil]

theorem isWord_name_ending (hr : r.IsWorded) (git : Bool) : IsWord (r.name ++ ending git) := by
  obtain ⟨-, nonempty, letters⟩ := hr
  have behind : ∀ git, ∀ c ∈ ending git, isNameCharacter c = true := by decide
  exact ⟨List.append_ne_nil_of_left_ne_nil nonempty _,
    List.forall_mem_append.mpr ⟨letters, behind git⟩⟩

theorem bareName_ending {t : Text} (h : Text.endsWith t ".git" = false) (git : Bool) :
    bareName (t ++ ending git) = t := by
  cases git with
  | false =>
    rw [ending, if_neg Bool.false_ne_true, List.append_nil, bareName, h]
    rfl
  | true =>
    have ends : Text.endsWith (t ++ ".git") ".git" = true :=
      List.isSuffixOf_iff_suffix.mpr (List.suffix_append ..)
    have length : (t ++ (".git" : Text)).length - 4 = t.length := by
      rw [List.length_append]
      rfl
    rw [ending, if_pos rfl, bareName, if_pos ends, length, List.take_left]

/-! ### Places -/

/-- The place is one of the repository. -/
structure Place.Locates (p : Place) (r : Repository) : Prop where
  host : Text.lower p.host ∈ hostNames
  parts : ∃ git, (if p.isPage then (components p.path).take 2 else components p.path) =
    [r.owner, r.name ++ ending git]

theorem ofPlace_of_locates {p : Place} (h : p.Locates r) (hr : r.IsWorded)
    (hgit : Text.endsWith r.name ".git" = false) (given : Text) : ofPlace given p = .ok r := by
  obtain ⟨git, hparts⟩ := h.parts
  have known : (!hostNames.contains (Text.lower p.host)) = false := by
    simpa using List.contains_iff_mem.mpr h.host
  have owner : isName r.owner = true := isName_iff.mpr (.inl hr.1)
  have name : isName r.name = true := isName_iff.mpr (.inl hr.2)
  simp only [ofPlace, known, hparts, bareName_ending hgit, owner, name, Bool.false_eq_true,
    if_false, Bool.and_self, if_true]

theorem components_path (hr : r.IsWorded) (git : Bool) :
    components (r.owner ++ ('/' : CodePoint) :: (r.name ++ ending git)) =
        [r.owner, r.name ++ ending git] ∧
      ∀ u, components (r.owner ++ ('/' : CodePoint) ::
          (r.name ++ ending git ++ ('/' : CodePoint) :: u)) =
        r.owner :: (r.name ++ ending git) :: components u := by
  have name := isWord_name_ending hr git
  have slash : isNameCharacter '/' = false := by decide
  have owner (t : Text) := components_append hr.1.1 (hr.1.notMem slash) t
  refine ⟨?_, fun u => ?_⟩
  · rw [owner, components_of_notMem name.1 (name.notMem slash)]
  · rw [owner, components_append name.1 (name.notMem slash)]

theorem placeOf_short {t : Text} (hat : ('@' : CodePoint) ∉ t) (hcolon : (':' : CodePoint) ∉ t)
    (given : Text) : placeOf given t = .ok ⟨homeHost, t, false⟩ := by
  refine placeOf_of_isShort ⟨?_, ?_⟩ given
  · have login : Text.after? "git@" t = none := by
      rw [Option.eq_none_iff_forall_ne_some]
      intro rest hrest
      rw [Text.after?_eq_some_iff] at hrest
      rw [hrest] at hat
      exact hat (List.mem_append_left rest (by decide))
    rw [ofRemote?, login]
    rfl
  · rw [Text.hasInfix_eq_false_iff]
    intro hin
    exact hcolon (hin.subset (by decide))

theorem ofRemote?_login (hhost : IsWord host) {path : Text} (hne : path ≠ [])
    (hline : ('\n' : CodePoint) ∉ path) :
    ofRemote? ("git@" ++ (host ++ (':' : CodePoint) :: path)) = some ⟨host, path, false⟩ := by
  have colon : (':' : CodePoint) ∉ host := hhost.notMem (by decide)
  have cut : Text.cut? ":" (host ++ (':' : CodePoint) :: path) = some (host, path) :=
    Text.cut?_append colon [] path
  have given : (host.isEmpty || path.isEmpty || path.contains ('\n' : CodePoint)) = false := by
    simp [hhost.1, hne, hline]
  rw [ofRemote?, Text.after?_append]
  simp only [Option.bind_some, cut, given, Bool.false_eq_true, if_false]

theorem placeOf_address {scheme authority : Text} (hs : scheme ∈ schemes)
    (ha : Address.IsPlain '@' authority)
    (hhost : ∀ path, Address.host? ⟨scheme, authority, path⟩ = some host) (given rest : Text) :
    placeOf given (scheme ++ ("://" ++ (authority ++ ('/' : CodePoint) :: rest))) =
      .ok ⟨host, Address.pathIn scheme (('/' : CodePoint) :: rest),
        Address.webSchemes.contains scheme⟩ := by
  have remote (t : Text) : ofRemote? (scheme ++ ("://" ++ t)) = none := by
    have known := hs
    simp only [schemes, List.mem_cons, List.not_mem_nil, or_false] at known
    rcases known with rfl | rfl | rfl | rfl <;> rfl
  have marked (t : Text) : Text.hasInfix "://" (scheme ++ ("://" ++ t)) = true := by
    rw [Text.hasInfix_iff, ← List.append_assoc]
    exact List.infix_append ..
  rw [placeOf, remote, marked, Address.ofText_spelled hs ha rest]
  have known : schemes.contains scheme = true := List.contains_iff_mem.mpr hs
  simp only [if_true]
  change ofAddress given _ = _
  simp only [ofAddress, hhost, known, if_true]

theorem isPlain_path (hr : r.IsWorded) (git : Bool) : Address.IsPlain '/'
    (('/' : CodePoint) :: (r.owner ++ ('/' : CodePoint) :: (r.name ++ ending git))) := by
  have name : Address.IsPlain '/' (r.name ++ ending git) := .of_isWord (isWord_name_ending hr git)
  have owner : Address.IsPlain '/' r.owner := .of_isWord hr.1
  exact List.forall_mem_cons.mpr ⟨.inr rfl, Address.isPlain_append.mpr
    ⟨owner, List.forall_mem_cons.mpr ⟨.inr rfl, name⟩⟩⟩

theorem components_pathIn (hr : r.IsWorded) (git : Bool) (scheme : Text) {rest : Text}
    (hrest : rest = [] ∨ ∃ tail, rest = ('/' : CodePoint) :: tail) :
    (components (Address.pathIn scheme (('/' : CodePoint) ::
      (r.owner ++ ('/' : CodePoint) :: (r.name ++ ending git ++ rest))))).take 2 =
        [r.owner, r.name ++ ending git] := by
  obtain ⟨whole, begins⟩ := components_path hr git
  rcases hrest with rfl | ⟨tail, rfl⟩
  · rw [List.append_nil, Address.pathIn_of_isPlain (isPlain_path hr git), components_slash, whole]
    rfl
  · obtain ⟨u, hu⟩ := Address.exists_pathIn_append (isPlain_path hr git) scheme tail
    have path : Address.pathIn scheme (('/' : CodePoint) :: (r.owner ++ ('/' : CodePoint) ::
        (r.name ++ ending git ++ ('/' : CodePoint) :: tail))) =
          ('/' : CodePoint) :: (r.owner ++ ('/' : CodePoint) ::
            (r.name ++ ending git ++ ('/' : CodePoint) :: u)) := by
      simpa only [List.cons_append, List.append_assoc] using hu
    rw [path, components_slash, begins]
    rfl

/-- The host of a place is compared in lower case, and that of an address is so already. -/
theorem IsHome.lower_lower_mem (h : IsHome host) : Text.lower (Text.lower host) ∈ hostNames :=
  (IsHome.of_mem h.lower_mem).lower_mem

theorem exists_placeOf_page (hr : r.IsWorded) (hhost : IsHome host) (secure git : Bool)
    {rest : Text} (hrest : rest = [] ∨ ∃ tail, rest = ('/' : CodePoint) :: tail) (given : Text) :
    ∃ p : Place, placeOf given (pageText secure git host r ++ rest) = .ok p ∧ p.Locates r := by
  have text : pageText secure git host r ++ rest = pageScheme secure ++ ("://" ++ (host ++
      ('/' : CodePoint) :: (r.owner ++ ('/' : CodePoint) :: (r.name ++ ending git ++ rest)))) := by
    simp only [pageText, slash_eq, List.append_assoc, List.cons_append, List.nil_append]
  have schemes : ∀ secure, pageScheme secure ∈ schemes ∧
      Address.webSchemes.contains (pageScheme secure) = true := by decide
  obtain ⟨known, web⟩ := schemes secure
  have place := placeOf_address known (.of_isWord hhost.isWord)
    (fun path => Address.host?_host hhost.isWord) given
  rw [text]
  refine ⟨_, place _, hhost.lower_lower_mem, git, ?_⟩
  rw [if_pos web]
  exact components_pathIn hr git _ hrest

theorem exists_placeOf_login (hr : r.IsWorded) (hhost : IsHome host) (given : Text) :
    ∃ p : Place, placeOf given (Spelling.login.text host r) = .ok p ∧ p.Locates r := by
  have text : Spelling.login.text host r = "ssh" ++ ("://" ++ ("git@" ++ host ++
      ('/' : CodePoint) :: (r.owner ++ ('/' : CodePoint) :: (r.name ++ ending true)))) := by
    have login : ("ssh://git@" : Text) = "ssh" ++ ("://" ++ "git@") := by decide
    simp only [Spelling.text, login, slash_eq, ending, if_true, List.append_assoc, List.cons_append,
      List.nil_append]
  have known : ("ssh" : Text) ∈ schemes ∧ Address.webSchemes.contains "ssh" = false := by decide
  have plain : Address.IsPlain '@' ("git@" ++ host) :=
    Address.isPlain_append.mpr ⟨by decide, .of_isWord hhost.isWord⟩
  have place := placeOf_address known.1 plain
    (fun path => Address.host?_login hhost.isWord) given
  rw [text]
  refine ⟨_, place _, hhost.lower_lower_mem, true, ?_⟩
  rw [known.2, Address.pathIn_of_isPlain (isPlain_path hr true), components_slash]
  exact (components_path hr true).1

theorem exists_placeOf_remote (hr : r.IsWorded) (hhost : IsHome host) (given : Text) :
    ∃ p : Place, placeOf given (Spelling.remote.text host r) = .ok p ∧ p.Locates r := by
  have text : Spelling.remote.text host r = "git@" ++ (host ++ (':' : CodePoint) ::
      (r.owner ++ ('/' : CodePoint) :: (r.name ++ ending true))) := by
    have colon : (":" : Text) = [(':' : CodePoint)] := rfl
    simp only [Spelling.text, colon, slash_eq, ending, if_true, List.append_assoc, List.cons_append,
      List.nil_append]
  have nonempty : r.owner ++ ('/' : CodePoint) :: (r.name ++ ending true) ≠ [] :=
    List.append_ne_nil_of_left_ne_nil hr.1.1 _
  have line : ('\n' : CodePoint) ∉ r.owner ++ ('/' : CodePoint) :: (r.name ++ ending true) :=
    fun hmem => (isPlain_path hr true).notMem (by decide) (by decide) (List.mem_cons_of_mem _ hmem)
  refine ⟨⟨host, _, false⟩, ?_, hhost.lower_mem, true, (components_path hr true).1⟩
  rw [text, placeOf, ofRemote?_login hhost.isWord nonempty line]

theorem exists_placeOf_short {t : Text} (ht : Address.IsPlain '/' t)
    (hparts : ∃ git, components t = [r.owner, r.name ++ ending git]) (given : Text) :
    ∃ p : Place, placeOf given t = .ok p ∧ p.Locates r := by
  have place := placeOf_short (ht.notMem (by decide) (by decide))
    (ht.notMem (by decide) (by decide)) given
  have home : Text.lower homeHost ∈ hostNames := by decide
  exact ⟨_, place, home, hparts⟩

/-- The place that a spelling names. -/
theorem exists_placeOf_spelling (hr : r.IsWorded) (hhost : IsHome host) (s : Spelling)
    (given : Text) : ∃ p : Place, placeOf given (s.text host r) = .ok p ∧ p.Locates r := by
  have plain (git : Bool) := (List.forall_mem_cons.mp (isPlain_path hr git)).2
  cases s with
  | short =>
    have text : Spelling.short.text host r =
        r.owner ++ ('/' : CodePoint) :: (r.name ++ ending false) := by
      simp only [Spelling.text, slash_eq, ending, Bool.false_eq_true, if_false, List.append_assoc,
        List.cons_append, List.nil_append, List.append_nil]
    rw [text]
    exact exists_placeOf_short (plain false) ⟨false, (components_path hr false).1⟩ given
  | shortGit =>
    have text : Spelling.shortGit.text host r =
        r.owner ++ ('/' : CodePoint) :: (r.name ++ ending true) := by
      simp only [Spelling.text, slash_eq, ending, if_true, List.append_assoc, List.cons_append,
        List.nil_append]
    rw [text]
    exact exists_placeOf_short (plain true) ⟨true, (components_path hr true).1⟩ given
  | shortSlash =>
    have text : Spelling.shortSlash.text host r =
        r.owner ++ ('/' : CodePoint) :: (r.name ++ ending false ++ [('/' : CodePoint)]) := by
      simp only [Spelling.text, slash_eq, ending, Bool.false_eq_true, if_false, List.append_assoc,
        List.cons_append, List.nil_append]
    have whole := plain false
    rw [text]
    refine exists_placeOf_short ?_ ⟨false, (components_path hr false).2 []⟩ given
    rw [← List.cons_append, ← List.append_assoc]
    exact Address.isPlain_append.mpr ⟨whole, by decide⟩
  | page secure git =>
    have page := exists_placeOf_page hr hhost secure git (.inl rfl) given
    rwa [List.append_nil] at page
  | below secure git tail =>
    rw [Spelling.text, List.append_assoc]
    exact exists_placeOf_page hr hhost secure git (.inr ⟨tail, rfl⟩) given
  | login => exact exists_placeOf_login hr hhost given
  | remote => exact exists_placeOf_remote hr hhost given

/-- **All spellings of a repository** are read as the repository: owner and name are words, the name
without the ending of remotes, the host is in whatever case, and there is white space around. -/
theorem ofValue_spelling (hr : r.IsWorded) (hgit : Text.endsWith r.name ".git" = false)
    (hhost : IsHome host) {front back : Text} (hfront : ∀ c ∈ front, c.isSpace = true)
    (hback : ∀ c ∈ back, c.isSpace = true) (s : Spelling) :
    ofValue (.text (front ++ s.text host r ++ back)) = .ok r := by
  obtain ⟨s', hstrip⟩ := strip_spelling hr hhost hfront hback s
  obtain ⟨p, hplace, hp⟩ := exists_placeOf_spelling hr hhost s' (front ++ s.text host r ++ back)
  have given : (s'.text host r).isEmpty = false :=
    List.isEmpty_eq_false_iff.mpr (text_ne_nil hr host s')
  rw [ofValue, ofText, hstrip]
  simp only [given, Bool.false_eq_true, if_false, hplace]
  exact ofPlace_of_locates hp hr hgit _

/-- Owner and name may be made of dots and dashes, and what stands below the page may hold the marks
of addresses and of remotes. -/
theorem ofValue_spelling_dots :
    ofValue (.text "\t\u3000https://wWw.GitHub.COM/../-.git-.git/;a/b;c?[d]#git@e://f \n") =
      .ok ⟨"..", "-.git-"⟩ := by
  have front : ∀ c ∈ ("\t\u3000" : Text), c.isSpace = true := by decide +kernel
  have back : ∀ c ∈ (" \n" : Text), c.isSpace = true := by decide +kernel
  have home : IsHome "wWw.GitHub.COM" := by decide +kernel
  have words : (⟨"..", "-.git-"⟩ : Repository).IsWorded := ⟨by decide +kernel, by decide +kernel⟩
  have bare : Text.endsWith (⟨"..", "-.git-"⟩ : Repository).name ".git" = false := by
    decide +kernel
  have spelled := ofValue_spelling words bare home front back
    (.below true true ";a/b;c?[d]#git@e://f")
  have text : ("\t\u3000https://wWw.GitHub.COM/../-.git-.git/;a/b;c?[d]#git@e://f \n" : Text) =
      "\t\u3000" ++ (Spelling.below true true ";a/b;c?[d]#git@e://f").text "wWw.GitHub.COM"
        ⟨"..", "-.git-"⟩ ++ " \n" := by
    decide +kernel
  rw [text]
  exact spelled

end RepoScan.Repository
