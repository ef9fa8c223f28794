import RepoScan.Proofs.Clone
import RepoScan.Proofs.Redaction
import RepoScan.Proofs.Text.Space

/-!
# What a failed clone tells

A clone that fails is reported with the complaint of the program, which may repeat its command line
and the token in it.  The report is redacted, but only after the complaint was cut off.

* `Clone.result_make_of_fault` : how a clone fails;
* `Clone.notice_mem_checkout` : what is told of it;
* `Clone.make_hides_token` : **the token is not in the report**, unless one of its occurrences runs
  on into further token characters;
* `Clone.make_shows_iff` : **more of the token than redaction leaves is in the report** exactly
  where the complaint is cut off inside of the token, or the report says it in words of its own.
-/

namespace RepoScan

theorem Command.result_finish_of_exits {ps : Programs} {c : Command} {program : Text}
    {words : List Text} {e : Exit} {statuses : List Int} (hwords : c.words = program :: words)
    (hrun : c.launch ps = .ok (.exits e)) (hstatus : e.status ∉ statuses) :
    ((c.finish statuses).course ps).result =
      .error (.failed (.exited program e.status (complaintText e.complaint))) := by
  have hfail : statuses.contains e.status = false := by simpa using hstatus
  rw [finish, Task.result_bind, result_execute hwords, hrun]
  dsimp only
  rw [hfail, hwords]
  rfl

theorem Task.result_run_eq_tool_iff {α : Type} {ps : Programs} {x : Task α} {m : Text} :
    (x.run ps).result = .error (.tool m) ↔ (x.course ps).result = .error (.failed (.tool m)) :=
  result_run_eq_error_iff ps (e := .tool m) nofun

namespace Clone

/-- The characters of tokens. -/
def isTokenCharacter (c : CodePoint) : Bool := c.isAsciiAlnum || c == '_'

variable {ps : Programs} {r : Repository} {destination : Path} {depth : Option Int}
  {t : Text} {d : Option Text}

theorem notMem_token {c : CodePoint} (ht : ∀ c ∈ t, isTokenCharacter c = true)
    (hc : isTokenCharacter c = false) : c ∉ t := by
  intro hmem
  rw [ht c hmem] at hc
  cases hc

/-! ### Failures of clones -/

theorem given_of_ne_nil (h : t ≠ []) : given (some t) = some t :=
  Option.filter_some_pos (by simpa using h)

/-- A clone whose program fails is reported with the token redacted. -/
theorem result_make_of_fault {e : Failure} (hne : t ≠ []) (hd : depthText depth = .ok d)
    (he : (((cloneCommand r destination (some t) d).finish [0]).course ps).result =
      .error (.failed e)) (htool : e.isTool = true) :
    ((make r destination (some t) depth).course ps).result =
      .error (.failed (.tool (Text.replaceAll t (redact t) e.message))) := by
  rw [result_make hd, he]
  simp only [redactFailure, htool, if_true, given_of_ne_nil hne]

/-- A clone that fails in time is told of with its failure. -/
theorem notice_mem_checkout {temporary : Path} {token : Option Text} {limit : Option Binary64}
    {m : Text} (hm : ((make r (temporary.joinText r.name) token depth).course ps).result =
      .error (.failed (.tool m))) (hlimit : limit.any Binary64.isNoTime = false) :
    .notice (.cloneFailed r.fullName (.tool m)) ∈
      ((checkout (.ok temporary) r token depth limit).run ps).events := by
  have ended : ((make r (temporary.joinText r.name) token depth).course ps).result ≠
      .error .calledOff := by
    rw [hm]
    exact nofun
  have hwithin := Task.run_within ps hlimit ended
  have failed : (((make r (temporary.joinText r.name) token depth).within limit).course ps).result =
      .error (.failed (.tool m)) := by
    rw [← Task.result_run_eq_tool_iff, hwithin, Task.result_run_eq_tool_iff, hm]
  have attempted : (((make r (temporary.joinText r.name) token depth).within limit).course
      ps).result ≠ .error .calledOff := by
    rw [failed]
    exact nofun
  rw [checkout, Task.run_bind, Task.run_ofExcept, Outcome.events_bind_of_ok _ rfl, Task.run_bind,
    Task.run_attempt ps attempted, Outcome.events_bind_of_ok _ (Outcome.result_attempt _),
    Task.result_run_eq_tool_iff.mpr failed]
  refine List.mem_append_right _ (List.mem_append_right _ ?_)
  exact List.mem_singleton.mpr rfl

/-! ### Whole tokens -/

/-- **The token is not in the report of a failed clone**, unless one of its occurrences in the
report runs on into a further token character. -/
theorem make_hides_token {e : Failure} (hne : t ≠ []) (hchars : ∀ c ∈ t, isTokenCharacter c = true)
    (hd : depthText depth = .ok d)
    (he : (((cloneCommand r destination (some t) d).finish [0]).run ps).result = .error e)
    (htool : e.isTool = true)
    (hends : Text.NeverBefore (fun c => isTokenCharacter c = true) t e.message) :
    ∃ m, ((make r destination (some t) depth).run ps).result = .error (.tool m) ∧
      m = Text.replaceAll t (redact t) e.message ∧ Text.hasInfix t m = false := by
  have own : e ≠ .calledOff := by
    rintro rfl
    cases htool
  have failed := result_make_of_fault hne hd ((Task.result_run_eq_error_iff ps own).mp he) htool
  refine ⟨_, Task.result_run_eq_tool_iff.mpr failed, rfl, ?_⟩
  rw [Text.hasInfix_eq_false_iff]
  refine Text.not_infix_replaceAll_redact hne (notMem_token hchars (by decide)) ?_
  intro i hi hp c hc hmem
  exact hends i hi hp c hc (hchars c hmem)

/-- The repository of the clones below. -/
def sampleRepository : Repository := ⟨"acme", "shop"⟩

/-- Programs that fail with a complaint. -/
def complaining (complaint : Text) : Programs := fun _ =>
  some (.exits ⟨128, [], complaint.flatMap Utf8.encodePoint, Files.empty⟩)

theorem result_finish_complaining (token : Option Text) (complaint : Text) :
    (((cloneCommand sampleRepository ⟨"/", ["d"]⟩ token none).finish [0]).run
      (complaining complaint)).result = .error
        (.exited "git" 128 (Command.complaintText (complaint.flatMap Utf8.encodePoint))) := rfl

/-- A token that begins as it ends is hidden, also where more of its end stands before it. -/
theorem make_hides_token_repeating :
    ∃ m, ((make sampleRepository ⟨"/", ["d"]⟩ (some "abcabcab") none).run
        (complaining "no such token: bcabcabcab, abcabcab")).result = .error (.tool m) ∧
      Text.hasInfix "abcabcab" m = false := by
  have hfail := result_finish_complaining (some "abcabcab") "no such token: bcabcabcab, abcabcab"
  have hends : Text.NeverBefore (fun c => isTokenCharacter c = true) "abcabcab"
      (Failure.exited "git" 128 "no such token: bcabcabcab, abcabcab").message := by
    decide +kernel
  have hdepth : depthText none = .ok none := rfl
  obtain ⟨m, hm, -, hidden⟩ := make_hides_token (by decide) (by decide) hdepth hfail rfl hends
  exact ⟨m, hm, hidden⟩

/-! ### Parts of tokens -/

/-- The address of a clone up to the colon before the token. -/
def addressStart : Text := "https://x-access-token"

/-- The address of a clone from behind the at sign after the token. -/
def addressEnd (r : Repository) : Text := "github.com/" ++ r.owner ++ "/" ++ r.name ++ ".git"

theorem address_eq (h : t ≠ []) :
    address Repository.homeHost r (some t) =
      addressStart ++ (':' : CodePoint) :: (t ++ ('@' : CodePoint) :: addressEnd r) := by
  simp only [address, given_of_ne_nil h, addressEnd, List.append_assoc]
  rfl

theorem complaintText_of_echo {p s : Text} {complaint : Bytes} (h : t ≠ [])
    (hecho : Utf8.decodeValid complaint = p ++ address Repository.homeHost r (some t) ++ s) :
    Command.complaintText complaint =
      (Text.trimLeft CodePoint.isSpace p ++ addressStart ++ (':' : CodePoint) ::
        (t ++ ('@' : CodePoint) :: (addressEnd r ++ Text.trimRight CodePoint.isSpace s))).take
          Command.complaintLimit := by
  have first : ∀ c ∈ (address Repository.homeHost r (some t)).head?, c.isSpace = false := by
    rintro c ⟨⟩
    decide
  have last : ∀ c ∈ (address Repository.homeHost r (some t)).getLast?, c.isSpace = false := by
    have ending : ∃ front, address Repository.homeHost r (some t) =
        front ++ [('t' : CodePoint)] := by
      refine ⟨addressStart ++ (':' : CodePoint) :: (t ++ ('@' : CodePoint) ::
        ("github.com/" ++ r.owner ++ "/" ++ r.name ++ ".gi")), ?_⟩
      simp only [address_eq h, addressEnd, List.append_assoc, List.cons_append]
      rfl
    obtain ⟨front, hfront⟩ := ending
    rw [hfront, List.getLast?_concat]
    rintro c ⟨⟩
    decide
  have notNil : address Repository.homeHost r (some t) ≠ [] := by
    rw [address_eq h]
    simp
  rw [Command.complaintText, hecho, List.append_assoc, Text.strip_append_append notNil first last,
    address_eq h]
  simp only [List.append_assoc, List.cons_append]

/-- Where the token stands in what is reported of a complaint that begins with `p` and goes on with
the address of a clone. -/
def tokenPlace (p : Text) : Nat := (Text.trimLeft CodePoint.isSpace p ++ addressStart).length + 1

/-- The complaint is cut off inside of the token, not before its first five characters. -/
def CutsToken (p t : Text) : Prop :=
  tokenPlace p + 5 ≤ Command.complaintLimit ∧ Command.complaintLimit < tokenPlace p + t.length

instance (p t : Text) : Decidable (CutsToken p t) := instDecidableAnd

/-- What is reported of a complaint shows more of the token where it is cut off inside of it. -/
theorem infix_complaintText_iff {p s : Text} {complaint : Bytes} (hlong : 8 < t.length)
    (hchars : ∀ c ∈ t, isTokenCharacter c = true)
    (hecho : Utf8.decodeValid complaint = p ++ address Repository.homeHost r (some t) ++ s)
    (honly : Text.OccursOnlyIn (t.take 5) (p ++ addressStart ++ [(':' : CodePoint)]) t
      (('@' : CodePoint) :: (addressEnd r ++ s))) :
    t.take 5 <:+: Text.replaceAll t (redact t) (Command.complaintText complaint) ↔
      CutsToken p t := by
  have hne : t ≠ [] := by
    rintro rfl
    simp at hlong
  obtain ⟨hbefore, hbehind⟩ := honly.outside (by simpa using hne)
  have ha : ¬ t.take 5 <:+: Text.trimLeft CodePoint.isSpace p ++ addressStart := by
    obtain ⟨spaces, hp⟩ := Text.trimLeft_suffix CodePoint.isSpace p
    refine fun h => hbefore (h.trans ⟨spaces, [':'], ?_⟩)
    rw [← List.append_assoc, hp]
  have hb : ¬ t.take 5 <:+: addressEnd r ++ Text.trimRight CodePoint.isSpace s := by
    obtain ⟨spaces, hs⟩ := Text.trimRight_prefix CodePoint.isSpace s
    refine fun h => hbehind (h.trans ⟨['@'], spaces, ?_⟩)
    rw [List.singleton_append, List.cons_append, List.append_assoc, hs]
  rw [complaintText_of_echo hne hecho]
  -- the colon and the at sign are no token characters
  exact Text.infix_replaceAll_take_iff hlong (notMem_token hchars (by decide))
    (notMem_token hchars (by decide)) (notMem_token hchars (by decide)) ha hb _

/-- What the report of a failed clone says before the complaint. -/
def reportStart (status : Int) : Text := "git exited with status " ++ Text.ofInt status ++ ":"

theorem message_exited (status : Int) (complaint : Text) :
    (Failure.exited "git" status complaint).message =
      reportStart status ++ (' ' : CodePoint) :: complaint := by
  simp only [Failure.message, reportStart, List.append_assoc]
  rfl

/-- **More of a token shows in the report of a failed clone than the four characters that redaction
leaves at either end** exactly where the complaint is cut off inside of the token, or where it shows
in what the report says itself. -/
theorem make_shows_iff {p s : Text} {e : Exit} (hlong : 8 < t.length)
    (hchars : ∀ c ∈ t, isTokenCharacter c = true) (hd : depthText depth = .ok d)
    (hrun : (cloneCommand r destination (some t) d).launch ps = .ok (.exits e))
    (hstatus : e.status ≠ 0)
    (hecho : Utf8.decodeValid e.complaint = p ++ address Repository.homeHost r (some t) ++ s)
    (honly : Text.OccursOnlyIn (t.take 5) (p ++ addressStart ++ [(':' : CodePoint)]) t
      (('@' : CodePoint) :: (addressEnd r ++ s))) :
    ∃ m, ((make r destination (some t) depth).run ps).result = .error (.tool m) ∧
      (∀ temporary limit, destination = temporary.joinText r.name →
        limit.any Binary64.isNoTime = false →
        .notice (.cloneFailed r.fullName (.tool m)) ∈
          ((checkout (.ok temporary) r (some t) depth limit).run ps).events) ∧
      (t.take 5 <:+: m ↔ CutsToken p t ∨
        t.take 5 <:+: Text.replaceAll t (redact t) (reportStart e.status)) := by
  have hne : t ≠ [] := by
    rintro rfl
    simp at hlong
  have hblank : (' ' : CodePoint) ∉ t := notMem_token hchars (by decide)
  have hfail : (((cloneCommand r destination (some t) d).finish [0]).course ps).result =
      .error (.failed (.exited "git" e.status (Command.complaintText e.complaint))) :=
    Command.result_finish_of_exits rfl hrun (by simpa using hstatus)
  have hm := result_make_of_fault hne hd hfail rfl
  refine ⟨_, Task.result_run_eq_tool_iff.mpr hm, ?_, ?_⟩
  · rintro temporary limit rfl hlimit
    exact notice_mem_checkout hm hlimit
  · rw [message_exited, Text.replaceAll_append_cons hblank hne,
      Text.infix_append_cons_iff fun h => hblank (List.mem_of_mem_take h),
      infix_complaintText_iff hlong hchars hecho honly, or_comm]

/-- The token of the clones below. -/
def sampleToken : Text := "s3cr3tTokenValue"

/-- A complaint that repeats the address of a clone. -/
def echo (p s : Text) : Text :=
  p ++ address Repository.homeHost sampleRepository (some sampleToken) ++ s

/-- Advice, and the complaint that the address could not be reached. -/
def longComplaint : Text :=
  "remote: This repository is private.\n" ++ "remote: Its owners decide who may read it.\n" ++
  "remote: Ask one of them to let you in.\n" ++ "remote: Then try again.\n" ++
  "fatal: unable to access '"

/-- Nothing more of the token shows if the complaint begins with the address. -/
theorem make_shows_iff_shortComplaint :
    ∃ m, ((make sampleRepository ⟨"/", ["d"]⟩ (some sampleToken) none).run
        (complaining (echo "fatal: unable to access '" "/'"))).result = .error (.tool m) ∧
      ¬ sampleToken.take 5 <:+: m := by
  have hecho : Utf8.decodeValid ((echo "fatal: unable to access '" "/'").flatMap Utf8.encodePoint) =
      echo "fatal: unable to access '" "/'" := by decide +kernel
  have honly : Text.OccursOnlyIn (sampleToken.take 5)
      ("fatal: unable to access '" ++ addressStart ++ [(':' : CodePoint)]) sampleToken
      (('@' : CodePoint) :: (addressEnd sampleRepository ++ "/'")) := by decide +kernel
  have hrun : (cloneCommand sampleRepository ⟨"/", ["d"]⟩ (some sampleToken) none).launch
      (complaining (echo "fatal: unable to access '" "/'")) = .ok (.exits ⟨128, [],
        (echo "fatal: unable to access '" "/'").flatMap Utf8.encodePoint, Files.empty⟩) := rfl
  have hdepth : depthText none = .ok none := rfl
  obtain ⟨m, hm, -, hshows⟩ :=
    make_shows_iff (by decide) (by decide) hdepth hrun (by decide) hecho honly
  exact ⟨m, hm, fun h => absurd (hshows.mp h) (by decide +kernel)⟩

/-- Ten characters of the token show if there is advice before the address. -/
theorem make_shows_longComplaint :
    8 < sampleToken.length ∧ (∀ c ∈ sampleToken, isTokenCharacter c = true) ∧
    Utf8.decodeValid ((echo longComplaint "/'").flatMap Utf8.encodePoint) =
      echo longComplaint "/'" ∧
    Text.OccursOnlyIn (sampleToken.take 5) (longComplaint ++ addressStart ++ [(':' : CodePoint)])
      sampleToken (('@' : CodePoint) :: (addressEnd sampleRepository ++ "/'")) ∧
    ∃ m, ((make sampleRepository ⟨"/", ["d"]⟩ (some sampleToken) none).run
        (complaining (echo longComplaint "/'"))).result = .error (.tool m) ∧
      m = "git exited with status 128: " ++ longComplaint ++ "https://x-access-token:s3cr3tToke" ∧
      sampleToken.take 5 <:+: m := by
  have hfail := (Task.result_run_eq_error_iff _ (by exact nofun)).mp
    (result_finish_complaining (some sampleToken) (echo longComplaint "/'"))
  have hdepth : depthText none = .ok none := rfl
  have failed := result_make_of_fault (by decide) hdepth hfail rfl
  exact ⟨by decide, by decide, by decide +kernel, by decide +kernel, _,
    Task.result_run_eq_tool_iff.mpr failed, by decide +kernel, by decide +kernel⟩

end Clone

end RepoScan
