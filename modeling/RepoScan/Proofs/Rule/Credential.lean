import RepoScan.Proofs.Pattern
import RepoScan.Proofs.Rule
import RepoScan.Proofs.Text.Case

/-!
# Credentials that are told by their form

The identifier of an access key and an access token are words of a fixed length that begin with a
mark.  Their rules look for the edges of a word on both sides, so they find such a word where it
stands by itself, and no part of a longer one.

* `Rule.IsAccessKeyId`, `Rule.IsAccessToken` : the forms of the two;
* `Rule.IsMarked.isWord` : a text of one of these forms is a word;
* `Rule.fires_awsAccessKey_iff`, `Rule.fires_githubToken_iff` : the rules find such words;
* `Rule.secret_of_credential` : **every credential in a line is found**, and nothing else by these
  two rules.
-/

namespace RepoScan.Rule

open Pattern

/-- One of some marks, and after it `n` characters of a class. -/
def IsMarked (marks : List Text) (n : Nat) (s : CharClass) (w : Text) : Prop :=
  ∃ mark ∈ marks, ∃ rest, w = mark ++ rest ∧ rest.length = n ∧ ∀ c ∈ rest, s c = true

/-- The identifier of an access key: sixteen digits and upper-case letters after a mark. -/
def IsAccessKeyId (w : Text) : Prop := IsMarked ["AKIA", "ASIA"] 16 keyIdChar w

/-- The marks of short access tokens. -/
def shortMarks : List Text := ["ghp_", "gho_", "ghu_", "ghs_", "ghr_"]

/-- The characters of a long access token. -/
def tokenChar : CharClass := fun c => c.isAsciiAlnum || c == '_'

/-- An access token: 36 letters and digits after a short mark, or 82 characters after a long one. -/
def IsAccessToken (w : Text) : Prop :=
  IsMarked shortMarks 36 alnum w ∨ IsMarked ["github_pat_"] 82 tokenChar w

/-! ### Words -/

theorem isWord_of_tokenChar {c : CodePoint} (h : tokenChar c = true) : c.isWord = true := by
  have ascii : c.isAscii = true := by
    simp only [tokenChar, CodePoint.isAsciiAlnum, CodePoint.isAsciiLetter, CodePoint.isAsciiDigit,
      CodePoint.between, Char.reduceToNat, Bool.or_eq_true, Bool.and_eq_true, decide_eq_true_eq,
      CodePoint.isAsciiUpper_iff, CodePoint.isAsciiLower_iff, beq_iff_eq] at h
    refine decide_eq_true ?_
    rcases h with h | rfl
    · omega
    · decide
  rw [CodePoint.isWord, if_pos ascii]
  exact h

theorem tokenChar_of_alnum {c : CodePoint} (h : alnum c = true) : tokenChar c = true :=
  Bool.or_eq_true_iff.mpr (.inl h)

theorem alnum_of_keyIdChar {c : CodePoint} (h : keyIdChar c = true) : alnum c = true := by
  rw [alnum, CodePoint.isAsciiAlnum, CodePoint.isAsciiLetter]
  rcases Bool.or_eq_true_iff.mp h with h | h <;> simp [h]

/-- A mark and what follows it are a word, if both are made of word characters. -/
theorem IsMarked.isWord {marks : List Text} {n : Nat} {s : CharClass} {w : Text}
    (h : IsMarked marks n s w) (hmarks : ∀ mark ∈ marks, mark ≠ [] ∧ ∀ c ∈ mark, c.isWord = true)
    (hs : ∀ c, s c = true → c.isWord = true) : w ≠ [] ∧ ∀ c ∈ w, c.isWord = true := by
  obtain ⟨mark, hmark, rest, rfl, -, hrest⟩ := h
  obtain ⟨hne, hword⟩ := hmarks mark hmark
  exact ⟨List.append_ne_nil_of_left_ne_nil hne rest,
    List.forall_mem_append.mpr ⟨hword, fun c hc => hs c (hrest c hc)⟩⟩

theorem IsAccessKeyId.isWord {w : Text} (h : IsAccessKeyId w) :
    w ≠ [] ∧ ∀ c ∈ w, c.isWord = true :=
  IsMarked.isWord h (by decide) fun _ hc =>
    isWord_of_tokenChar (tokenChar_of_alnum (alnum_of_keyIdChar hc))

theorem IsAccessToken.isWord {w : Text} (h : IsAccessToken w) :
    w ≠ [] ∧ ∀ c ∈ w, c.isWord = true := by
  rcases h with h | h
  · exact h.isWord (by decide) fun _ hc => isWord_of_tokenChar (tokenChar_of_alnum hc)
  · exact h.isWord (by decide) fun _ hc => isWord_of_tokenChar hc

/-! ### What the rules look for -/

theorem isMarked_iff {marks : List Text} {n : Nat} {s : CharClass} {w : Text} :
    (∃ u v, w = u ++ v ∧ u ∈ marks ∧ v.length = n ∧ ∀ c ∈ v, s c = true) ↔
      IsMarked marks n s w := by
  constructor
  · rintro ⟨mark, rest, rfl, hmark, hrest⟩
    exact ⟨mark, hmark, rest, rfl, hrest⟩
  · rintro ⟨mark, hmark, rest, rfl, hrest⟩
    exact ⟨mark, rest, rfl, hmark, hrest⟩

theorem reads_shortMark :
    (literal "gh" ++ oneOf "pousr" ++ literal "_").Reads fun w => w ∈ shortMarks := by
  have marks : ∀ c ∈ Text.ofString "pousr", "gh" ++ [c] ++ "_" ∈ shortMarks := by decide
  have letters : ∀ w ∈ shortMarks, ∃ c ∈ Text.ofString "pousr", w = "gh" ++ [c] ++ "_" := by decide
  refine (((reads_literal "gh").seq (reads_one _)).seq (reads_literal "_")).congr fun w => ?_
  constructor
  · rintro ⟨_, _, rfl, ⟨_, _, rfl, rfl, c, rfl, hc⟩, rfl⟩
    exact marks c (List.contains_iff_mem.mp hc)
  · intro h
    obtain ⟨c, hc, rfl⟩ := letters w h
    exact ⟨_, _, rfl, ⟨_, _, rfl, rfl, c, rfl, List.contains_iff_mem.mpr hc⟩, rfl⟩

theorem fires_iff {r : Rule} {line : Text} : r.fires line = true ↔ r.pattern.Occurs line := by
  rw [fires, Probe.occursIn_eq, occursIn_iff]
  rfl

theorem exists_secret_of_fires {r : Rule} {line : Text} (hr : r ∈ table)
    (hs : r.isSecret = true) (hf : r.fires line = true) :
    ∃ m, matchLine line secretTable = [m] ∧ m.rule.isSecret = true := by
  rw [matchLine_secretTable, secretIn?]
  cases hfound : table.find? fun r => r.isSecret && r.fires line with
  | none =>
    have none := List.find?_eq_none.mp hfound r hr
    rw [hs, hf] at none
    exact absurd rfl none
  | some q =>
    have found := List.find?_some hfound
    exact ⟨q.matchIn line, rfl, (Bool.and_eq_true_iff.mp found).1⟩

/-- The rule for access keys finds the words that are the identifier of one. -/
theorem fires_awsAccessKey_iff {line : Text} : awsAccessKey.fires line = true ↔
    ∃ w, Text.IsRun CodePoint.isWord line w ∧ IsAccessKeyId w := by
  have form := ((reads_literals ["AKIA", "ASIA"]).readsAfter edge).seq (reads_exactly 16 keyIdChar)
  have word := form.occurs_edge_iff (t := line) fun w h => IsAccessKeyId.isWord (isMarked_iff.mp h)
  rw [fires_iff]
  exact word.trans (exists_congr fun w => and_congr_right fun _ => isMarked_iff)

/-- The rule for access tokens finds the words that are one. -/
theorem fires_githubToken_iff {line : Text} : githubToken.fires line = true ↔
    ∃ w, Text.IsRun CodePoint.isWord line w ∧ IsAccessToken w := by
  have short := (reads_shortMark.seq (reads_exactly 36 alnum)).congr fun _ => isMarked_iff
  have mark := (reads_literal "github_pat_").congr fun _ => List.mem_singleton.symm
  have long := (mark.seq (reads_exactly 82 tokenChar)).congr fun _ => isMarked_iff
  have form := (short.alt long).readsAfter edge
  rw [fires_iff]
  exact form.occurs_edge_iff fun w h => IsAccessToken.isWord h

/-- **Every credential in a line is found**, and these two rules find nothing else.  A credential is
a word of the line, with no word characters on either side; where there is one, the rules for
secrets report a secret, and no more than one. -/
theorem secret_of_credential (line : Text) :
    (∃ r, named? "aws_access_key" = some r ∧
      (r.fires line = true ↔ ∃ w, Text.IsRun CodePoint.isWord line w ∧ IsAccessKeyId w)) ∧
    (∃ r, named? "github_token" = some r ∧
      (r.fires line = true ↔ ∃ w, Text.IsRun CodePoint.isWord line w ∧ IsAccessToken w)) ∧
    ∀ w, Text.IsRun CodePoint.isWord line w → IsAccessKeyId w ∨ IsAccessToken w →
      ∃ m, matchLine line secretTable = [m] ∧ m.rule.isSecret = true := by
  have keys : awsAccessKey ∈ table := .tail _ (.head _)
  have tokens : githubToken ∈ table := .tail _ (.tail _ (.head _))
  refine ⟨⟨awsAccessKey, rfl, fires_awsAccessKey_iff⟩,
    ⟨githubToken, rfl, fires_githubToken_iff⟩, fun w hw form => ?_⟩
  rcases form with key | token
  · exact exists_secret_of_fires keys rfl (fires_awsAccessKey_iff.mpr ⟨w, hw, key⟩)
  · exact exists_secret_of_fires tokens rfl (fires_githubToken_iff.mpr ⟨w, hw, token⟩)

/-- An identifier between quotes is a word of its line. -/
theorem secret_of_credential_quoted :
    let line : Text := "key = 'AKIA0123456789ABCDEF'"
    let key : Text := "AKIA0123456789ABCDEF"
    Text.IsRun CodePoint.isWord line key ∧ IsAccessKeyId key ∧
      ∃ m, matchLine line secretTable = [m] ∧ m.rule.isSecret = true := by
  intro line key
  have run : Text.IsRun CodePoint.isWord line key :=
    ⟨by decide, by decide, "key = '", "'", rfl, by decide, by decide⟩
  have form : IsAccessKeyId key := ⟨"AKIA", .head _, "0123456789ABCDEF", rfl, rfl, by decide⟩
  exact ⟨run, form, (secret_of_credential line).2.2 key run (.inl form)⟩

/-- A letter of any script in front makes a longer word of it. -/
example : awsAccessKey.fires "\u00E9AKIA0123456789ABCDEF" = false := by decide +kernel

end RepoScan.Rule
