import Mathlib.Data.List.Find
import RepoScan.Detection

/-!
# What the line scanner finds

The scanner goes through the lines with an accumulator.  Here its findings are given line by line,
and the matches in a line rule by rule.

* `scanLines_eq` : the findings in the lines, those of the first line first;
* `scanLines_at` : the findings in one line;
* `matchLineFrom_append` : the rules for a line may be asked in two groups;
* `matchLine_reports` : a rule is reported once where it fires and no secret is found before it, and
  not at all elsewhere.
-/

namespace RepoScan

/-! ### Lines -/

/-- The finding that a match gives. -/
def RuleMatch.toFinding (m : RuleMatch) (path : Text) (number : Nat) (code : Text) : Finding where
  kind := m.rule.kind
  severity := m.rule.severity
  confidence := m.confidence
  description := m.rule.description
  file := path
  line := number
  code := some code

/-- The lines around the line with an index. -/
def excerpt (lines : List Text) (i : Nat) : Text :=
  windowAround (lines.take i).reverse (lines.getD i []) (lines.drop (i + 1))

/-- The findings in the line with an index. -/
def lineFindings (path : Text) (rules : List Rule) (lines : List Text) (i : Nat) : List Finding :=
  (matchLine (lines.getD i []) rules).map fun m => m.toFinding path (i + 1) (excerpt lines i)

variable (path : Text) (rules : List Rule)

theorem lineFindings_mid (before after : List Text) (line : Text) :
    lineFindings path rules (before.reverse ++ line :: after) before.length =
      (matchLine line rules).map fun m =>
        m.toFinding path (before.length + 1) (windowAround before line after) := by
  have hlen : before.reverse.length = before.length := List.length_reverse
  have hget : (before.reverse ++ line :: after).getD before.length [] = line := by
    rw [List.getD_eq_getElem?_getD, List.getElem?_append_right (Nat.le_of_eq hlen), hlen,
      Nat.sub_self]
    rfl
  have htake : ((before.reverse ++ line :: after).take before.length).reverse = before := by
    rw [← hlen, List.take_left, List.reverse_reverse]
  have hdrop : (before.reverse ++ line :: after).drop (before.length + 1) = after := by
    rw [← hlen, List.drop_length_add_append]
    rfl
  rw [lineFindings, excerpt, hget, htake, hdrop]

/-- The scanner after `before`: the accumulator holds what was found there. -/
theorem scanLinesFrom_eq (before after : List Text) (done : List Finding) :
    scanLinesFrom path rules (before.length + 1) before after done =
      done.reverse ++ (List.range' before.length after.length).flatMap
        (lineFindings path rules (before.reverse ++ after)) := by
  -- induction on the lines ahead, which go over to those behind
  induction after generalizing before done with
  | nil =>
    rw [scanLinesFrom, List.length_nil, List.range'_zero, List.flatMap_nil, List.append_nil]
  | cons line after ih =>
    have next := ih (line :: before)
      (((matchLine line rules).map fun m =>
        m.toFinding path (before.length + 1) (windowAround before line after)).reverseAux done)
    rw [List.length_cons, List.reverse_cons, List.append_assoc, List.singleton_append] at next
    rw [List.length_cons, List.range'_succ, List.flatMap_cons, lineFindings_mid]
    refine Eq.trans next ?_
    rw [List.reverseAux_eq, List.reverse_append, List.reverse_reverse, List.append_assoc]

/-- **The findings in the lines of a file**, line by line. -/
theorem scanLines_eq (lines : List Text) :
    scanLines path rules lines =
      (List.range lines.length).flatMap (lineFindings path rules lines) := by
  rw [scanLines, List.range_eq_range']
  exact scanLinesFrom_eq path rules [] lines []

theorem line_of_mem_lineFindings {lines : List Text} {i : Nat} {f : Finding}
    (h : f ∈ lineFindings path rules lines i) : f.line = (i + 1 : Nat) := by
  obtain ⟨m, -, rfl⟩ := List.mem_map.mp h
  rfl

theorem filter_lineFindings (lines : List Text) (i j : Nat) :
    (lineFindings path rules lines j).filter (fun f => f.line == ((i + 1 : Nat) : Int)) =
      if j = i then lineFindings path rules lines j else [] := by
  split
  · rename_i h
    subst h
    refine List.filter_eq_self.mpr fun f hf => ?_
    rw [line_of_mem_lineFindings path rules hf]
    exact beq_self_eq_true _
  · rename_i h
    refine List.filter_eq_nil_iff.mpr fun f hf => ?_
    rw [line_of_mem_lineFindings path rules hf, beq_iff_eq]
    omega

theorem flatMap_range_single {α : Type} (g : Nat → List α) {i n : Nat} (h : i < n) :
    ((List.range n).flatMap fun j => if j = i then g j else []) = g i := by
  induction n with
  | zero => exact absurd h (Nat.not_lt_zero i)
  | succ n ih =>
    rw [List.range_succ, List.flatMap_append, List.flatMap_singleton]
    by_cases hi : i = n
    · -- the last index is the one, and none before it
      subst hi
      have front : ((List.range i).flatMap fun j => if j = i then g j else []) = [] := by
        refine List.flatMap_eq_nil_iff.mpr fun j hj => if_neg ?_
        exact Nat.ne_of_lt (List.mem_range.mp hj)
      rw [front, if_pos rfl, List.nil_append]
    · rw [ih (by omega), if_neg (Ne.symm hi), List.append_nil]

/-- **The findings in one line.** -/
theorem scanLines_at {lines : List Text} {i : Nat} (h : i < lines.length) :
    (scanLines path rules lines).filter (fun f => f.line == ((i + 1 : Nat) : Int)) =
      lineFindings path rules lines i := by
  rw [scanLines_eq, List.filter_flatMap]
  simp only [filter_lineFindings]
  exact flatMap_range_single (lineFindings path rules lines) h

theorem scanBody_eq {body path : Text} {r : Rule} (hbody : isScannable body = true)
    (hr : r ∈ Rule.forKinds (FileKind.ofPath path)) :
    scanBody body path =
      scanLines path (Rule.forKinds (FileKind.ofPath path)) (bodyLines body) := by
  have some : (Rule.forKinds (FileKind.ofPath path)).isEmpty = false :=
    List.isEmpty_eq_false_iff.mpr (List.ne_nil_of_mem hr)
  simp only [scanBody, some, hbody]
  rfl

/-! ### Rules -/

variable (line : Text)

/-- One of the rules finds a secret in the line. -/
def findsSecret (rules : List Rule) : Bool := rules.any fun r => r.isSecret && r.fires line

theorem findsSecret_cons (r : Rule) (rules : List Rule) :
    findsSecret line (r :: rules) = (r.isSecret && r.fires line || findsSecret line rules) := rfl

/-- The rule is reported, given whether a secret was found before. -/
def Rule.isReported (r : Rule) (line : Text) (found : Bool) : Bool :=
  r.fires line && !(r.isSecret && found)

/-- The match of a rule that fires. -/
def Rule.matchIn (r : Rule) (line : Text) : RuleMatch := ⟨r, r.confidence line⟩

theorem matchLineFrom_cons (found : Bool) (r : Rule) (rules : List Rule) :
    matchLineFrom line found (r :: rules) =
      (if r.isReported line found then [r.matchIn line] else []) ++
        matchLineFrom line (found || r.isSecret && r.fires line) rules := by
  rw [matchLineFrom, Rule.isReported]
  cases hf : r.fires line <;> cases hs : r.isSecret <;> cases found <;> rfl

/-- The rules may be asked in two groups, if the second knows whether the first found a secret. -/
theorem matchLineFrom_append (found : Bool) (front back : List Rule) :
    matchLineFrom line found (front ++ back) =
      matchLineFrom line found front ++
        matchLineFrom line (found || findsSecret line front) back := by
  induction front generalizing found with
  | nil =>
    rw [findsSecret, List.any_nil, Bool.or_false]
    rfl
  | cons r front ih =>
    rw [List.cons_append, matchLineFrom_cons, matchLineFrom_cons, ih, List.append_assoc,
      findsSecret_cons, Bool.or_assoc]

theorem rules_matchLineFrom_sublist (found : Bool) :
    ((matchLineFrom line found rules).map RuleMatch.rule).Sublist rules := by
  induction rules generalizing found with
  | nil => exact .slnil
  | cons r rules ih =>
    rw [matchLineFrom_cons, List.map_append]
    split
    · exact (ih _).cons_cons r
    · exact (ih _).cons r

/-- **What is reported of a rule in a line**: its match where it fires, unless it finds a secret and
a rule before it does so too. -/
theorem matchLine_reports {front back : List Rule} {r : Rule} (p : RuleMatch → Bool)
    (hp : ∀ q ∈ front ++ back, ∀ c, p ⟨q, c⟩ = false) (hr : p (r.matchIn line) = true) :
    (matchLine line (front ++ r :: back)).filter p =
      if r.isReported line (findsSecret line front) then [r.matchIn line] else [] := by
  have others {rules : List Rule} (found : Bool) (h : ∀ q ∈ rules, ∀ c, p ⟨q, c⟩ = false) :
      (matchLineFrom line found rules).filter p = [] := by
    refine List.filter_eq_nil_iff.mpr fun m hm => ?_
    have hq := (rules_matchLineFrom_sublist rules line found).subset (List.mem_map_of_mem hm)
    exact Bool.eq_false_iff.mp (h m.rule hq m.confidence)
  -- the rules before and after are told apart by `p`, and add nothing
  rw [matchLine, matchLineFrom_append, matchLineFrom_cons, List.filter_append, List.filter_append,
    others _ fun q hq => hp q (List.mem_append_left _ hq),
    others _ fun q hq => hp q (List.mem_append_right _ hq), Bool.false_or, List.nil_append,
    List.append_nil]
  split
  · rw [List.filter_cons_of_pos hr, List.filter_nil]
  · rfl

/-! ### Secrets -/

/-- The first of the rules to find a secret in the line, as a match. -/
def secretIn? (rules : List Rule) : Option RuleMatch :=
  (rules.find? fun r => r.isSecret && r.fires line).map fun r => r.matchIn line

/-- **At most one secret is reported in a line**, that of the first rule that finds one. -/
theorem secrets_matchLineFrom (found : Bool) :
    (matchLineFrom line found rules).filter (fun m => m.rule.isSecret) =
      if found then [] else (secretIn? line rules).toList := by
  induction rules generalizing found with
  | nil => cases found <;> rfl
  | cons r rules ih =>
    rw [matchLineFrom_cons, List.filter_append, ih, secretIn?, secretIn?, Rule.isReported]
    cases hs : r.isSecret <;> cases hf : r.fires line <;> cases found <;>
      simp [hs, hf, Rule.matchIn]

theorem secrets_matchLine :
    (matchLine line rules).filter (fun m => m.rule.isSecret) = (secretIn? line rules).toList :=
  secrets_matchLineFrom rules line false

theorem rule_mem_of_secretIn? {m : RuleMatch} (h : secretIn? line rules = some m) :
    m.rule ∈ rules := by
  obtain ⟨r, hr, rfl⟩ := Option.map_eq_some_iff.mp h
  exact List.mem_of_find?_eq_some hr

theorem secretIn?_filter {p : Rule → Bool} (h : ∀ r ∈ rules, r.isSecret = true → p r = true) :
    secretIn? line (rules.filter p) = secretIn? line rules := by
  rw [secretIn?, secretIn?, List.find?_filter]
  congr 1
  refine List.find?_congr fun r hr => ?_
  cases hs : r.isSecret with
  | true => simp [h r hr hs]
  | false => simp

end RepoScan
