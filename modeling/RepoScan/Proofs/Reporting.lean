import Mathlib.Data.List.Nodup
import RepoScan.Proofs.Rule
import RepoScan.Proofs.Triage

/-!
# From a line to a report

What detection finds in a line has to pass triage before it is reported.  In a file whose path does
not look like that of a test, a stand-in or an example, this depends on nothing but the line:

* `issues_at` : what is reported of a rule in a line;
* `detection_law` : a rule is reported in a line, once, exactly where it fires and either finds the
  first secret of the line or has all its checks hold.
-/

namespace RepoScan

/-- The path does not follow a naming convention for tests, stand-ins or examples. -/
def IsOrdinary (path : Text) : Prop :=
  let p := Text.replaceChar '\\' '/' path
  testPath.occursIn p = false ∧ standInPath.occursIn p = false ∧ exampleMark.occursIn p = false

instance (path : Text) : Decidable (IsOrdinary path) :=
  inferInstanceAs (Decidable (_ = false ∧ _ = false ∧ _ = false))

variable {path : Text} {r : Rule} {line : Text}

/-- In an ordinary file triage asks only how certain a match is. -/
theorem isFalsePositive_toFinding (hpath : IsOrdinary path) (hr : r ∈ Rule.table) (number : Nat)
    (code : Text) :
    ((r.matchIn line).toFinding path number code).isFalsePositive = !r.isTrusted line := by
  obtain ⟨htest, hstand, hexample⟩ := hpath
  have hdesc := Rule.exampleMark_description r hr
  simp only [Finding.isFalsePositive, RuleMatch.toFinding, Rule.matchIn, htest, hstand, hexample,
    hdesc, Bool.or_false, Rule.isTrusted, Bool.not_not]

theorem forKinds_eq {before after : List Rule} {kinds : List FileKind}
    (htable : Rule.table = before ++ r :: after) (ha : r.appliesTo kinds = true) :
    Rule.forKinds kinds =
      before.filter (·.appliesTo kinds) ++ r :: after.filter (·.appliesTo kinds) := by
  rw [Rule.forKinds, htable, List.filter_append, List.filter_cons, if_pos ha]

theorem description_ne {before after : List Rule} (htable : Rule.table = before ++ r :: after) :
    ∀ q ∈ before ++ after, q.description ≠ r.description := by
  have nodup := Rule.description_nodup
  rw [htable, List.map_append, List.map_cons, List.nodup_middle, List.nodup_cons,
    ← List.map_append] at nodup
  intro q hq hd
  exact nodup.1 (hd ▸ List.mem_map_of_mem hq)

theorem matchLine_forKinds {before after : List Rule} {kinds : List FileKind}
    (htable : Rule.table = before ++ r :: after) (ha : r.appliesTo kinds = true) :
    (matchLine line (Rule.forKinds kinds)).filter (fun m => m.rule.description == r.description) =
      if r.isReported line (findsSecret line before) then [r.matchIn line] else [] := by
  have mem {q : Rule} (hq : q ∈ before ++ r :: after) : q ∈ Rule.table := htable ▸ hq
  rw [forKinds_eq htable ha, matchLine_reports]
  · cases hs : r.isSecret with
    | false => simp only [Rule.isReported, hs, Bool.false_and]
    | true =>
      rw [Rule.findsSecret_filter (fun q hq => mem (List.mem_append_left _ hq))
        (mem (List.mem_append_right _ List.mem_cons_self)) hs ha]
  · intro q hq c
    refine beq_eq_false_iff_ne.mpr (description_ne htable q ?_)
    rcases List.mem_append.mp hq with hq | hq
    · exact List.mem_append_left _ (List.mem_filter.mp hq).1
    · exact List.mem_append_right _ (List.mem_filter.mp hq).1
  · exact beq_self_eq_true _

/-- What is reported of the rule with a description in the line with an index. -/
def hits (fs : List Finding) (i : Nat) (r : Rule) : List Finding :=
  fs.filter fun f => f.line == ((i + 1 : Nat) : Int) && f.description == r.description

theorem hits_issues_eq (fs : List Finding) (i : Nat) :
    hits (issues fs) i r =
      (((fs.filter fun f => f.line == ((i + 1 : Nat) : Int)).filter fun f =>
        f.description == r.description).filter fun f => !f.isFalsePositive).map Finding.enrich := by
  rw [hits, issues, List.filter_map, List.filter_filter, List.filter_filter, List.filter_filter]
  congr 1
  refine List.filter_congr fun f _ => ?_
  simp only [Function.comp_apply, Finding.line_enrich, Finding.description_enrich]
  rw [Bool.and_comm (f.line == _), Bool.and_comm, Bool.and_assoc]

/-- **What is reported of a rule in a line** of an ordinary file. -/
theorem hits_issues {body : Text} {i : Nat} {before after : List Rule} (hpath : IsOrdinary path)
    (hbody : isScannable body = true) (hline : (bodyLines body)[i]? = some line)
    (htable : Rule.table = before ++ r :: after)
    (hr : r ∈ Rule.forKinds (FileKind.ofPath path)) :
    hits (issues (scanBody body path)) i r =
      if r.isReported line (findsSecret line before) && r.isTrusted line then
        [((r.matchIn line).toFinding path (i + 1) (excerpt (bodyLines body) i)).enrich]
      else [] := by
  obtain ⟨hmem, ha⟩ := List.mem_filter.mp hr
  obtain ⟨hi, hget⟩ := List.getElem?_eq_some_iff.mp hline
  have hline' : (bodyLines body).getD i [] = line := by
    rw [List.getD_eq_getElem?_getD, hline]
    rfl
  -- of all findings only those in the line count, and of these only those of the rule
  rw [hits_issues_eq, scanBody_eq hbody hr, scanLines_at _ _ hi, lineFindings, hline',
    List.filter_map]
  show List.map _ (List.filter _ (List.map _ (List.filter
    (fun m : RuleMatch => m.rule.description == r.description) _))) = _
  rw [matchLine_forKinds htable ha]
  cases hrep : r.isReported line (findsSecret line before) with
  | false => rfl
  | true =>
    rw [if_pos rfl, List.map_singleton, List.filter_cons, isFalsePositive_toFinding hpath hmem,
      Bool.not_not]
    cases r.isTrusted line <;> rfl

theorem isReported_and_isTrusted_iff {before : List Rule} (hr : r ∈ Rule.table) :
    (r.isReported line (findsSecret line before) && r.isTrusted line) = true ↔
      r.fires line = true ∧
        (r.isSecret = true ∧ (∀ q ∈ before, q.isSecret = true → q.fires line = false) ∨
          r.isSecret = false ∧ ∀ c ∈ r.checks, c.holds line = true) := by
  rw [← Rule.findsSecret_eq_false_iff, Bool.and_eq_true_iff, Rule.isTrusted_iff hr, Rule.isReported,
    Bool.and_eq_true_iff, and_assoc]
  refine and_congr_right fun _ => ?_
  cases r.isSecret with
  | true => cases findsSecret line before <;> simp
  | false => simp

/-- **A rule is reported in a line exactly where it fires** and either finds the first secret of the
line or has all its checks hold.  It is reported once. -/
theorem detection_law {body : Text} {i : Nat} {before after : List Rule} (hpath : IsOrdinary path)
    (hbody : isScannable body = true) (hline : (bodyLines body)[i]? = some line)
    (htable : Rule.table = before ++ r :: after)
    (hr : r ∈ Rule.forKinds (FileKind.ofPath path)) (today : Date) :
    ∃ out, triage [] today (scanBody body path) = .ok out ∧
      (hits out i r ≠ [] ↔ r.fires line = true ∧
        (r.isSecret = true ∧ (∀ q ∈ before, q.isSecret = true → q.fires line = false) ∨
          r.isSecret = false ∧ ∀ c ∈ r.checks, c.holds line = true)) ∧
      (hits out i r ≠ [] → ∃ f, hits out i r = [f] ∧ f.file = path ∧ f.kind = r.kind ∧
        f.severity = r.severity ∧ f.description = r.description) := by
  refine ⟨_, triage_nil today _, ?_, ?_⟩
  · rw [hits_issues hpath hbody hline htable hr,
      ← isReported_and_isTrusted_iff (List.mem_filter.mp hr).1]
    split
    · rename_i h
      exact iff_of_true (List.cons_ne_nil _ _) h
    · rename_i h
      exact iff_of_false (fun h' => h' rfl) h
  · rw [hits_issues hpath hbody hline htable hr]
    split
    · exact fun _ => ⟨_, rfl, rfl, rfl, rfl, rfl⟩
    · exact fun h => absurd rfl h

/-- An access key in the second line of a source file is reported. -/
theorem detection_law_accessKey :
    ∃ out, triage [] ⟨2024, 1, 2⟩ (scanBody "# keys\nkey = 'AKIA0123456789ABCDEF'\n" "src/app.py") =
        .ok out ∧
      hits out 1 Rule.awsAccessKey ≠ [] := by
  have ordinary : IsOrdinary "src/app.py" := by decide +kernel
  have applies : Rule.awsAccessKey ∈ Rule.forKinds (FileKind.ofPath "src/app.py") :=
    List.mem_filter.mpr ⟨List.mem_cons_of_mem _ List.mem_cons_self, by decide +kernel⟩
  have first : ∀ q ∈ [Rule.privateKey], q.isSecret = true →
      q.fires "key = 'AKIA0123456789ABCDEF'" = false := by decide +kernel
  have body : isScannable "# keys\nkey = 'AKIA0123456789ABCDEF'\n" = true := by decide +kernel
  have second : (bodyLines "# keys\nkey = 'AKIA0123456789ABCDEF'\n")[1]? =
      some ("key = 'AKIA0123456789ABCDEF'" : Text) := by decide +kernel
  have table : Rule.table = [Rule.privateKey] ++ Rule.awsAccessKey :: Rule.table.drop 2 := rfl
  obtain ⟨out, hout, law, -⟩ := detection_law ordinary body second table applies ⟨2024, 1, 2⟩
  exact ⟨out, hout, law.mpr ⟨by decide +kernel, Or.inl ⟨rfl, first⟩⟩⟩

end RepoScan
