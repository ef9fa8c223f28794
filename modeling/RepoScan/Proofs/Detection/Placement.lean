import Mathlib.Data.List.Nodup
import RepoScan.Proofs.Detection.Locality
import RepoScan.Proofs.Detection.Selection
import RepoScan.Proofs.Path

/-!
# Where findings stand and what they show

A finding tells the number of its line and the rule that fired there, and shows the lines around it.
All three can be checked against the lines of the body.

* `excerpt_eq_contextWindow` : what a finding shows is the window around its line;
* `splitOn_excerpt` : the lines that a finding shows can be told from its excerpt;
* `Finding.IsPlacedIn` : what a finding has to do with the lines of a body;
* `pairwise_scanLines`, `filter_line_scanLines` : the findings in the order of the lines, and those
  of one line;
* `scanBody_placed` : **every finding stands where it says**, and the findings are in order.
-/

namespace RepoScan

/-! ### Windows -/

theorem clampIndex_of_nonneg {i : Int} (h : 0 ≤ i) (n : Nat) :
    Text.clampIndex n i = min i.toNat n := if_neg (by omega)

theorem slice_of_nonneg {α : Type} {start stop : Int} (hstart : 0 ≤ start) (hstop : 0 ≤ stop)
    (xs : List α) :
    Text.slice start stop xs = (xs.take stop.toNat).drop start.toNat := by
  have whole : xs.take (min stop.toNat xs.length) = xs.take stop.toNat := by
    rw [List.take_eq_take_iff]
    omega
  rw [Text.slice, clampIndex_of_nonneg hstart, clampIndex_of_nonneg hstop, ← List.drop_take, whole]
  by_cases h : start.toNat ≤ xs.length
  · rw [Nat.min_eq_left h]
  · -- nothing is left behind the end
    rw [List.drop_eq_nil_of_le, List.drop_eq_nil_of_le]
    · rw [List.length_take]
      omega
    · rw [List.length_take]
      omega

variable {lines : List Text} {i : Nat}

theorem window_eq (radius : Nat) (h : i < lines.length) :
    ((lines.take i).reverse.take radius).reverse ++
        lines.getD i [] :: (lines.drop (i + 1)).take radius =
      (lines.take (i + radius + 1)).drop (i - radius) := by
  have line : lines.getD i [] = lines[i] := by
    rw [List.getD_eq_getElem?_getD, List.getElem?_eq_getElem h, Option.getD_some]
  have after : lines[i] :: (lines.drop (i + 1)).take radius =
      (lines.drop i).take (radius + 1) := by
    rw [List.drop_eq_getElem_cons h, List.take_succ_cons]
  have behind : (lines.take i).length = i := by
    rw [List.length_take]
    omega
  rw [line, after, List.take_reverse, List.reverse_reverse, behind, Nat.add_assoc,
    List.take_add (i := i), List.drop_append_of_le_length (by omega)]

/-- What a finding shows is the window around its line. -/
theorem excerpt_eq_contextWindow (h : i < lines.length) :
    excerpt lines i = contextWindow lines i contextRadius := by
  have radius : contextRadius = (3 : Nat) := rfl
  have start : (max ((i : Int) - (3 : Nat)) 0).toNat = i - 3 := by omega
  have stop : lines.take (min ((i : Int) + (3 : Nat) + 1) lines.length).toNat =
      lines.take (i + 3 + 1) := by
    rw [List.take_eq_take_iff]
    omega
  rw [excerpt, windowAround, contextWindow, radius, slice_of_nonneg (by omega) (by omega), start,
    stop, Int.toNat_natCast, window_eq 3 h]

/-- Texts that hold no line feed are found again in a window. -/
theorem splitOn_windowAround {before after : List Text} {line : Text}
    (hbefore : ∀ l ∈ before, ('\n' : CodePoint) ∉ l) (hline : ('\n' : CodePoint) ∉ line)
    (hafter : ∀ l ∈ after, ('\n' : CodePoint) ∉ l) :
    Text.splitOn '\n' (windowAround before line after) =
      (before.take contextRadius.toNat).reverse ++ line :: after.take contextRadius.toNat := by
  refine Text.splitOn_join (List.append_ne_nil_of_right_ne_nil _ (List.cons_ne_nil _ _)) ?_
  intro l hl
  rcases List.mem_append.mp hl with hl | hl
  · exact hbefore l (List.mem_of_mem_take (List.mem_reverse.mp hl))
  · rcases List.mem_cons.mp hl with rfl | hl
    · exact hline
    · exact hafter l (List.mem_of_mem_take hl)

theorem notMem_of_mem_bodyLines {body l : Text} (h : l ∈ bodyLines body) :
    ('\n' : CodePoint) ∉ l := by
  obtain ⟨piece, hpiece, rfl⟩ := List.mem_map.mp h
  exact fun hl => Text.notMem_of_mem_splitOn hpiece ((Text.withoutReturns_prefix piece).subset hl)

/-- The lines that a finding shows. -/
theorem splitOn_excerpt (hfeed : ∀ l ∈ lines, ('\n' : CodePoint) ∉ l) (h : i < lines.length) :
    Text.splitOn '\n' (excerpt lines i) = (lines.take (i + 4)).drop (i - 3) := by
  have line : ('\n' : CodePoint) ∉ lines.getD i [] := by
    rw [List.getD_eq_getElem?_getD, List.getElem?_eq_getElem h, Option.getD_some]
    exact hfeed _ (List.getElem_mem h)
  have before : ∀ l ∈ (lines.take i).reverse, ('\n' : CodePoint) ∉ l := fun l hl =>
    hfeed l (List.mem_of_mem_take (List.mem_reverse.mp hl))
  have after : ∀ l ∈ lines.drop (i + 1), ('\n' : CodePoint) ∉ l := fun l hl =>
    hfeed l (List.mem_of_mem_drop hl)
  rw [excerpt, splitOn_windowAround before line after]
  exact window_eq 3 h

/-! ### Findings in order -/

variable (path : Text) (rules : List Rule)

theorem fires_of_mem_matchLine {line : Text} {m : RuleMatch} (h : m ∈ matchLine line rules) :
    m.rule ∈ rules ∧ m.rule.fires line = true := by
  refine ⟨(rules_matchLineFrom_sublist rules line false).subset (List.mem_map_of_mem h), ?_⟩
  rw [matchLine, matchLineFrom_eq] at h
  obtain ⟨p, hp, rfl⟩ := List.mem_map.mp h
  exact (Bool.and_eq_true_iff.mp (List.mem_filter.mp hp).2).1

theorem mem_scanLines_iff {f : Finding} :
    f ∈ scanLines path rules lines ↔
      ∃ i < lines.length, ∃ m ∈ matchLine (lines.getD i []) rules,
        f = m.toFinding path (i + 1) (excerpt lines i) := by
  rw [scanLines_eq, List.mem_flatMap]
  refine exists_congr fun i => and_congr List.mem_range (List.mem_map.trans ?_)
  exact exists_congr fun m => and_congr_right fun _ => eq_comm

/-- The findings follow the lines. -/
theorem pairwise_scanLines (lines : List Text) :
    (scanLines path rules lines).Pairwise fun f g => f.line ≤ g.line := by
  rw [scanLines_eq, List.pairwise_flatMap]
  constructor
  · -- in one line all numbers are the same
    intro i _
    refine List.pairwise_of_forall_mem_list fun f hf g hg => ?_
    rw [line_of_mem_lineFindings path rules hf, line_of_mem_lineFindings path rules hg]
  · refine List.pairwise_lt_range.imp fun {i j} hij f hf g hg => ?_
    rw [line_of_mem_lineFindings path rules hf, line_of_mem_lineFindings path rules hg]
    omega

/-- The findings with a line number are those in one line, or there are none. -/
theorem filter_line_scanLines (lines : List Text) (n : Int) :
    (∃ i, (scanLines path rules lines).filter (fun f => f.line == n) =
        lineFindings path rules lines i) ∨
      (scanLines path rules lines).filter (fun f => f.line == n) = [] := by
  by_cases h : 1 ≤ n ∧ n ≤ lines.length
  · obtain ⟨i, rfl⟩ : ∃ i : Nat, n = (i + 1 : Nat) := ⟨(n - 1).toNat, by omega⟩
    exact .inl ⟨i, scanLines_at path rules (by omega)⟩
  · refine .inr (List.filter_eq_nil_iff.mpr fun f hf => ?_)
    obtain ⟨i, hi, m, -, rfl⟩ := (mem_scanLines_iff path rules).mp hf
    have line : (m.toFinding path (i + 1) (excerpt lines i)).line = (i + 1 : Nat) := rfl
    rw [line, beq_iff_eq]
    omega

theorem description_lineFindings_sublist (lines : List Text) (i : Nat) :
    ((lineFindings path rules lines i).map Finding.description).Sublist
      (rules.map Rule.description) := by
  have names : (lineFindings path rules lines i).map Finding.description =
      ((matchLine (lines.getD i []) rules).map RuleMatch.rule).map Rule.description := by
    rw [lineFindings, List.map_map, List.map_map]
    rfl
  rw [names]
  exact (rules_matchLineFrom_sublist rules _ false).map Rule.description

/-- Of the findings in a line at most one is a secret. -/
theorem length_secrets_lineFindings_le (hrules : ∀ r ∈ rules, r ∈ Rule.table) (lines : List Text)
    (i : Nat) :
    ((lineFindings path rules lines i).filter fun f => f.kind == .secret).length ≤ 1 := by
  -- the kind of a finding is secret where its rule is one for secrets
  have kinds : (matchLine (lines.getD i []) rules).filter (fun m => m.rule.kind == .secret) =
      (matchLine (lines.getD i []) rules).filter fun m => m.rule.isSecret :=
    List.filter_congr fun m hm =>
      Rule.kind_eq_secret m.rule (hrules _ (fires_of_mem_matchLine rules hm).1)
  have same : ((lineFindings path rules lines i).filter fun f => f.kind == .secret).length =
      ((matchLine (lines.getD i []) rules).filter fun m => m.rule.kind == .secret).length := by
    rw [lineFindings, List.filter_map, List.length_map]
    rfl
  rw [same, kinds, secrets_matchLine]
  cases secretIn? (lines.getD i []) rules with
  | none => exact Nat.zero_le 1
  | some m => exact Nat.le_refl 1

/-! ### Findings in a file -/

variable {path rules}

/-- What a finding says holds of the file with a path and lines.  Lines are counted from one. -/
structure Finding.IsPlacedIn (f : Finding) (path : Text) (lines : List Text) : Prop where
  file : f.file = path
  first : 1 ≤ f.line
  last : f.line ≤ lines.length
  /-- The description names one of the rules, -/
  named : ∃! r, r ∈ Rule.table ∧ f.description = r.description
  /-- which fires in the line with the number. -/
  fires : ∀ r ∈ Rule.table, f.description = r.description →
    ∃ line, lines[(f.line - 1).toNat]? = some line ∧ r.fires line = true
  /-- The lines shown are those around this line, as far as there are such. -/
  shown : ∃ code, f.code = some code ∧ Text.splitOn '\n' code =
    Text.slice (max (f.line - 4) 0) (min (f.line + 3) lines.length) lines
  /-- The line itself is the fourth of them, or that of its number if it is one of the first. -/
  centre : ∀ code, f.code = some code →
    (Text.splitOn '\n' code)[(min (f.line - 1) 3).toNat]? = lines[(f.line - 1).toNat]?

theorem isPlacedIn_of_mem_scanLines (hrules : ∀ r ∈ rules, r ∈ Rule.table)
    (hfeed : ∀ l ∈ lines, ('\n' : CodePoint) ∉ l) {f : Finding}
    (hf : f ∈ scanLines path rules lines) : f.IsPlacedIn path lines := by
  obtain ⟨i, hi, m, hm, rfl⟩ := (mem_scanLines_iff path rules).mp hf
  obtain ⟨hr, hfires⟩ := fires_of_mem_matchLine rules hm
  have number : (m.toFinding path (i + 1) (excerpt lines i)).line = (i + 1 : Nat) := rfl
  have unique : ∀ r ∈ Rule.table, m.rule.description = r.description → r = m.rule :=
    fun r hr' h => List.inj_on_of_nodup_map Rule.description_nodup hr' (hrules _ hr) h.symm
  have shown := splitOn_excerpt hfeed hi
  have place : (((i + 1 : Nat) : Int) - 1).toNat = i := by omega
  refine ⟨rfl, by omega, by omega,
    ⟨m.rule, ⟨hrules _ hr, rfl⟩, fun r h => unique r h.1 h.2⟩, ?_, ?_, ?_⟩
  · intro r hr' h
    obtain rfl := unique r hr' h
    refine ⟨lines[i], ?_, ?_⟩
    · rw [number, place, List.getElem?_eq_getElem hi]
    · rwa [List.getD_eq_getElem?_getD, List.getElem?_eq_getElem hi, Option.getD_some] at hfires
  · refine ⟨_, rfl, ?_⟩
    have start : (max (((i + 1 : Nat) : Int) - 4) 0).toNat = i - 3 := by omega
    have stop : lines.take (min (((i + 1 : Nat) : Int) + 3) lines.length).toNat =
        lines.take (i + 4) := by
      rw [List.take_eq_take_iff]
      omega
    rw [number, slice_of_nonneg (by omega) (by omega), start, stop, shown]
  · intro code hcode
    obtain rfl := Option.some.inj hcode
    have centre : (min (((i + 1 : Nat) : Int) - 1) 3).toNat = min i 3 := by omega
    rw [number, shown, centre, place, List.getElem?_drop, List.getElem?_take_of_lt (by omega)]
    congr 1
    omega

theorem scanBody_eq_nil_or (body path : Text) :
    scanBody body path = [] ∨
      scanBody body path =
        scanLines path (Rule.forKinds (FileKind.ofPath path)) (bodyLines body) := by
  cases h : isScannable body with
  | true => exact .inr (scanBody_of_isScannable h path)
  | false =>
    rw [scanBody, h, Bool.not_false, Bool.or_true, if_pos rfl]
    exact .inl rfl

/-- **Every finding stands where it says.**  The rule that it names fires in the line with its
number, and what it shows are this line and up to three lines on either side.  The findings follow
the lines, and those of one line the table of rules, of which none is repeated; at most one of them
is a secret. -/
theorem scanBody_placed (body path : Text) :
    let lines := (Text.splitOn '\n' body).map (Text.trimRight (· == '\r'))
    let found := scanBody body path
    (∀ f ∈ found, f.IsPlacedIn path lines) ∧
    found.Pairwise (fun f g => f.line ≤ g.line) ∧
    ∀ n : Int,
      let here := found.filter fun f => f.line == n
      (here.map Finding.description).Sublist (Rule.table.map Rule.description) ∧
      (here.map Finding.description).Nodup ∧
      (here.filter fun f => f.kind == .secret).length ≤ 1 := by
  intro lines found
  show (∀ f ∈ scanBody body path, f.IsPlacedIn path (bodyLines body)) ∧
    (scanBody body path).Pairwise (fun f g => f.line ≤ g.line) ∧ _
  have hrules : ∀ r ∈ Rule.forKinds (FileKind.ofPath path), r ∈ Rule.table := fun r hr =>
    (List.mem_filter.mp hr).1
  have ordered : (Rule.forKinds (FileKind.ofPath path)).Sublist Rule.table :=
    List.filter_sublist
  rcases scanBody_eq_nil_or body path with h | h
  · simp only [found, h]
    exact ⟨nofun, .nil, fun n => ⟨List.nil_sublist _, List.nodup_nil, Nat.zero_le 1⟩⟩
  · refine ⟨fun f hf => ?_, ?_, fun n => ?_⟩
    · rw [h] at hf
      exact isPlacedIn_of_mem_scanLines hrules (fun l => notMem_of_mem_bodyLines) hf
    · rw [h]
      exact pairwise_scanLines path _ _
    · have here := filter_line_scanLines path (Rule.forKinds (FileKind.ofPath path))
        (bodyLines body) n
      rw [← h] at here
      rcases here with ⟨i, hi⟩ | hi
      · have names := (description_lineFindings_sublist path
          (Rule.forKinds (FileKind.ofPath path)) (bodyLines body) i).trans (ordered.map _)
        simp only [found, hi]
        exact ⟨names, Rule.description_nodup.sublist names,
          length_secrets_lineFindings_le path _ hrules _ i⟩
      · simp only [found, hi]
        exact ⟨List.nil_sublist _, List.nodup_nil, Nat.zero_le 1⟩

end RepoScan
