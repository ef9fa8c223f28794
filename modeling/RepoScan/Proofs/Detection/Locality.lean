import Mathlib.Data.List.Forall2
import RepoScan.Proofs.Detection
import RepoScan.Proofs.Text.Lines

/-!
# Scanning is local to lines

Where two bodies are joined by a line feed, the lines of the whole are those of the one and then
those of the other.  A line is scanned by itself, so the findings are those of the two bodies as
well, the second ones moved down.  Only the lines that a finding shows may reach over the seam, and
they do so only within `contextRadius`.

* `bodyLines_join` : the lines of two bodies that are joined;
* `excerpt_append_of_le`, `excerpt_append_of_ge` : what a finding shows away from the seam;
* `forall₂_scanLines_append` : the findings in lines that are put together;
* `scanBody_join` : **the findings in two bodies that are joined** are those of each of them.
-/

namespace RepoScan

/-! ### Lines that are put together -/

/-- Lines are cut and cleaned one by one. -/
theorem bodyLines_join (a b : Text) :
    bodyLines (a ++ ('\n' : CodePoint) :: b) = bodyLines a ++ bodyLines b := by
  rw [bodyLines, Text.splitOn_append_cons, List.map_append]
  rfl

theorem length_bodyLines (body : Text) :
    (bodyLines body).length = (Text.splitOn '\n' body).length :=
  List.length_map _

theorem windowAround_append_after {after : List Text} (h : contextRadius ≤ after.length)
    (before more : List Text) (line : Text) :
    windowAround before line (after ++ more) = windowAround before line after := by
  have enough : contextRadius.toNat ≤ after.length := by omega
  simp only [windowAround, List.take_append_of_le_length enough]

theorem windowAround_append_before {before : List Text} (h : contextRadius ≤ before.length)
    (more after : List Text) (line : Text) :
    windowAround (before ++ more) line after = windowAround before line after := by
  have enough : contextRadius.toNat ≤ before.length := by omega
  simp only [windowAround, List.take_append_of_le_length enough]

variable {front back : List Text} {i : Nat}

theorem getD_append_left (h : i < front.length) : (front ++ back).getD i [] = front.getD i [] := by
  rw [List.getD_eq_getElem?_getD, List.getElem?_append_left h, ← List.getD_eq_getElem?_getD]

theorem getD_append_right (front back : List Text) (i : Nat) :
    (front ++ back).getD (front.length + i) [] = back.getD i [] := by
  rw [List.getD_eq_getElem?_getD, List.getElem?_append_right (Nat.le_add_right _ _),
    Nat.add_sub_cancel_left, ← List.getD_eq_getElem?_getD]

/-- Lines that follow are not shown, if they are far enough. -/
theorem excerpt_append_of_le (h : (i + 1 : Nat) + contextRadius ≤ front.length) :
    excerpt (front ++ back) i = excerpt front i := by
  have radius : (0 : Int) ≤ contextRadius := by decide
  have ahead : contextRadius ≤ (front.drop (i + 1)).length := by
    rw [List.length_drop]
    omega
  rw [excerpt, getD_append_left (by omega), List.take_append_of_le_length (by omega),
    List.drop_append_of_le_length (by omega), windowAround_append_after ahead]
  rfl

/-- Lines before are not shown, if they are far enough. -/
theorem excerpt_append_of_ge (front : List Text) (h : contextRadius ≤ i) (hi : i < back.length) :
    excerpt (front ++ back) (front.length + i) = excerpt back i := by
  have behind : contextRadius ≤ (back.take i).reverse.length := by
    rw [List.length_reverse, List.length_take]
    omega
  rw [excerpt, getD_append_right, List.take_length_add_append, List.reverse_append,
    windowAround_append_before behind, Nat.add_assoc, List.drop_length_add_append]
  rfl

/-! ### Findings across a seam -/

/-- The finding moved down by a number of lines. -/
def Finding.down (n : Nat) (f : Finding) : Finding := { f with line := f.line + n }

/-- The two findings are the same but for the lines that they show, and these are the same too where
the findings are more than `contextRadius` lines away from the end of line `seam`. -/
structure AgreeAcross (seam : Nat) (f g : Finding) : Prop where
  beside : { f with code := none } = { g with code := none }
  shown : f.line + contextRadius ≤ seam ∨ seam + contextRadius < f.line → f.code = g.code

variable (path : Text) (rules : List Rule)

theorem forall₂_lineFindings_left (h : i < front.length) :
    List.Forall₂ (AgreeAcross front.length) (lineFindings path rules (front ++ back) i)
      (lineFindings path rules front i) := by
  rw [lineFindings, lineFindings, getD_append_left h, List.forall₂_map_left_iff,
    List.forall₂_map_right_iff, List.forall₂_same]
  refine fun m _ => ⟨rfl, fun far => ?_⟩
  have line : (m.toFinding path (i + 1) (excerpt (front ++ back) i)).line = (i + 1 : Nat) := rfl
  rw [line] at far
  refine congrArg some (excerpt_append_of_le ?_)
  omega

theorem forall₂_lineFindings_right (front : List Text) (h : i < back.length) :
    List.Forall₂ (AgreeAcross front.length)
      (lineFindings path rules (front ++ back) (front.length + i))
      ((lineFindings path rules back i).map (Finding.down front.length)) := by
  rw [lineFindings, lineFindings, getD_append_right, List.map_map, List.forall₂_map_left_iff,
    List.forall₂_map_right_iff, List.forall₂_same]
  have number : ((front.length + i + 1 : Nat) : Int) = (i + 1 : Nat) + (front.length : Nat) := by
    omega
  refine fun m _ => ⟨?_, fun far => ?_⟩
  · simp only [RuleMatch.toFinding, Function.comp_apply, Finding.down, number]
  · have line : (m.toFinding path (front.length + i + 1)
        (excerpt (front ++ back) (front.length + i))).line = (front.length + i + 1 : Nat) := rfl
    rw [line] at far
    exact congrArg some (excerpt_append_of_ge front (by omega) h)

theorem forall₂_flatMap {α β : Type} {R : α → β → Prop} {g : Nat → List α} {g' : Nat → List β}
    {ns : List Nat} (h : ∀ n ∈ ns, List.Forall₂ R (g n) (g' n)) :
    List.Forall₂ R (ns.flatMap g) (ns.flatMap g') := by
  induction ns with
  | nil => exact .nil
  | cons n ns ih =>
    obtain ⟨hn, hns⟩ := List.forall_mem_cons.mp h
    exact List.rel_append hn (ih hns)

/-- **The findings in lines that are put together** are those in the first lines and, moved down,
those in the others. -/
theorem forall₂_scanLines_append (front back : List Text) :
    List.Forall₂ (AgreeAcross front.length) (scanLines path rules (front ++ back))
      (scanLines path rules front ++
        (scanLines path rules back).map (Finding.down front.length)) := by
  rw [scanLines_eq, scanLines_eq, scanLines_eq, List.length_append, List.range_add,
    List.flatMap_append, List.flatMap_map, List.map_flatMap]
  refine List.rel_append (forall₂_flatMap fun i hi => ?_) (forall₂_flatMap fun i hi => ?_)
  · exact forall₂_lineFindings_left path rules (List.mem_range.mp hi)
  · exact forall₂_lineFindings_right path rules front (List.mem_range.mp hi)

/-! ### Bodies that are joined -/

theorem isScannable_iff {body : Text} :
    isScannable body = true ↔ body.length ≤ maxBodyLength ∧ isBinaryBody body = false := by
  rw [isScannable, Bool.and_eq_true, decide_eq_true_eq, Bool.not_eq_true']

theorem isScannable_join {a b : Text} (ha : isBinaryBody a = false) (hb : isBinaryBody b = false)
    (hlen : a.length + 1 + b.length ≤ maxBodyLength) :
    isScannable (a ++ ('\n' : CodePoint) :: b) = true ∧ isScannable a = true ∧
      isScannable b = true := by
  refine ⟨isScannable_iff.mpr ⟨?_, ?_⟩, isScannable_iff.mpr ⟨?_, ha⟩, isScannable_iff.mpr ⟨?_, hb⟩⟩
  · rw [List.length_append, List.length_cons]
    omega
  · have feed : (('\n' : CodePoint).val == 0) = false := by decide
    unfold isBinaryBody at ha hb ⊢
    rw [List.any_append, List.any_cons, ha, feed, hb]
    rfl
  · omega
  · omega

theorem scanLines_no_rules (path : Text) (lines : List Text) : scanLines path [] lines = [] := by
  rw [scanLines_eq]
  exact List.flatMap_eq_nil_iff.mpr fun i _ => rfl

theorem scanBody_of_isScannable {body : Text} (h : isScannable body = true) (path : Text) :
    scanBody body path =
      scanLines path (Rule.forKinds (FileKind.ofPath path)) (bodyLines body) := by
  cases hr : Rule.forKinds (FileKind.ofPath path) with
  | nil =>
    rw [scanLines_no_rules, scanBody, hr]
    rfl
  | cons r rules =>
    rw [scanBody, hr, h]
    rfl

/-- **Scanning is local to lines.**  The findings in two bodies that are joined by a line feed are
those in the first body, followed by those in the second one moved down by the lines of the first.
Findings more than `contextRadius` lines away from the seam show the same lines as well. -/
theorem scanBody_join {a b : Text} (ha : isBinaryBody a = false) (hb : isBinaryBody b = false)
    (hlen : a.length + 1 + b.length ≤ maxBodyLength) (path : Text) :
    List.Forall₂ (AgreeAcross (Text.splitOn '\n' a).length)
      (scanBody (a ++ ('\n' : CodePoint) :: b) path)
      (scanBody a path ++ (scanBody b path).map (Finding.down (Text.splitOn '\n' a).length)) := by
  obtain ⟨hjoin, hfirst, hsecond⟩ := isScannable_join ha hb hlen
  rw [scanBody_of_isScannable hjoin, scanBody_of_isScannable hfirst,
    scanBody_of_isScannable hsecond, bodyLines_join, ← length_bodyLines]
  exact forall₂_scanLines_append path _ _ _

/-- A key in the first body keeps its line, and the line number of one in the second body grows. -/
theorem scanBody_join_accessKeys :
    let a : Text := "AKIA0123456789ABCDEF\r\n"
    let b : Text := "\nAKIAFEDCBA9876543210"
    (isBinaryBody a = false ∧ isBinaryBody b = false ∧
        a.length + 1 + b.length ≤ maxBodyLength) ∧
      List.Forall₂ (AgreeAcross 2) (scanBody (a ++ ('\n' : CodePoint) :: b) "keys.yml")
        (scanBody a "keys.yml" ++ (scanBody b "keys.yml").map (Finding.down 2)) ∧
      (scanBody a "keys.yml").map Finding.line = [1] ∧
      (scanBody b "keys.yml").map Finding.line = [2] := by
  intro a b
  have ha : isBinaryBody a = false := by decide +kernel
  have hb : isBinaryBody b = false := by decide +kernel
  have hlen : a.length + 1 + b.length ≤ maxBodyLength := by decide +kernel
  refine ⟨⟨ha, hb, hlen⟩, scanBody_join ha hb hlen "keys.yml", ?_, ?_⟩
  · decide +kernel
  · decide +kernel

end RepoScan
