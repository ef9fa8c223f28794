import Mathlib
import RepoScan.Json.Reader
import RepoScan.Proofs.Result
import RepoScan.ToolReport.Secrets

/-!
# What reports of the secret scanner come to

Each item of a report is read by itself: it gives a finding, is passed over, or fails.  An item
fails only where it names a file and gives an infinity for the line; then the whole report fails.

* `lineNumber_eq_error_iff` : only infinities are no lines;
* `one_le_of_lineNumber` : lines are counted from one on;
* `SecretReport.findingsOf_eq_ok_append` : reports are read piece by piece;
* `SecretReport.exists_findingsOf_iff` : a report is read, if none of its items fails;
* `SecretReport.read_append_iff` : **what reports come to together** is what each of them comes to,
  exactly where no item fails.
-/

namespace RepoScan

/-! ### Lines -/

theorem Value.readInt_ne_infinity {given t : Text} :
    Value.readInt given t ≠ .error .infinityToInteger := by
  unfold readInt
  split <;> nofun

theorem Value.toInt_eq_infinity_iff {v : Value} :
    v.toInt = .error .infinityToInteger ↔ ∃ negative, v = .real (.infinite negative) := by
  constructor
  · intro h
    cases v with
    | real x =>
      cases x with
      | infinite negative => exact ⟨negative, rfl⟩
      | nan => cases h
      | finite => cases h
    | text t => exact absurd h readInt_ne_infinity
    | bytes b => exact absurd h readInt_ne_infinity
    | _ => cases h
  · rintro ⟨negative, rfl⟩
    rfl

/-- Only infinities are no lines. -/
theorem lineNumber_eq_error_iff {v : Value} {e : Failure} :
    lineNumber v = .error e ↔
      e = .infinityToInteger ∧ ∃ negative, v = .real (.infinite negative) := by
  rw [← Value.toInt_eq_infinity_iff, lineNumber]
  split
  next n h => simp [h]
  next h => simp [h, eq_comm]
  next e' hne h =>
    refine iff_of_false nofun fun he => ?_
    rw [h] at he
    exact hne (Except.error.inj he.2)

/-- Lines are counted from one on. -/
theorem one_le_of_lineNumber {v : Value} {n : Int} (h : lineNumber v = .ok n) : 1 ≤ n := by
  unfold lineNumber at h
  split at h
  · cases h
    split <;> omega
  · cases h
  · cases h
    exact Int.le_refl 1

namespace SecretReport

variable {root : Option Path} {v : Value} {hit : List (Value × Value)}

/-! ### Items -/

/-- The file that a hit names. -/
def fileOf (hit : List (Value × Value)) : Value :=
  (Value.get "file" hit).orElse (Value.get "File" hit)

/-- What a hit gives for the line. -/
def lineOf (hit : List (Value × Value)) : Value :=
  (Value.lookup (.text "lineNumber") hit).getD (Value.get "StartLine" hit)

/-- The item names a file and gives an infinity for the line. -/
def GivesInfinity (v : Value) : Prop :=
  ∃ hit negative, v = .map hit ∧ (fileOf hit).isTruthy = true ∧
    lineOf hit = .real (.infinite negative)

/-- The finding of a hit at a line. -/
def findingAt (root : Option Path) (hit : List (Value × Value)) (line : Int) : Finding where
  kind := .secret
  severity := .critical
  confidence := .high
  description := descriptionOf hit ++ " [secret-scan]"
  file := relativePath root (fileOf hit).toText
  line := line

theorem findingOf?_eq : findingOf? root hit =
    if (fileOf hit).isTruthy then
      (lineNumber (lineOf hit)).map fun n => some (findingAt root hit n)
    else .ok none := by
  change (if (!(fileOf hit).isTruthy) = true then pure none
    else lineNumber (lineOf hit) >>= fun n => pure (some (findingAt root hit n))) = _
  cases (fileOf hit).isTruthy with
  | false => rfl
  | true =>
    cases lineNumber (lineOf hit) <;> rfl

theorem findingOfItem?_eq_error_iff {e : Failure} :
    findingOfItem? root v = .error e ↔ e = .infinityToInteger ∧ GivesInfinity v := by
  cases v with
  | map hit =>
    have hgives : GivesInfinity (.map hit) ↔
        (fileOf hit).isTruthy = true ∧ ∃ negative, lineOf hit = .real (.infinite negative) := by
      simp [GivesInfinity]
    rw [hgives, findingOfItem?, findingOf?_eq]
    split
    next hfile =>
      rw [and_iff_right hfile, ← lineNumber_eq_error_iff]
      cases lineNumber (lineOf hit) <;> simp [Except.map]
    next hfile => exact iff_of_false nofun fun h => hfile h.2.1
  | _ => exact iff_of_false nofun nofun

theorem exists_findingOfItem?_iff :
    (∃ f, findingOfItem? root v = .ok f) ↔ ¬ GivesInfinity v := by
  cases hf : findingOfItem? root v with
  | error e =>
    refine iff_of_false nofun fun hv => hv ?_
    exact (findingOfItem?_eq_error_iff.mp hf).2
  | ok f =>
    refine iff_of_true ⟨f, rfl⟩ fun hv => ?_
    rw [findingOfItem?_eq_error_iff.mpr ⟨rfl, hv⟩] at hf
    cases hf

theorem one_le_line {f : Finding} (h : findingOfItem? root v = .ok (some f)) : 1 ≤ f.line := by
  cases v with
  | map hit =>
    rw [findingOfItem?, findingOf?_eq] at h
    split at h
    · obtain ⟨n, hn, hf⟩ := exists_of_map_eq_ok h
      cases hf
      exact one_le_of_lineNumber hn
    · cases h
  | _ => cases h

/-! ### Reports -/

theorem findingsOf_eq_ok_append {xs ys : List Value} {fs gs : List Finding}
    (hxs : findingsOf root xs = .ok fs) (hys : findingsOf root ys = .ok gs) :
    findingsOf root (xs ++ ys) = .ok (fs ++ gs) := by
  induction xs generalizing fs with
  | nil =>
    cases hxs
    exact hys
  | cons x xs ih =>
    obtain ⟨f, hf, h⟩ := exists_of_bind_eq_ok hxs
    obtain ⟨rest, hrest, h⟩ := exists_of_bind_eq_ok h
    cases h
    rw [List.cons_append, findingsOf, hf, ih hrest, List.append_assoc]
    rfl

theorem exists_findingsOf_iff (root : Option Path) {vs : List Value} :
    (∃ fs, findingsOf root vs = .ok fs) ↔ ∀ v ∈ vs, ¬ GivesInfinity v := by
  induction vs with
  | nil => exact iff_of_true ⟨[], rfl⟩ fun v hv => absurd hv List.not_mem_nil
  | cons v vs ih =>
    rw [List.forall_mem_cons, ← ih, ← exists_findingOfItem?_iff]
    exact exists_bind_bind_iff

theorem one_le_line_of_mem {vs : List Value} {fs : List Finding}
    (h : findingsOf root vs = .ok fs) : ∀ f ∈ fs, 1 ≤ f.line := by
  induction vs generalizing fs with
  | nil =>
    cases h
    exact fun f hf => absurd hf List.not_mem_nil
  | cons v vs ih =>
    obtain ⟨f?, hf, h⟩ := exists_of_bind_eq_ok h
    obtain ⟨rest, hrest, h⟩ := exists_of_bind_eq_ok h
    cases h
    intro f hmem
    rcases List.mem_append.mp hmem with hmem | hmem
    · obtain rfl := Option.mem_toList.mp hmem
      exact one_le_line hf
    · exact ih hrest f hmem

/-- **Two reports together come to what each of them comes to**, at lines from one on, exactly where
none of their items names a file and gives an infinity for the line. -/
theorem read_append_iff (root : Option Path) (xs ys : List Value) :
    (∃ fs gs, read root (.list xs) = .ok fs ∧ read root (.list ys) = .ok gs ∧
      read root (.list (xs ++ ys)) = .ok (fs ++ gs) ∧ ∀ f ∈ fs ++ gs, 1 ≤ f.line) ↔
      ∀ v ∈ xs ++ ys, ¬ GivesInfinity v := by
  rw [List.forall_mem_append, ← exists_findingsOf_iff root, ← exists_findingsOf_iff root]
  constructor
  · rintro ⟨fs, gs, hxs, hys, -, -⟩
    exact ⟨⟨fs, hxs⟩, gs, hys⟩
  · rintro ⟨⟨fs, hxs⟩, gs, hys⟩
    have happend := findingsOf_eq_ok_append hxs hys
    exact ⟨fs, gs, hxs, hys, happend, one_le_line_of_mem happend⟩

/-- A hit whose line is an infinity. -/
def endlessHit : List (Value × Value) :=
  [(.text "file", .text "a.py"), (.text "lineNumber", .real (.infinite false))]

/-- A hit at a line. -/
def plainHit : List (Value × Value) :=
  [(.text "file", .text "b.py"), (.text "lineNumber", .int 7)]

/-- A hit whose line is an infinity hides the other hit of its report. -/
theorem read_append_endlessHit :
    Json.read ("[\x7b\"file\": \"a.py\", \"lineNumber\": Infinity\x7d, " ++
      "\x7b\"file\": \"b.py\", \"lineNumber\": 7\x7d]") =
        .ok (.list ([.map endlessHit] ++ [.map plainHit])) ∧
      read (some ⟨"/", ["w", "shop"]⟩) (.list [.map plainHit]) =
        .ok [findingAt (some ⟨"/", ["w", "shop"]⟩) plainHit 7] ∧
      read (some ⟨"/", ["w", "shop"]⟩) (.list ([.map endlessHit] ++ [.map plainHit])) =
        .error .infinityToInteger := by
  refine ⟨?_, ?_, ?_⟩
  · cbv
  · rfl
  · rfl

end SecretReport

end RepoScan
