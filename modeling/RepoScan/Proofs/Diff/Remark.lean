import Mathlib.Data.List.TakeWhile
import RepoScan.Proofs.Diff.Boundary
import RepoScan.Proofs.Diff.Log
import RepoScan.Proofs.Diff.Move

/-!
# Remarks in hunks

The remark that the line before it is not ended is no line of the file, but the reader counts it as
one.  The lines that are added after it in the same hunk get numbers that are too high by one.

* `Diff.State.exists_run_records`, `exists_run_hunks` : the lines of a hunk are added with the number
  that the reader is at, and those of later hunks are not;
* `Diff.State.outcome_of_kept`, `outcome_of_dropped` : what becomes of a file at the next header;
* `Diff.State.outcome_within_eq_iff` : where the number that the reader is at does not matter;
* `Diff.Spot.read_remark_iff` : **where a remark does not matter**.
-/

namespace RepoScan.Diff

/-! ### Sorts of lines -/

/-- The line is one of the file that is read: a line of a hunk or the header of one. -/
structure IsOfFile (line : Text) : Prop extends IsInner line where
  binary : Text.startsWith line "Binary files " = false

instance (line : Text) : Decidable (IsOfFile line) :=
  decidable_of_iff (IsInner line ∧ Text.startsWith line "Binary files " = false)
    ⟨fun ⟨inner, binary⟩ => ⟨inner, binary⟩, fun h => ⟨h.toIsInner, h.binary⟩⟩

theorem IsRecord.isOfFile {line : Text} (h : IsRecord line) : IsOfFile line :=
  ⟨h.toIsInner, h.binary⟩

/-- The line is the header of a commit or of a file. -/
def IsHeader (line : Text) : Prop :=
  Text.startsWith line "commit " = true ∨ Text.startsWith line "diff --git " = true

instance (line : Text) : Decidable (IsHeader line) := inferInstanceAs (Decidable (_ ∨ _))

/-! ### Lines of a file -/

/-- The line with its number counted from `n` on. -/
def shift (n : Nat) (a : AddedLine) : AddedLine := { a with number := n + a.number }

namespace State

/-- The reader in a file, with the lines that were added to it so far, the last one first, and the
number of the next line. -/
def within (s : State) (file : Section) (added : List AddedLine) (next : Option Nat) : State :=
  { s with current := some { file with added := added }, next := next }

variable (s : State) (file : Section) {line : Text}

theorem exists_step_record (h : IsRecord line) :
    ∃ xs m, (xs = [] ↔ line.head? ≠ some ('+' : CodePoint)) ∧ ∀ added n,
      (s.within file added (some n)).step line =
        .ok (s.within file (xs.map (shift n) ++ added) (some (n + m))) := by
  simp only [step, h.commit, h.file, h.target, h.binary, h.hunk, within, Bool.false_eq_true,
    if_false]
  cases line with
  | nil => exact ⟨[], 1, iff_of_true rfl (Option.some_ne_none _).symm, fun added n => rfl⟩
  | cons c content =>
    by_cases added : c = '+'
    · subst added
      refine ⟨[⟨0, content⟩], 1, ?_, fun added n => rfl⟩
      exact iff_of_false (List.cons_ne_nil _ _) fun h => h rfl
    · have other : (c :: content).head? ≠ some ('+' : CodePoint) := by
        rw [List.head?_cons, Ne, Option.some.injEq]
        exact added
      by_cases removed : c = '-'
      · refine ⟨[], 0, iff_of_true rfl other, fun added n => ?_⟩
        simp only [removed, if_true]
        rfl
      · refine ⟨[], 1, iff_of_true rfl other, fun more n => ?_⟩
        simp only [added, removed, if_false]
        rfl

/-- Lines of a hunk. -/
theorem exists_run_records {ls : List Text} (h : ∀ l ∈ ls, IsRecord l) :
    ∃ xs m, (xs = [] ↔ ∀ line ∈ ls, line.head? ≠ some ('+' : CodePoint)) ∧ ∀ added n,
      (s.within file added (some n)).run ls =
        .ok (s.within file (xs.map (shift n) ++ added) (some (n + m))) := by
  induction ls with
  | nil => exact ⟨[], 0, iff_of_true rfl nofun, fun added n => rfl⟩
  | cons line ls ih =>
    obtain ⟨hline, hls⟩ := List.forall_mem_cons.mp h
    obtain ⟨xs, m, hxs, hstep⟩ := exists_step_record s file hline
    obtain ⟨ys, k, hys, hrun⟩ := ih hls
    refine ⟨ys.map (shift m) ++ xs, m + k, ?_, fun added n => ?_⟩
    · rw [List.append_eq_nil_iff, List.map_eq_nil_iff, hxs, hys, List.forall_mem_cons, and_comm]
    · -- the lines after the first one are counted from `m` on
      have far : shift (n + m) = shift n ∘ shift m := by
        funext a
        simp only [shift, Function.comp_apply, Nat.add_assoc]
      rw [run_cons_of_ok (hstep added n), hrun, far, List.map_append, List.map_map,
        List.append_assoc, Nat.add_assoc]

theorem exists_step_hunk (h : IsOfFile line) (hunk : Text.startsWith line "@@" = true) :
    ∃ r : Except Failure (Option Nat), ∀ added next,
      (s.within file added next).step line = r.map (s.within file added) := by
  simp only [step, h.commit, h.file, h.target, h.binary, hunk, within, Bool.false_eq_true,
    if_false, if_true]
  cases hunkStart? line with
  | none => exact ⟨.ok none, fun added next => rfl⟩
  | some ds =>
    refine ⟨(numberOf ds).map some, fun added next => ?_⟩
    cases number : numberOf ds with
    | error e =>
      simp only [number]
      rfl
    | ok n =>
      simp only [number]
      rfl

/-- A line of a file adds the same to it whatever was added before. -/
theorem exists_step_ofFile (h : IsOfFile line) (next : Option Nat) :
    ∃ r : Except Failure (List AddedLine × Option Nat), ∀ added,
      (s.within file added next).step line = r.map fun p => s.within file (p.1 ++ added) p.2 := by
  cases hunk : Text.startsWith line "@@" with
  | true =>
    obtain ⟨r, hr⟩ := exists_step_hunk s file h hunk
    refine ⟨r.map fun next => ([], next), fun added => ?_⟩
    rw [hr]
    cases r <;> rfl
  | false =>
    have record : IsRecord line := ⟨h.toIsInner, h.binary, hunk⟩
    cases next with
    | none => exact ⟨.ok ([], none), fun added => step_unnumbered record rfl rfl⟩
    | some n =>
      obtain ⟨xs, m, -, hstep⟩ := exists_step_record s file record
      exact ⟨.ok (xs.map (shift n), some (n + m)), fun added => hstep added n⟩

theorem exists_run_ofFile {ls : List Text} (h : ∀ l ∈ ls, IsOfFile l) (next : Option Nat) :
    ∃ r : Except Failure (List AddedLine × Option Nat), ∀ added,
      (s.within file added next).run ls = r.map fun p => s.within file (p.1 ++ added) p.2 := by
  induction ls generalizing next with
  | nil => exact ⟨.ok ([], next), fun added => rfl⟩
  | cons line ls ih =>
    obtain ⟨hline, hls⟩ := List.forall_mem_cons.mp h
    obtain ⟨r, hstep⟩ := exists_step_ofFile s file hline next
    cases r with
    | error e =>
      refine ⟨.error e, fun added => ?_⟩
      rw [run_cons, hstep]
      rfl
    | ok p =>
      obtain ⟨r, hrun⟩ := ih hls p.2
      refine ⟨r.map fun q => (q.1 ++ p.1, q.2), fun added => ?_⟩
      rw [run_cons_of_ok (hstep added), hrun]
      cases r with
      | error e => rfl
      | ok q =>
        show Except.ok (s.within file (q.1 ++ (p.1 ++ added)) q.2) = _
        rw [← List.append_assoc]
        rfl

/-- From the header of a hunk on the number that the reader was at does not matter. -/
theorem exists_run_hunks {ls : List Text} (h : ∀ l ∈ ls, IsOfFile l)
    (hunk : ∀ line ∈ ls.head?, Text.startsWith line "@@" = true) :
    ∃ r : Except Failure (List AddedLine), ∀ added next, ∃ next',
      (s.within file added next).run ls = r.map fun xs => s.within file (xs ++ added) next' := by
  cases ls with
  | nil => exact ⟨.ok [], fun added next => ⟨next, rfl⟩⟩
  | cons line ls =>
    obtain ⟨hline, hls⟩ := List.forall_mem_cons.mp h
    obtain ⟨r, hstep⟩ := exists_step_hunk s file hline (hunk line rfl)
    cases r with
    | error e =>
      refine ⟨.error e, fun added next => ⟨next, ?_⟩⟩
      rw [run_cons, hstep]
      rfl
    | ok n =>
      obtain ⟨r, hrun⟩ := exists_run_ofFile s file hls n
      cases r with
      | error e =>
        refine ⟨.error e, fun added next => ⟨next, ?_⟩⟩
        rw [run_cons_of_ok (hstep added next), hrun]
        rfl
      | ok p =>
        refine ⟨.ok p.1, fun added next => ⟨p.2, ?_⟩⟩
        rw [run_cons_of_ok (hstep added next), hrun]
        rfl

/-! ### What becomes of a file -/

/-- The patches of the lines that were read and of some more. -/
def outcome (s : State) (ls : List Text) : Except Failure (List Patch) :=
  (s.run ls).map fun s' => s'.flushed.reverse

theorem outcome_append_of_ok {s s' : State} {ls : List Text} (h : s.run ls = .ok s')
    (ls' : List Text) : s.outcome (ls ++ ls') = s'.outcome ls' := by
  rw [outcome, run_append_of_ok h, outcome]

/-- At the end and at the header of a commit or of another file the file is put aside. -/
theorem outcome_of_kept {ls : List Text} (h : ∀ line ∈ ls.head?, IsHeader line) :
    s.outcome ls = ((fresh s.commit).run ls).map fun s' =>
      s.flushed.reverse ++ s'.flushed.reverse := by
  cases ls with
  | nil => exact congrArg Except.ok (List.append_nil _).symm
  | cons line ls => exact run_header s (h line rfl) ls

theorem outcome_outside (done : List Patch) (commit : Option Text) (next next' : Option Nat)
    (ls : List Text) :
    outcome ⟨done, commit, none, next⟩ ls = outcome ⟨done, commit, none, next'⟩ ls := by
  induction ls with
  | nil => rfl
  | cons line ls ih =>
    -- the reader comes to know nothing, or forgets the number
    have step : (∀ next, step ⟨done, commit, none, next⟩ line = .ok ⟨done, commit, none, next⟩) ∨
        step ⟨done, commit, none, next⟩ line = step ⟨done, commit, none, next'⟩ line := by
      by_cases inner : IsInner line
      · exact .inl fun next => step_outside inner rfl
      · unfold State.step
        cases hcommit : Text.after? "commit " line with
        | some rest => exact .inr rfl
        | none =>
          cases hfile : Text.startsWith line "diff --git " with
          | true => exact .inr rfl
          | false =>
            cases htarget : Text.after? "+++ " line with
            | none => exact absurd ⟨hcommit, hfile, htarget⟩ inner
            | some rest =>
              by_cases gone : Text.strip rest = "/dev/null"
              · exact .inl fun next => if_pos gone
              · exact .inr ((if_neg gone).trans (if_neg gone).symm)
    rw [outcome, outcome, run_cons, run_cons]
    rcases step with step | step
    · rw [step, step]
      exact ih
    · rw [step]

/-- The name of another file, and the notice that the file is no text, leave nothing of it. -/
theorem outcome_of_dropped (header : ¬ IsHeader line) (of : ¬ IsOfFile line) (ls : List Text)
    (added added' : List AddedLine) (next next' : Option Nat) :
    (s.within file added next).outcome (line :: ls) =
      (s.within file added' next').outcome (line :: ls) := by
  obtain ⟨hcommit, hfile⟩ := not_or.mp header
  have commit : Text.after? "commit " line = none := by
    refine Option.eq_none_iff_forall_not_mem.mpr fun rest hrest => hcommit ?_
    exact Text.startsWith_iff.mpr ⟨rest, Text.after?_eq_some_iff.mp hrest⟩
  rw [outcome, outcome, run_cons, run_cons]
  cases target : Text.after? "+++ " line with
  | some rest =>
    obtain rfl := Text.after?_eq_some_iff.mp target
    by_cases gone : Text.strip rest = "/dev/null"
    · have step (added : List AddedLine) (next : Option Nat) :
          (s.within file added next).step ("+++ " ++ rest) =
            .ok ⟨s.done, s.commit, none, next⟩ := by
        simp only [State.step, commit, hfile, target, gone, if_true]
        rfl
      -- the number is left, but there is no file that it could be one of
      rw [step, step]
      exact outcome_outside s.done s.commit next next' ls
    · rw [step_target _ gone, step_target _ gone]
      rfl
  | none =>
    have inner : IsInner line := ⟨commit, Bool.eq_false_iff.mpr hfile, target⟩
    have binary : Text.startsWith line "Binary files " = true := by
      rw [← Bool.not_eq_false]
      exact fun hbinary => of ⟨inner, hbinary⟩
    have step (added : List AddedLine) (next : Option Nat) :
        (s.within file added next).step line = .ok ⟨s.done, s.commit, none, none⟩ := by
      simp only [State.step, inner.commit, inner.file, inner.target, binary, within, if_true]
      rfl
    rw [step, step]

/-! ### Numbers -/

theorem flushed_within (added : List AddedLine) (next : Option Nat) :
    (s.within file added next).flushed = if added = [] then s.done
      else ⟨file.path, added.reverse, file.commit⟩ :: s.done := by
  cases added <;> rfl

theorem flushed_within_inj {added added' : List AddedLine} {next next' : Option Nat} :
    (s.within file added next).flushed = (s.within file added' next').flushed ↔
      added = added' := by
  refine ⟨fun h => ?_, fun h => by rw [flushed_within, flushed_within, h]⟩
  rw [flushed_within, flushed_within] at h
  split at h <;> split at h
  · simp only [*]
  · exact absurd h.symm (List.cons_ne_self _ _)
  · exact absurd h (List.cons_ne_self _ _)
  · exact List.reverse_injective (Patch.mk.inj (List.cons.inj h).1).2.1

end State

theorem map_shift_inj {xs : List AddedLine} {n n' : Nat} (h : n ≠ n') :
    xs.map (shift n) = xs.map (shift n') ↔ xs = [] := by
  cases xs with
  | nil => exact iff_of_true rfl rfl
  | cons x xs =>
    refine iff_of_false (fun heq => h ?_) nofun
    have number : n + x.number = n' + x.number :=
      (AddedLine.mk.inj (List.cons.inj heq).1).1
    omega

/-- In the lines something is reported with a number that comes from before them: a line that is
added before the next header, in a file that is put aside after it. -/
def Renumbers (ls : List Text) : Prop :=
  (∃ line ∈ ls.takeWhile (IsRecord ·), line.head? = some ('+' : CodePoint)) ∧
    ∀ line ∈ (ls.dropWhile (IsOfFile ·)).head?, IsHeader line

instance (ls : List Text) : Decidable (Renumbers ls) := inferInstanceAs (Decidable (_ ∧ _))

theorem of_mem_takeWhile {p : Text → Prop} [DecidablePred p] {ls : List Text} {l : Text}
    (h : l ∈ ls.takeWhile (p ·)) : p l := by
  have first := List.mem_takeWhile_imp h
  exact of_decide_eq_true first

theorem not_of_mem_head?_dropWhile {p : Text → Prop} [DecidablePred p] {ls : List Text} {l : Text}
    (h : l ∈ (ls.dropWhile (p ·)).head?) : ¬ p l := by
  have head := List.head?_dropWhile_not (p ·) ls
  rw [h] at head
  exact of_decide_eq_false head

/-- What follows in a file: the rest of the hunk, other hunks, and what comes after the file. -/
theorem exists_parts (ls : List Text) : ∃ hunks,
    ls = ls.takeWhile (IsRecord ·) ++ (hunks ++ ls.dropWhile (IsOfFile ·)) ∧
      (∀ l ∈ hunks, IsOfFile l) ∧ ∀ line ∈ hunks.head?, Text.startsWith line "@@" = true := by
  have records : ∀ l ∈ ls.takeWhile (IsRecord ·), decide (IsOfFile l) = true :=
    fun l hl => decide_eq_true (of_mem_takeWhile hl).isOfFile
  have cut : ls.takeWhile (IsRecord ·) ++ ls.dropWhile (IsRecord ·) = ls :=
    List.takeWhile_append_dropWhile
  have rest : ls.dropWhile (IsOfFile ·) = (ls.dropWhile (IsRecord ·)).dropWhile (IsOfFile ·) := by
    conv => lhs; rw [← cut, List.dropWhile_append_of_pos records]
  refine ⟨(ls.dropWhile (IsRecord ·)).takeWhile (IsOfFile ·), ?_, fun l => of_mem_takeWhile,
    fun line hline => ?_⟩
  · rw [rest, List.takeWhile_append_dropWhile, cut]
  · have of : IsOfFile line := of_mem_takeWhile (List.mem_of_mem_head? hline)
    rw [List.head?_takeWhile] at hline
    have record := not_of_mem_head?_dropWhile (Option.mem_filter_iff.mp hline).1
    rw [← Bool.not_eq_false]
    exact fun hunk => record ⟨of.toIsInner, of.binary, hunk⟩

namespace State

variable (s : State) (file : Section)

theorem exists_outcome_within (ls : List Text) :
    ∃ xs, (xs = [] ↔ ∀ line ∈ ls.takeWhile (IsRecord ·), line.head? ≠ some ('+' : CodePoint)) ∧
      ((∃ e, ∀ added n, (s.within file added (some n)).outcome ls = .error e) ∨
        ∃ ys, ∀ added n, ∃ next, (s.within file added (some n)).outcome ls =
          (s.within file (ys ++ (xs.map (shift n) ++ added)) next).outcome
            (ls.dropWhile (IsOfFile ·))) := by
  obtain ⟨hunks, hls, hhunks, hfirst⟩ := exists_parts ls
  have records : ∀ l ∈ ls.takeWhile (IsRecord ·), IsRecord l := fun l => of_mem_takeWhile
  obtain ⟨xs, m, hxs, hrecords⟩ := exists_run_records s file records
  obtain ⟨r, hrun⟩ := exists_run_hunks s file hhunks hfirst
  have begin (added : List AddedLine) (n : Nat) : (s.within file added (some n)).outcome ls =
      (s.within file (xs.map (shift n) ++ added) (some (n + m))).outcome
        (hunks ++ ls.dropWhile (IsOfFile ·)) := by
    conv => lhs; rw [hls]
    exact outcome_append_of_ok (hrecords added n) _
  refine ⟨xs, hxs, ?_⟩
  cases r with
  | error e =>
    refine .inl ⟨e, fun added n => ?_⟩
    obtain ⟨next, hrun⟩ := hrun (xs.map (shift n) ++ added) (some (n + m))
    rw [begin, outcome, run_append, hrun]
    rfl
  | ok ys =>
    refine .inr ⟨ys, fun added n => ?_⟩
    obtain ⟨next, hrun⟩ := hrun (xs.map (shift n) ++ added) (some (n + m))
    exact ⟨next, (begin added n).trans (outcome_append_of_ok hrun _)⟩

/-- The lines of a file that is put aside can be told from the outcome, if there is one. -/
theorem outcome_within_inj {ls : List Text} (h : ∀ line ∈ ls.head?, IsHeader line)
    {added added' : List AddedLine} {next next' : Option Nat} :
    (s.within file added next).outcome ls = (s.within file added' next').outcome ls ↔
      ∀ ps, (s.within file added next).outcome ls = .ok ps → added = added' := by
  have kept (added : List AddedLine) (next : Option Nat) : (s.within file added next).outcome ls =
      ((fresh s.commit).run ls).map fun s' =>
        (s.within file added next).flushed.reverse ++ s'.flushed.reverse := outcome_of_kept _ h
  rw [kept, kept]
  cases (fresh s.commit).run ls with
  | error e => exact iff_of_true rfl nofun
  | ok s' =>
    constructor
    · intro heq _ _
      have flushed := List.append_cancel_right (Except.ok.inj heq)
      exact (flushed_within_inj s file).mp (List.reverse_injective flushed)
    · intro hsame
      have flushed : (s.within file added next).flushed = (s.within file added' next').flushed :=
        (flushed_within_inj s file).mpr (hsame _ rfl)
      rw [flushed]

/-- **Where the number that the reader is at does not matter.** -/
theorem outcome_within_eq_iff (added : List AddedLine) {n n' : Nat} (h : n ≠ n') (ls : List Text) :
    (s.within file added (some n)).outcome ls = (s.within file added (some n')).outcome ls ↔
      ∀ ps, (s.within file added (some n)).outcome ls = .ok ps → ¬ Renumbers ls := by
  obtain ⟨xs, hxs, ⟨e, failed⟩ | ⟨ys, hrun⟩⟩ := exists_outcome_within s file ls
  · rw [failed, failed]
    exact iff_of_true rfl nofun
  · obtain ⟨next, hn⟩ := hrun added n
    obtain ⟨next', hn'⟩ := hrun added n'
    rw [hn, hn']
    by_cases kept : ∀ line ∈ (ls.dropWhile (IsOfFile ·)).head?, IsHeader line
    · rw [outcome_within_inj s file kept]
      refine forall₂_congr fun ps _ => ?_
      have none : ¬ Renumbers ls ↔ xs = [] := by
        rw [hxs, Renumbers, and_iff_left kept, not_exists]
        exact forall_congr' fun line => not_and
      rw [none, List.append_cancel_left_eq, List.append_cancel_right_eq, map_shift_inj h]
    · have dropped : ¬ Renumbers ls := fun renumbers => kept renumbers.2
      refine iff_of_true ?_ fun _ _ => dropped
      obtain ⟨line, hmem, header⟩ := not_forall₂.mp kept
      have of := not_of_mem_head?_dropWhile hmem
      obtain ⟨rest, hrest⟩ : ∃ rest, ls.dropWhile (IsOfFile ·) = line :: rest :=
        List.head?_eq_some_iff.mp hmem
      rw [hrest]
      exact outcome_of_dropped s file header of rest _ _ _ _

end State

/-! ### Spots -/

/-- A spot in a diff, directly after one of its lines. -/
structure Spot where
  before : List Text
  line : Text
  after : List Text

namespace Spot

/-- The lines of the diff, with some more at the spot. -/
def lines (sp : Spot) (more : List Text) : List Text := sp.before ++ sp.line :: (more ++ sp.after)

/-- The line is one of a hunk: the reader is in a file and knows the number of the next line. -/
structure IsInHunk (sp : Spot) : Prop where
  record : IsRecord sp.line
  hunk : ∃ s file n, State.initial.run sp.before = .ok s ∧ s.current = some file ∧ s.next = some n

variable {sp : Spot}

/-- After its line the reader is still in the hunk. -/
theorem IsInHunk.exists_run (h : sp.IsInHunk) : ∃ (s : State) (file : Section)
    (added : List AddedLine) (n : Nat), ∀ ls,
      State.initial.outcome (sp.before ++ sp.line :: ls) =
        (s.within file added (some n)).outcome ls := by
  obtain ⟨⟨done, commit, _, _⟩, file, n, hrun, rfl, rfl⟩ := h.hunk
  obtain ⟨xs, m, -, hstep⟩ := State.exists_step_record ⟨done, commit, none, none⟩ file h.record
  refine ⟨⟨done, commit, none, none⟩, file, xs.map (shift n) ++ file.added, n + m,
    fun ls => ?_⟩
  rw [State.outcome_append_of_ok hrun]
  exact congrArg (Except.map _) (State.run_cons_of_ok (hstep file.added n) ls)

/-- **Where a remark does not matter**: it leaves what is read of a diff alone, unless an added line
of the same hunk comes after it, in a file that is reported. -/
theorem read_remark_iff (h : sp.IsInHunk) {t t' : Text} (ht : Text.lines t = sp.lines [])
    (ht' : Text.lines t' = sp.lines [HunkLine.unended.toText]) :
    read t' = read t ↔ ∀ ps, read t = .ok ps → ¬ Renumbers sp.after := by
  obtain ⟨s, file, added, n, hrun⟩ := h.exists_run
  have plain : read t = (s.within file added (some n)).outcome sp.after := by
    rw [read_eq, ht]
    exact hrun sp.after
  have remarked : read t' = (s.within file added (some (n + 1))).outcome sp.after := by
    rw [read_eq, ht']
    refine (hrun (HunkLine.unended.toText :: sp.after)).trans ?_
    exact congrArg (Except.map _)
      (State.run_cons_of_ok (State.step_context (by decide) rfl rfl) sp.after)
  rw [plain, remarked, eq_comm]
  exact State.outcome_within_eq_iff s file added (Nat.succ_ne_self n).symm sp.after

/-- After the last line of the hunk the remark is harmless. -/
theorem read_remark_lastLine :
    let sp : Spot := ⟨["+++ b/keys.py", "@@ -1 +1 @@", "-old"], "+new", []⟩
    sp.IsInHunk ∧
      read (Text.ended (sp.lines [HunkLine.unended.toText])) = read (Text.ended (sp.lines [])) := by
  intro sp
  have hunk : sp.IsInHunk := ⟨by decide, _, _, _, rfl, rfl, rfl⟩
  refine ⟨hunk, (read_remark_iff hunk ?_ ?_).mpr fun ps _ => by decide⟩
  · exact Text.lines_ended (by decide)
  · exact Text.lines_ended (by decide)

/-- Between a line and the one that replaces it the remark counts. -/
theorem read_remark_replacedLine :
    let sp : Spot := ⟨["--- a/keys.py", "+++ b/keys.py", "@@ -1 +1 @@"], "-old", ["+new"]⟩
    sp.IsInHunk ∧
      read (Text.ended (sp.lines [])) = .ok [⟨⟨[], ["keys.py"]⟩, [⟨1, "new"⟩], none⟩] ∧
      read (Text.ended (sp.lines [HunkLine.unended.toText])) =
        .ok [⟨⟨[], ["keys.py"]⟩, [⟨2, "new"⟩], none⟩] ∧
      read (Text.ended (sp.lines [HunkLine.unended.toText])) ≠ read (Text.ended (sp.lines [])) := by
  intro sp
  have plain : read (Text.ended (sp.lines [])) =
      .ok [⟨⟨[], ["keys.py"]⟩, [⟨1, "new"⟩], none⟩] := by decide +kernel
  have remarked : read (Text.ended (sp.lines [HunkLine.unended.toText])) =
      .ok [⟨⟨[], ["keys.py"]⟩, [⟨2, "new"⟩], none⟩] := by decide +kernel
  refine ⟨⟨by decide, _, _, _, rfl, rfl, rfl⟩, plain, remarked, ?_⟩
  rw [plain, remarked]
  decide

end Spot

end RepoScan.Diff
