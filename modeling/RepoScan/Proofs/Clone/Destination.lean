import RepoScan.Proofs.Clone
import RepoScan.Proofs.Path
import RepoScan.Proofs.Repository

/-!
# Where clones go

A clone is made in a directory for temporary files, under the name of the repository.  It should be
inside of that directory, and it is unless the name is one of the two that lead elsewhere.

* `Path.IsEntryOf`, `Path.isEntryOf_joinText_iff` : entries of a directory;
* `Clone.eq_cloneCommand_of_start` : a checkout starts no other process than the one that clones;
* `Clone.destination_iff` : **the destination is inside of the directory** exactly where the name
  is neither `.` nor `..`.
-/

namespace RepoScan

/-! ### Entries of directories -/

namespace Path

/-- The path leads from a directory to one further component, which is a name. -/
def IsEntryOf (p directory : Path) : Prop :=
  ∃ c : Text, p = ⟨directory.root, directory.parts ++ [c]⟩ ∧
    c ≠ [] ∧ c ≠ ("." : Text) ∧ c ≠ (".." : Text) ∧ ('/' : CodePoint) ∉ c

theorem isEntryOf_joinText_iff {t : Text} (hne : t ≠ []) (hs : ('/' : CodePoint) ∉ t)
    (directory : Path) :
    (directory.joinText t).IsEntryOf directory ↔ t ≠ ("." : Text) ∧ t ≠ (".." : Text) := by
  have joined : directory.joinText t =
      ⟨directory.root, directory.parts ++ if t = [] ∨ t = ("." : Text) then [] else [t]⟩ := by
    rw [joinText, ofText_of_notMem hs]
    rfl
  by_cases hdot : t = ("." : Text)
  · rw [joined, if_pos (.inr hdot), List.append_nil]
    refine ⟨?_, fun h => absurd hdot h.1⟩
    -- the directory itself has one component less
    rintro ⟨c, hc, -⟩
    have parts : directory.parts = directory.parts ++ [c] := congrArg Path.parts hc
    exact absurd (List.self_eq_append_right.mp parts) (List.cons_ne_nil c [])
  · rw [joined, if_neg fun h => h.elim hne hdot]
    constructor
    · rintro ⟨c, hc, -, -, hup, -⟩
      have parts : directory.parts ++ [t] = directory.parts ++ [c] := congrArg Path.parts hc
      obtain rfl := (List.cons.inj (List.append_cancel_left parts)).1
      exact ⟨hdot, hup⟩
    · rintro ⟨-, hup⟩
      exact ⟨t, rfl, hne, hdot, hup, hs⟩

end Path

/-! ### Checkouts -/

namespace Clone

variable {r : Repository} (ps : Programs) (token : Option Text) (depth : Option Int)

theorem allEvents_checkout (temporary : Except Failure Path) (limit : Option Binary64) :
    ((checkout temporary r token depth limit).run ps).AllEvents (Does temporary r token) := by
  cases limit with
  | some limit => exact (orderly_checkout.only ps).course.1
  | none =>
    cases ht : temporary with
    | error e => exact nofun
    | ok directory =>
      -- the time is limited from outside, if it is
      have careful : (checkout (.ok directory) r token depth none).Careful
          (Does (.ok directory) r token) fun _ => True := by
        refine (careful_make rfl).attempt_bind (fun _ => Task.careful_pure _) fun e _ => ?_
        have told (n : Notice) (hn : Does (.ok directory) r token (.notice n)) :
            (Task.say n >>= fun _ => pure none : Task (Option Checkout)).Careful
              (Does (.ok directory) r token) fun _ => True :=
          (Task.careful_say hn).bind fun _ => Task.careful_pure none
        split
        · exact Task.careful_pure _
        · exact told _ (.timedOut ..)
        · split
          · exact told _ (.failed ..)
          · exact Task.careful_fail trivial
      exact (Task.Orderly.only careful ps).course.1

/-- The only process that a checkout starts is the one that clones the repository. -/
theorem eq_cloneCommand_of_start {temporary : Path} {limit : Option Binary64} {c : Command}
    (h : .start c ∈ ((checkout (.ok temporary) r token depth limit).run ps).events) :
    ∃ d, c = cloneCommand r (temporary.joinText r.name) token d := by
  cases allEvents_checkout ps token depth (.ok temporary) limit _ h with
  | command ht d hd =>
    cases ht
    rcases hd with hd | hd
    · exact ⟨d, Event.start.inj hd⟩
    · cases hd

theorem getLast?_cloneCommand (destination : Path) (n : Option Text) :
    (cloneCommand r destination token n).words.getLast? = some destination.toText := by
  have last (ws : List Text) (w w' : Text) : (ws ++ [w, w']).getLast? = some w' := by
    rw [List.getLast?_append]
    rfl
  exact last ..

/-- **The destination of a clone is inside of the directory for temporary files**, exactly where the
name of the repository is neither the directory itself nor its parent. -/
theorem destination_iff {v : Value} (h : Repository.ofValue v = .ok r)
    (temporary : Path) (limit : Option Binary64) :
    (∀ c, .start c ∈ ((checkout (.ok temporary) r token depth limit).run ps).events →
      c.words.getLast? = some (temporary.joinText r.name).toText) ∧
    ((temporary.joinText r.name).IsEntryOf temporary ↔
      r.name ≠ ("." : Text) ∧ r.name ≠ (".." : Text)) := by
  obtain ⟨given, -, hread⟩ := Repository.exists_of_ofValue h
  obtain ⟨p, -, hplace⟩ := Repository.exists_of_ofText hread
  obtain ⟨-, -, -, -, hname⟩ := Repository.exists_of_ofPlace hplace
  obtain ⟨hne, hs⟩ := Repository.notMem_slash_of_isName hname
  refine ⟨fun c hc => ?_, Path.isEntryOf_joinText_iff hne hs temporary⟩
  obtain ⟨d, rfl⟩ := eq_cloneCommand_of_start ps token depth hc
  exact getLast?_cloneCommand token _ d

/-- A directory for temporary files. -/
def sampleDirectory : Path := ⟨"/", ["tmp", "devsecguard-1f0c"]⟩

/-- The clone of a repository whose name begins with two points. -/
theorem destination_twoPoints :
    Repository.ofValue (.text "acme/..shop") = .ok ⟨"acme", "..shop"⟩ ∧
      (sampleDirectory.joinText "..shop").IsEntryOf sampleDirectory := by
  have accepted : Repository.ofValue (.text "acme/..shop") = .ok ⟨"acme", "..shop"⟩ := rfl
  exact ⟨accepted, (destination_iff (fun _ => none) none none accepted sampleDirectory none).2.mpr
    (by decide)⟩

/-- A repository whose name is that of the parent is cloned to the parent. -/
theorem destination_parent :
    Repository.ofValue (.text "acme/..") = .ok ⟨"acme", ".."⟩ ∧
      (∃ c, c.words.getLast? = some ("/tmp/devsecguard-1f0c/.." : Text) ∧
        .start c ∈ ((checkout (.ok sampleDirectory) ⟨"acme", ".."⟩ none none none).run
          fun _ => none).events) ∧
      sampleDirectory.joinText ".." = ⟨"/", ["tmp", "devsecguard-1f0c", ".."]⟩ ∧
      ¬ (sampleDirectory.joinText "..").IsEntryOf sampleDirectory := by
  refine ⟨rfl, ⟨cloneCommand ⟨"acme", ".."⟩ (sampleDirectory.joinText "..") none none, rfl,
    List.mem_cons_of_mem _ List.mem_cons_self⟩, rfl, ?_⟩
  rw [Path.isEntryOf_joinText_iff (by decide) (by decide)]
  exact fun h => h.2 rfl

end Clone

end RepoScan
