import RepoScan.Proofs.Diff

/-!
# Where a diff can be cut

The header of a commit or of a file puts aside what was read before it.  From there on the reader
still knows the commit, and nothing else of the lines before.  So a diff that is cut in front of
such a header is read in two parts.

* `Diff.State.step_onto`, `run_onto` : patches that are complete do not matter to the reader;
* `Diff.State.step_header`, `run_header` : the reader begins anew at a header;
* `Diff.read_append` : **a diff is read part by part**;
* `Diff.read_append_eq_ok_iff` : **commits are read one by one**.  The header of a commit replaces
  the commit before as well, so nothing at all of the lines before is left to the reader.
-/

namespace RepoScan.Diff

/-- The text is empty or begins with the header of a commit or of a file. -/
def IsHeaded (t : Text) : Prop :=
  t = [] ∨ Text.startsWith t "commit " = true ∨ Text.startsWith t "diff --git " = true

instance (t : Text) : Decidable (IsHeaded t) := inferInstanceAs (Decidable (_ ∨ _ ∨ _))

namespace State

/-- The reader that knows nothing but the commit. -/
def fresh (commit : Option Text) : State := ⟨[], commit, none, none⟩

/-- The reader with patches that were complete before. -/
def onto (ps : List Patch) (s : State) : State := { s with done := s.done ++ ps }

theorem flushed_onto (ps : List Patch) (s : State) :
    (s.onto ps).flushed = s.flushed ++ ps := by
  obtain ⟨done, commit, current, next⟩ := s
  unfold onto flushed
  cases current.bind Section.patch? <;> rfl

/-- A line is read in the same way whatever was complete before it. -/
theorem step_onto (ps : List Patch) (s : State) (line : Text) :
    (s.onto ps).step line = (s.step line).map (onto ps) := by
  have closed : (s.onto ps).close = s.close.onto ps := by
    rw [close, flushed_onto]
    rfl
  unfold step
  rw [closed]
  -- the same branch is taken on both sides
  cases Text.after? "commit " line with
  | some rest => rfl
  | none =>
    cases Text.startsWith line "diff --git " with
    | true => rfl
    | false =>
      cases Text.after? "+++ " line with
      | some rest =>
        by_cases gone : Text.strip rest = "/dev/null"
        · simp only [gone]
          rfl
        · simp only [gone, Bool.false_eq_true, if_false]
          rfl
      | none =>
        obtain ⟨done, commit, current, next⟩ := s
        cases current with
        | none => rfl
        | some file =>
          cases Text.startsWith line "Binary files " with
          | true => rfl
          | false =>
            cases Text.startsWith line "@@" with
            | true =>
              cases hunkStart? line with
              | none => rfl
              | some ds =>
                cases hn : numberOf ds with
                | error e =>
                  simp only [hn]
                  rfl
                | ok n =>
                  simp only [hn]
                  rfl
            | false =>
              cases next with
              | none => rfl
              | some n =>
                cases line with
                | nil => rfl
                | cons c content =>
                  by_cases added : c = '+'
                  · simp only [added]
                    rfl
                  · by_cases removed : c = '-'
                    · simp only [removed]
                      rfl
                    · simp only [added, removed]
                      rfl

theorem run_onto (ps : List Patch) (s : State) (ls : List Text) :
    (s.onto ps).run ls = (s.run ls).map (onto ps) := by
  induction ls generalizing s with
  | nil => rfl
  | cons l ls ih =>
    rw [run_cons, run_cons, step_onto]
    cases s.step l with
    | error e => rfl
    | ok s₁ => exact ih s₁

/-- At a header the reader begins anew. -/
theorem step_header (s : State) {line : Text} (h : Text.startsWith line "commit " = true ∨
    Text.startsWith line "diff --git " = true) :
    s.step line = ((fresh s.commit).step line).map (onto s.flushed) := by
  rcases h with h | h
  · obtain ⟨rest, rfl⟩ := Text.startsWith_iff.mp h
    rw [step_commit, step_commit]
    rfl
  · obtain ⟨rest, rfl⟩ := Text.startsWith_iff.mp h
    rw [step_file, step_file]
    rfl

/-- What is gained from a header on is what a reader gains that knows the commit alone. -/
theorem run_header (s : State) {line : Text} (h : Text.startsWith line "commit " = true ∨
    Text.startsWith line "diff --git " = true) (ls : List Text) :
    ((s.run (line :: ls)).map fun s' => s'.flushed.reverse) =
      ((fresh s.commit).run (line :: ls)).map fun s' =>
        s.flushed.reverse ++ s'.flushed.reverse := by
  rw [run_cons, run_cons, step_header s h]
  cases (fresh s.commit).step line with
  | error e => rfl
  | ok s₁ =>
    show ((s₁.onto s.flushed).run ls).map _ = (s₁.run ls).map _
    rw [run_onto]
    cases s₁.run ls with
    | error e => rfl
    | ok s₂ =>
      show Except.ok (s₂.onto s.flushed).flushed.reverse = Except.ok _
      rw [flushed_onto, List.reverse_append]

theorem run_headed (s : State) {t : Text} (h : IsHeaded t) :
    ((s.run (Text.lines t)).map fun s' => s'.flushed.reverse) =
      ((fresh s.commit).run (Text.lines t)).map fun s' =>
        s.flushed.reverse ++ s'.flushed.reverse := by
  rcases h with rfl | h
  · rw [Text.lines_nil]
    exact congrArg Except.ok (List.append_nil _).symm
  · have first : ∃ line ls, Text.lines t = line :: ls ∧
        (Text.startsWith line "commit " = true ∨ Text.startsWith line "diff --git " = true) := by
      rcases h with h | h
      · obtain ⟨rest, rfl⟩ := Text.startsWith_iff.mp h
        obtain ⟨more, ls, hls⟩ := Text.exists_lines_append (l := "commit ") (by decide) nofun rest
        exact ⟨_, ls, hls, .inl (Text.startsWith_append _ _)⟩
      · obtain ⟨rest, rfl⟩ := Text.startsWith_iff.mp h
        obtain ⟨more, ls, hls⟩ :=
          Text.exists_lines_append (l := "diff --git ") (by decide) nofun rest
        exact ⟨_, ls, hls, .inr (Text.startsWith_append _ _)⟩
    obtain ⟨line, ls, hls, header⟩ := first
    rw [hls]
    exact run_header s header ls

end State

/-- **A diff is read part by part.**  What is read of the second part hangs on the first one only by
the commit. -/
theorem read_append {t t' : Text} (h : Text.IsEnded t) (h' : IsHeaded t') :
    read (t ++ t') = (State.initial.run (Text.lines t)).bind fun s =>
      ((State.fresh s.commit).run (Text.lines t')).map fun s' =>
        s.flushed.reverse ++ s'.flushed.reverse := by
  rw [read_eq, Text.lines_append h, State.run_append]
  cases State.initial.run (Text.lines t) with
  | error e => rfl
  | ok s => exact State.run_headed s h'

/-- The header of a commit leaves the reader nothing of what was before it. -/
theorem State.run_fresh (commit : Option Text) {t : Text}
    (h : Text.startsWith t "commit " = true) :
    (State.fresh commit).run (Text.lines t) = State.initial.run (Text.lines t) := by
  obtain ⟨rest, rfl⟩ := Text.startsWith_iff.mp h
  obtain ⟨more, ls, hls⟩ := Text.exists_lines_append (l := "commit ") (by decide) nofun rest
  rw [hls, run_cons, run_cons, step_commit, step_commit]
  rfl

theorem read_append_commit {t t' : Text} (h : Text.IsEnded t)
    (h' : Text.startsWith t' "commit " = true) :
    read (t ++ t') = (read t).bind fun ps => (read t').map fun ps' => ps ++ ps' := by
  rw [read_append h (.inr (.inl h')), read_eq, read_eq]
  cases State.initial.run (Text.lines t) with
  | error e => rfl
  | ok s =>
    show ((State.fresh s.commit).run (Text.lines t')).map _ = _
    rw [State.run_fresh s.commit h']
    cases State.initial.run (Text.lines t') <;> rfl

/-- **Commits are read one by one.**  Whatever whole lines come before the header of a commit, the
diff is read exactly where both parts are, and its patches are those of the first part followed by
those of the second one. -/
theorem read_append_eq_ok_iff {t t' : Text} (h : Text.IsEnded t)
    (h' : Text.startsWith t' "commit " = true) {ps : List Patch} :
    read (t ++ t') = .ok ps ↔
      ∃ before after, read t = .ok before ∧ read t' = .ok after ∧ ps = before ++ after := by
  rw [read_append_commit h h']
  constructor
  · intro hps
    obtain ⟨before, hbefore, hps⟩ := exists_of_bind_eq_ok hps
    obtain ⟨after, hafter, rfl⟩ := exists_of_map_eq_ok hps
    exact ⟨before, after, hbefore, hafter, rfl⟩
  · rintro ⟨before, after, hbefore, hafter, rfl⟩
    rw [hbefore, hafter]
    rfl

/-- A commit after another one whose last hunk lacks two of its three lines. -/
theorem read_append_eq_ok_iff_openHunk :
    let front := Text.ended ["commit 1f0c", "+++ b/keys.py", "@@ -0,0 +1,3 @@", "+key"]
    let back := Text.ended ["commit 2e7d", " more", "+++ b/app.py", "@@ -9 +10 @@", "+token"]
    Text.IsEnded front ∧ Text.startsWith back "commit " = true ∧
      read (front ++ back) = .ok [⟨⟨[], ["keys.py"]⟩, [⟨1, "key"⟩], some "1f0c"⟩,
        ⟨⟨[], ["app.py"]⟩, [⟨10, "token"⟩], some "2e7d"⟩] := by
  intro front back
  have ended : Text.IsEnded front := Text.isEnded_ended _
  have header : Text.startsWith back "commit " = true := rfl
  have before : read front = .ok [⟨⟨[], ["keys.py"]⟩, [⟨1, "key"⟩], some "1f0c"⟩] := by
    decide +kernel
  have after : read back = .ok [⟨⟨[], ["app.py"]⟩, [⟨10, "token"⟩], some "2e7d"⟩] := by
    decide +kernel
  exact ⟨ended, header,
    (read_append_eq_ok_iff ended header).mpr ⟨_, _, before, after, rfl⟩⟩

end RepoScan.Diff
