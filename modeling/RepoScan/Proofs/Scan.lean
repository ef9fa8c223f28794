import RepoScan.Proofs.Result
import RepoScan.Proofs.Scan.Detection
import RepoScan.Proofs.Text.Basic
import RepoScan.Proofs.Tree
import RepoScan.Proofs.Triage

/-!
# What comes of a scan

A scan absorbs the failures of its detectors and most of those of its clone, and ends with the first
failure of anything else.  There are exceptions.  Directories that are nested too deep end the scan
although nothing fails that it asks for, and so does a failure that the checkout lets through,
although only its detectors are concerned.  A failure of the source that cannot be put into words
leaves the scan without a result.

* `Scanner.result_scanWith` : the result, stage by stage;
* `Scanner.scan_honest_iff` : in every run the result tells the truth about failures and findings
  unless the scan is `Scanner.Derailed`;
* `Scanner.joins_iff` : the detectors contribute in order, whatever the order of their turns, unless
  the detection is `Scanner.Stuck`.
-/

namespace RepoScan

/-! ### Failures in words -/

namespace Failure

theorem name_ne_nil (e : Failure) : e.name ≠ [] := by
  cases e with
  | noSuchCharacter n =>
    by_cases hn : n < Nat.pow 2 31
    · rw [name, if_pos hn]
      exact Text.ofString_ne_nil (by decide)
    · rw [name, if_neg hn]
      exact Text.ofString_ne_nil (by decide)
  | refused kind status detail text => cases kind <;> exact Text.ofString_ne_nil (by decide)
  | template fault => cases fault <;> exact Text.ofString_ne_nil (by decide)
  | system name => exact name.ne_nil
  | foreign name => exact name.ne_nil
  | wordless name => exact name.ne_nil
  | _ => exact Text.ofString_ne_nil (by decide)

/-- There are words for the failure. -/
def HasWords (e : Failure) : Prop := ∃ t, e.report = .ok t

variable {e : Failure}

theorem report_ne_nil {t : Text} (h : e.report = .ok t) : t ≠ [] := by
  unfold report at h
  split at h
  · cases h
  · obtain rfl := Except.ok.inj h
    split
    · exact e.name_ne_nil
    · rename_i hempty
      exact fun hnil => hempty (List.isEmpty_iff.mpr hnil)

theorem hasWords_or_exists_wordless (e : Failure) :
    e.HasWords ∨ ∃ name asking, e = .wordless name asking := by
  cases e with
  | wordless name asking => exact .inr ⟨name, asking, rfl⟩
  | _ => exact .inl ⟨_, rfl⟩

end Failure

open Failure (HasWords)

namespace Address

theorem fails_checkBrackets (authority : Text) : Fails HasWords (checkBrackets authority) := by
  have bracketed (host : Text) : Fails HasWords (checkBracketed host) := by
    unfold checkBracketed
    split
    · split
      · exact fails_ok _
      · exact fails_error ⟨_, rfl⟩
    · split
      · exact fails_error ⟨_, rfl⟩
      · split
        · exact fails_ok _
        · exact fails_error ⟨_, rfl⟩
  unfold checkBrackets
  split
  · exact fails_ok _
  · dsimp only
    split
    · exact bracketed _
    · exact fails_error ⟨_, rfl⟩
  · exact fails_error ⟨_, rfl⟩

theorem fails_ofText (t : Text) : Fails HasWords (ofText t) := by
  have delimiters (authority : Text) : Fails HasWords (checkDelimiters authority) := by
    unfold checkDelimiters
    split
    · exact fails_error ⟨_, rfl⟩
    · exact fails_ok _
  exact (fails_checkBrackets _).bind fun _ => (delimiters _).bind fun _ => fails_ok _

end Address

namespace Repository

theorem fails_ofAddress (given : Text) (a : Address) : Fails HasWords (ofAddress given a) := by
  unfold ofAddress
  split
  · exact fails_error ⟨_, rfl⟩
  · split
    · exact fails_ok _
    · exact fails_error ⟨_, rfl⟩

theorem fails_placeOf (given t : Text) : Fails HasWords (placeOf given t) := by
  unfold placeOf
  split
  · exact fails_ok _
  · split
    · exact (Address.fails_ofText t).bind (fails_ofAddress given)
    · exact fails_ok _

theorem fails_ofPlace (given : Text) (p : Place) : Fails HasWords (ofPlace given p) := by
  unfold ofPlace
  split
  · exact fails_error ⟨_, rfl⟩
  · dsimp only
    split
    · split
      · exact fails_ok _
      · exact fails_error ⟨_, rfl⟩
    · exact fails_error ⟨_, rfl⟩

theorem fails_ofValue (v : Value) : Fails HasWords (ofValue v) := by
  cases v with
  | text t =>
    show Fails HasWords (ofText t)
    unfold ofText
    dsimp only
    split
    · exact fails_error ⟨_, rfl⟩
    · exact (fails_placeOf t _).bind (fails_ofPlace t)
  | _ => exact fails_error ⟨_, rfl⟩

end Repository

namespace IgnoreRule

theorem fails_anyMatches (today : Date) (f : Finding) (rules : List IgnoreRule) :
    Fails HasWords (anyMatches today f rules) := by
  induction rules with
  | nil => exact fails_ok _
  | cons r rules ih =>
    refine Fails.bind ?_ fun matched => ?_
    · refine Fails.bind ?_ fun expired => ?_
      · unfold isExpired
        split
        · exact fails_ok _
        · exact fails_ok _
        · exact fails_error ⟨_, rfl⟩
      · split <;> exact fails_ok _
    · split
      · exact fails_ok _
      · exact ih

theorem fails_filterFindings (rules : List IgnoreRule) (today : Date) (fs : List Finding) :
    Fails HasWords (filterFindings rules today fs) := by
  induction fs with
  | nil => exact fails_ok _
  | cons f fs ih =>
    exact (fails_anyMatches today f rules).bind fun _ => ih.bind fun _ => fails_ok _

end IgnoreRule

theorem fails_triage (rules : List IgnoreRule) (today : Date) (fs : List Finding) :
    Fails HasWords (triage rules today fs) := by
  refine Fails.bind ?_ (IgnoreRule.fails_filterFindings rules today)
  unfold dropFalsePositives
  split
  · exact fails_error ⟨_, rfl⟩
  · exact fails_ok _

namespace Scanner

variable {σ : Type} (s : Scanner σ) {r : Repository} (identifier : Value) (w : σ)

/-! ### Stages -/

/-- What is found in the files. -/
def inFiles (r : Repository) : Except Failure (List Finding) :=
  ((scanTree s.nesting s.source r []).run w).1.result

/-- The findings of a scan whose detection has this result, or the stage that ends it with the
failure in which it does. -/
def verdict (detection : Except Failure (List Finding)) :
    Except (Stage × Failure) (List Finding) :=
  match Repository.ofValue identifier with
  | .error e => .error (.pending, e)
  | .ok r =>
    match s.inFiles w r with
    | .error e => .error (.traversing, e)
    | .ok fs =>
      match detection with
      | .error e => .error (.detecting, e)
      | .ok ds =>
        match triage s.rules s.today (fs ++ ds) with
        | .error e => .error (.postProcessing, e)
        | .ok out => .ok out

theorem run_enter (before after : Stage) :
    (enter identifier before after : Session σ Unit).run w =
      (Outcome.tell (.entered identifier before after), w) := rfl

theorem result_enter (before after : Stage) :
    ((enter identifier before after : Session σ Unit).run w).1.result = .ok () := rfl

theorem result_lift_attempt {α : Type} (x : Outcome α) :
    ((Session.lift x.attempt : Session σ (Except Failure α)).run w).1.result = .ok x.result := rfl

theorem result_stagesWith (detection : Outcome (List Finding)) :
    ((s.stagesWith (fun _ => detection) identifier).run w).1.result =
      .ok (s.verdict identifier w detection.result) := by
  unfold stagesWith verdict
  cases Repository.ofValue identifier with
  | error e => rfl
  | ok r =>
    have files : ((scanTree s.nesting s.source r []).run w).1.result = s.inFiles w r := rfl
    dsimp only
    rw [Session.result_bind_of_ok _ (result_enter ..), run_enter,
      Session.result_bind_of_ok _ (Session.result_attempt ..), files]
    cases s.inFiles w r with
    | error e => rfl
    | ok fs =>
      dsimp only
      rw [Session.result_bind_of_ok _ (result_enter ..),
        Session.result_bind_of_ok _ (result_lift_attempt ..)]
      cases detection.result with
      | error e => rfl
      | ok ds =>
        dsimp only
        rw [Session.result_bind_of_ok _ (result_enter ..)]
        cases triage s.rules s.today (fs ++ ds) with
        | error e => rfl
        | ok out => exact Session.result_bind_of_ok _ (result_enter ..)

/-- The result of a scan that ends so. -/
def reported (stamp : Stamp) : Except (Stage × Failure) (List Finding) → Except Failure ScanResult
  | .ok fs => .ok (ScanResult.completed stamp.id stamp.time identifier fs)
  | .error (_, e) => e.report.map (ScanResult.failed stamp.id stamp.time identifier)

/-- **The result of a scan**, if its last failure can be put into words. -/
theorem result_scanWith (detection : Outcome (List Finding)) (stamp : Stamp) :
    ((s.scanWith (fun _ => detection) stamp identifier).run w).1.result =
      reported identifier stamp (s.verdict identifier w detection.result) := by
  unfold scanWith
  rw [Session.result_bind_of_ok _ (s.result_stagesWith identifier w detection)]
  cases s.verdict identifier w detection.result with
  | ok fs => rfl
  | error fault =>
    obtain ⟨stage, e⟩ := fault
    show _ = e.report.map _
    dsimp only
    rw [Session.result_bind_of_ok _ rfl, Session.result_bind_of_ok _ (result_enter ..)]
    cases he : e.report with
    | error asking =>
      rw [Session.run_bind_of_error _ rfl]
      rfl
    | ok reason =>
      rw [Session.result_bind_of_ok _ rfl]
      rfl

theorem run_scanWith_congr {detection detection' : Repository → Outcome (List Finding)}
    (h : ∀ r, s.Detects identifier w r → detection r = detection' r) (stamp : Stamp) :
    (s.scanWith detection stamp identifier).run w =
      (s.scanWith detection' stamp identifier).run w := by
  have stages : (s.stagesWith detection identifier).run w =
      (s.stagesWith detection' identifier).run w := by
    unfold stagesWith
    cases hr : Repository.ofValue identifier with
    | error e => rfl
    | ok r =>
      cases hf : ((scanTree s.nesting s.source r []).run w).1.result with
      | ok fs =>
        dsimp only
        rw [h r ⟨hr, fs, hf⟩]
      | error e =>
        have walked : ((scanTree s.nesting s.source r []).attempt.run w).1.result =
            .ok (.error e) := (Session.result_attempt ..).trans (congrArg _ hf)
        dsimp only
        rw [Session.run_bind_of_ok _ (result_enter ..), run_enter,
          Session.run_bind_of_ok _ walked, Session.run_bind_of_ok _ (result_enter ..), run_enter,
          Session.run_bind_of_ok _ walked]
  show Session.bind _ _ w = Session.bind _ _ w
  unfold Session.bind
  rw [show s.stagesWith detection identifier w = s.stagesWith detection' identifier w from stages]

theorem repository_of_scan {stamp : Stamp} {res : ScanResult}
    (h : ((s.scan stamp identifier).run w).1.result = .ok res) : res.repository = identifier := by
  obtain ⟨detection, hd⟩ : ∃ detection : Outcome (List Finding),
      (s.scan stamp identifier).run w =
        (s.scanWith (fun _ => detection) stamp identifier).run w := by
    by_cases hdetects : ∃ r, s.Detects identifier w r
    · obtain ⟨r, hr⟩ := hdetects
      refine ⟨s.detect r, s.run_scanWith_congr identifier w (fun r' hr' => ?_) stamp⟩
      rw [Except.ok.inj (hr.1.symm.trans hr'.1)]
    · exact ⟨pure [], s.run_scanWith_congr identifier w
        (fun r hr => absurd hr (not_exists.mp hdetects r)) stamp⟩
  rw [hd, result_scanWith] at h
  cases hv : s.verdict identifier w detection.result with
  | ok fs =>
    rw [hv] at h
    cases h
    rfl
  | error fault =>
    rw [hv, reported] at h
    cases he : fault.2.report with
    | error asking =>
      rw [he] at h
      cases h
    | ok reason =>
      rw [he] at h
      cases h
      rfl

/-- The scan with its detectors one after the other is one of the runs. -/
theorem exists_run (external : ∀ d ∈ s.detectors, d.IsExternal) (stamp : Stamp) :
    ∃ x : s.Run identifier w, x.outcome stamp = ((s.scan stamp identifier).run w).1 := by
  by_cases hdetects : ∃ r, s.Detects identifier w r
  · obtain ⟨r, hr⟩ := hdetects
    obtain ⟨d, hd⟩ := exists_detection r external
    refine ⟨.detected hr d, congrArg Prod.fst (s.run_scanWith_congr identifier w ?_ stamp)⟩
    intro r' hr'
    obtain rfl := Except.ok.inj (hr.1.symm.trans hr'.1)
    exact hd
  · have early := not_exists.mp hdetects
    exact ⟨.early early, congrArg Prod.fst
      (s.run_scanWith_congr identifier w (fun r hr => absurd hr (early r)) stamp)⟩

/-! ### Failures and findings -/

variable {s identifier w} (x : s.Run identifier w)

variable (s identifier w) in
/-- What derails a scan: directories that are nested too deep, a failure that the checkout lets
through, or one of the source that cannot be put into words. -/
inductive Derailed : Prop
  | nesting {r : Repository} (hr : Repository.ofValue identifier = .ok r)
      (hn : ScanTreeTooDeep s.nesting s.source r [] w)
  | clone {r : Repository} (hr : Repository.ofValue identifier = .ok r) {fs : List Finding}
      (hf : s.inFiles w r = .ok fs) {e : Failure} (he : s.Escapes r e)
  | wordless {r : Repository} (hr : Repository.ofValue identifier = .ok r) {name : FailureName}
      {asking : Failure} (hf : s.inFiles w r = .error (.wordless name asking))

/-- What may end a run early: an identifier that names no repository, a call to the source that
fails, and ignore rules that cannot be asked. -/
inductive Obstructed : Prop
  | identifier {e : Failure} (h : Repository.ofValue identifier = .error e)
  | call {r : Repository} (hr : Repository.ofValue identifier = .ok r) {c : Call}
      (hc : c ∈ scanTreeCalls s.nesting s.source r [] w) (hfault : c.fault ≠ none)
  | rules {r : Repository} (hr : Repository.ofValue identifier = .ok r) {fs ds : List Finding}
      (hf : s.inFiles w r = .ok fs) (hd : x.detection.result = .ok ds) {e : Failure}
      (ht : triage s.rules s.today (fs ++ ds) = .error e)

/-- The result tells what happened in the run: it is that of a failed scan exactly where something
ended the scan early, and has all findings or none.  Those of the detectors are what each of them
may contribute, in their order. -/
structure Honest (res : ScanResult) : Prop where
  failed_iff : res.status = .failed ↔ Obstructed x
  of_failed : res.status = .failed → res.findings = [] ∧ ∃ e, res.error = some e ∧ e ≠ []
  of_completed : res.status = .completed → res.error = none ∧ ∃ r fs parts,
    Repository.ofValue identifier = .ok r ∧ s.inFiles w r = .ok fs ∧
      x.detection.result = .ok parts.flatten ∧
      List.Forall₂ (Contributes s.programs ⟨r, x.clone?⟩) s.detectors parts ∧
      triage s.rules s.today (fs ++ parts.flatten) = .ok res.findings
  issues : ∀ f ∈ res.findings, f.isEnriched = true ∧ f.isFalsePositive = false ∧
    ∀ rule ∈ s.rules, rule.matchesOn s.today f = .ok false

variable {x}

/-- Where the walk fails only a call can be in the way. -/
theorem obstructed_iff_of_files {e : Failure} (hr : Repository.ofValue identifier = .ok r)
    (hf : s.inFiles w r = .error e) :
    Obstructed x ↔ ¬ ScanTreeTooDeep s.nesting s.source r [] w := by
  constructor
  · intro h hn
    cases h with
    | identifier h => cases hr.symm.trans h
    | call hr' hc hfault =>
      obtain rfl := Except.ok.inj (hr.symm.trans hr')
      exact hfault (hn.2 _ hc)
    | rules hr' hf' =>
      obtain rfl := Except.ok.inj (hr.symm.trans hr')
      cases hf.symm.trans hf'
  · intro hn
    rcases (scanTree_fails_iff s.nesting s.source r [] w).mp ⟨e, hf⟩ with ⟨c, hc, hfault⟩ | hn'
    · exact .call hr hc hfault
    · exact absurd hn' hn

/-- Beyond the files only the ignore rules can be in the way. -/
theorem obstructed_iff {fs : List Finding} (hr : Repository.ofValue identifier = .ok r)
    (hf : s.inFiles w r = .ok fs) : Obstructed x ↔
      ∃ ds e, x.detection.result = .ok ds ∧ triage s.rules s.today (fs ++ ds) = .error e := by
  have files : ¬ ∃ e, ((scanTree s.nesting s.source r []).run w).1.result = .error e := by
    rintro ⟨e, he⟩
    cases hf.symm.trans he
  constructor
  · intro h
    cases h with
    | identifier h => cases hr.symm.trans h
    | call hr' hc hfault =>
      obtain rfl := Except.ok.inj (hr.symm.trans hr')
      exact absurd ((scanTree_fails_iff ..).mpr (.inl ⟨_, hc, hfault⟩)) files
    | rules hr' hf' hd ht =>
      obtain rfl := Except.ok.inj (hr.symm.trans hr')
      obtain rfl := Except.ok.inj (hf.symm.trans hf')
      exact ⟨_, _, hd, ht⟩
  · rintro ⟨ds, e, hd, ht⟩
    exact .rules hr hf hd ht

theorem honest_failed (stamp : Stamp) {e : Failure} {reason : Text} (he : e.report = .ok reason)
    (h : Obstructed x) :
    Honest x (ScanResult.failed stamp.id stamp.time identifier reason) :=
  ⟨⟨fun _ => h, fun _ => rfl⟩, fun _ => ⟨rfl, _, rfl, Failure.report_ne_nil he⟩, nofun, nofun⟩

/-- A failure makes an honest result if it can be put into words and something was in the way. -/
theorem exists_honest_failed_iff {e : Failure} (stage : Stage) (stamp : Stamp) :
    (∃ res, reported identifier stamp (.error (stage, e)) = .ok res ∧ Honest x res) ↔
      e.HasWords ∧ Obstructed x := by
  simp only [reported]
  constructor
  · rintro ⟨res, hres, honest⟩
    cases he : e.report with
    | error asking =>
      rw [he] at hres
      cases hres
    | ok reason =>
      rw [he] at hres
      cases hres
      exact ⟨⟨reason, he⟩, honest.failed_iff.mp rfl⟩
  · rintro ⟨⟨reason, he⟩, h⟩
    rw [he]
    exact ⟨_, rfl, honest_failed stamp he h⟩

theorem honest_completed {fs out : List Finding} {parts : List (List Finding)} (stamp : Stamp)
    (hr : Repository.ofValue identifier = .ok r) (hf : s.inFiles w r = .ok fs)
    (hd : x.detection.result = .ok parts.flatten)
    (hparts : List.Forall₂ (Contributes s.programs ⟨r, x.clone?⟩) s.detectors parts)
    (ht : triage s.rules s.today (fs ++ parts.flatten) = .ok out) :
    Honest x (ScanResult.completed stamp.id stamp.time identifier out) := by
  refine ⟨⟨nofun, fun h => ?_⟩, nofun, fun _ => ⟨rfl, r, fs, parts, hr, hf, hd, hparts, ht⟩,
    triage_sound ht⟩
  obtain ⟨ds, e, hd', he⟩ := (obstructed_iff hr hf).mp h
  obtain rfl := Except.ok.inj (hd.symm.trans hd')
  cases ht.symm.trans he

theorem derailed_iff_of_files {e : Failure} (hr : Repository.ofValue identifier = .ok r)
    (hf : s.inFiles w r = .error e) : s.Derailed identifier w ↔
      ScanTreeTooDeep s.nesting s.source r [] w ∨ ¬ e.HasWords := by
  constructor
  · intro h
    cases h with
    | nesting hr' hn =>
      obtain rfl := Except.ok.inj (hr.symm.trans hr')
      exact .inl hn
    | clone hr' hf' =>
      obtain rfl := Except.ok.inj (hr.symm.trans hr')
      cases hf.symm.trans hf'
    | wordless hr' hf' =>
      obtain rfl := Except.ok.inj (hr.symm.trans hr')
      obtain rfl := Except.error.inj (hf.symm.trans hf')
      refine .inr ?_
      rintro ⟨t, ht⟩
      cases ht
  · rintro (hn | hw)
    · exact .nesting hr hn
    · rcases e.hasWords_or_exists_wordless with worded | ⟨name, asking, rfl⟩
      · exact absurd worded hw
      · exact .wordless hr hf

/-- Where the scan comes to the detectors, it is derailed if their checkout lets a failure
through. -/
theorem derailed_iff_stuck {fs : List Finding} (hr : Repository.ofValue identifier = .ok r)
    (hf : s.inFiles w r = .ok fs) : s.Derailed identifier w ↔ s.Stuck r := by
  constructor
  · intro h
    cases h with
    | nesting hr' hn =>
      obtain rfl := Except.ok.inj (hr.symm.trans hr')
      cases hf.symm.trans hn.1
    | clone hr' _ he =>
      obtain rfl := Except.ok.inj (hr.symm.trans hr')
      exact ⟨_, he⟩
    | wordless hr' hf' =>
      obtain rfl := Except.ok.inj (hr.symm.trans hr')
      cases hf.symm.trans hf'
  · rintro ⟨e, he⟩
    exact .clone hr hf he

theorem exists_honest_detected_iff {fs : List Finding} (d : s.Detection r)
    (h : s.Detects identifier w r) (hf : s.inFiles w r = .ok fs) (stamp : Stamp) :
    (∃ res, reported identifier stamp (s.verdict identifier w d.outcome.result) = .ok res ∧
      Honest (.detected h d) res) ↔ ¬ s.Stuck r := by
  by_cases hs : s.Stuck r
  · -- nothing was in the way, and still the scan failed
    obtain ⟨e, -, hd⟩ := d.exists_error hs
    refine iff_of_false ?_ fun h => h hs
    simp only [verdict, h.1, hf, hd]
    rw [exists_honest_failed_iff]
    rintro ⟨-, obstructed⟩
    obtain ⟨ds, e', hd', -⟩ := (obstructed_iff h.1 hf).mp obstructed
    cases hd.symm.trans hd'
  · obtain ⟨parts, hd, hparts⟩ := d.mayContribute hs
    refine iff_of_true ?_ hs
    simp only [verdict, h.1, hf, hd]
    cases ht : triage s.rules s.today (fs ++ parts.flatten) with
    | error e =>
      exact (exists_honest_failed_iff _ stamp).mpr ⟨fails_triage _ _ _ e ht, .rules h.1 hf hd ht⟩
    | ok out => exact ⟨_, rfl, honest_completed stamp h.1 hf hd hparts ht⟩

theorem exists_honest_iff (x : s.Run identifier w) (stamp : Stamp) :
    (∃ res, (x.outcome stamp).result = .ok res ∧ Honest x res) ↔ ¬ s.Derailed identifier w := by
  rw [Run.outcome, result_scanWith]
  cases hr : Repository.ofValue identifier with
  | error e =>
    simp only [verdict, hr]
    refine iff_of_true ?_ ?_
    · exact (exists_honest_failed_iff _ stamp).mpr ⟨Repository.fails_ofValue _ e hr, .identifier hr⟩
    · rintro (⟨hr', -⟩ | ⟨hr', -⟩ | ⟨hr', -⟩) <;> cases hr.symm.trans hr'
  | ok r =>
    cases hf : s.inFiles w r with
    | error e =>
      simp only [verdict, hr, hf]
      rw [exists_honest_failed_iff, obstructed_iff_of_files hr hf, derailed_iff_of_files hr hf,
        not_or, not_not, and_comm]
    | ok fs =>
      cases x with
      | early h => exact absurd ⟨hr, fs, hf⟩ (h r)
      | detected h d =>
        obtain rfl := Except.ok.inj (hr.symm.trans h.1)
        rw [derailed_iff_stuck hr hf]
        exact exists_honest_detected_iff d h hf stamp

theorem findings_of_failed (x : s.Run identifier w) (stamp : Stamp) {res : ScanResult}
    (hres : (x.outcome stamp).result = .ok res) (hfailed : res.status = .failed) :
    res.findings = [] ∧ ∃ e, res.error = some e ∧ e ≠ [] := by
  rw [Run.outcome, result_scanWith] at hres
  cases hv : s.verdict identifier w x.detection.result with
  | ok fs =>
    rw [hv] at hres
    cases hres
    cases hfailed
  | error fault =>
    rw [hv, reported] at hres
    cases he : fault.2.report with
    | error asking =>
      rw [he] at hres
      cases hres
    | ok reason =>
      rw [he] at hres
      cases hres
      exact ⟨rfl, reason, rfl, Failure.report_ne_nil he⟩

/-! ### Scanners of empty repositories -/

/-- A scanner for empty repositories that asks for what a configuration says. -/
def ofEmptyHost (config : Config) (programs : Programs) : Scanner Unit where
  source := ⟨fun _ _ => pure [], fun _ _ => pure []⟩
  detectors := Detector.ofConfig config
  config := config
  rules := []
  token := none
  programs := programs
  temporary := .ok (Path.ofText "/tmp")
  today := ⟨2024, 1, 2⟩
  nesting := 988

theorem external_ofEmptyHost (config : Config) (programs : Programs) :
    ∀ d ∈ (ofEmptyHost config programs).detectors, d.IsExternal :=
  fun _ => Detector.isExternal_of_mem_ofConfig

/-- A scanner that is to search more commits than can be written. -/
def deepHistory : Scanner Unit :=
  ofEmptyHost { Config.default with historyDepth := some (Nat.pow 10 Number.maxDigits : Nat) }
    fun _ => none

theorem escapes_deepHistory_iff {e : Failure} : deepHistory.Escapes r e ↔ e = .tooLongToWrite := by
  have unwritable : Clone.Unwritable deepHistory.cloneDepth := ⟨_, rfl, Value.isTooLong_pow⟩
  constructor
  · rintro ⟨-, h⟩
    cases h with
    | directory h => cases h
    | depth => rfl
    | denied _ _ hn => cases hn.symm.trans (Clone.depthText_of_unwritable unwritable)
  · rintro rfl
    exact ⟨rfl, .depth rfl rfl unwritable⟩

/-- Programs of which one makes a clone, one hangs and the others may not be run. -/
def busyPrograms : Programs := fun c =>
  match c.words with
  | [] => none
  | program :: rest =>
    if program = ("gitleaks" : Text) then some .hangs
    else if rest.head? = some ("clone" : Text) then some (.exits ⟨0, [], [], .empty⟩)
    else some (.refused (.system ⟨"PermissionError", by decide⟩ "Permission denied"))

/-- A scanner with these programs. -/
def busy : Scanner Unit := ofEmptyHost Config.default busyPrograms

theorem not_stuck_busy : ¬ busy.Stuck r := by
  rintro ⟨e, -, h⟩
  cases h with
  | directory h => cases h
  | depth _ _ hd =>
    obtain ⟨n, hn, hlong⟩ := hd
    obtain rfl := Option.some.inj hn
    exact absurd hlong (by decide +kernel)
  | @denied directory n _ _ _ _ hc =>
    have begun : (Clone.cloneCommand r (directory.joinText r.name) none n).launch busyPrograms =
        .ok (.exits ⟨0, [], [], .empty⟩) := rfl
    cases begun.symm.trans hc

/-! ### Runs of a scan -/

variable (s) in
/-- **In every run a scan has an honest result unless it is derailed**, and a failed one never has
findings.  What the program does is one of the runs. -/
theorem scan_honest_iff (identifier : Value) (w : σ) (stamp : Stamp) :
    (∀ x : s.Run identifier w,
      (∀ res, (x.outcome stamp).result = .ok res → res.status = .failed →
        res.findings = [] ∧ ∃ e, res.error = some e ∧ e ≠ []) ∧
      ((∃ res, (x.outcome stamp).result = .ok res ∧ Honest x res) ↔
        ¬ s.Derailed identifier w)) ∧
    ((∀ d ∈ s.detectors, d.IsExternal) → ∃ x : s.Run identifier w,
      x.outcome stamp = ((s.scan stamp identifier).run w).1) :=
  ⟨fun x => ⟨fun _ => findings_of_failed x stamp, exists_honest_iff x stamp⟩,
    fun external => s.exists_run identifier w external stamp⟩

/-- Nothing but the number of commits is in the way of the scan, and still it fails. -/
theorem deepHistory_dishonest :
    let identifier : Value := .text "acme/shop"
    let stamp : Stamp := ⟨"scan", ⟨⟨2024, 1, 2⟩, 0, 0, 0, 0, some 0⟩⟩
    ∃ x : deepHistory.Run identifier (),
      x.outcome stamp = ((deepHistory.scan stamp identifier).run ()).1 ∧
      ∃ res, (x.outcome stamp).result = .ok res ∧ res.status = .failed ∧ ¬ Honest x res := by
  intro identifier stamp
  obtain ⟨x, hx⟩ := deepHistory.exists_run identifier () (external_ofEmptyHost _ _) stamp
  refine ⟨x, hx, ?_⟩
  have hr : Repository.ofValue identifier = .ok ⟨"acme", "shop"⟩ := rfl
  have hf : deepHistory.inFiles () ⟨"acme", "shop"⟩ = .ok [] := rfl
  cases x with
  | early h => exact absurd ⟨hr, [], hf⟩ (h _)
  | @detected r h d =>
    obtain rfl := Except.ok.inj (hr.symm.trans h.1)
    obtain ⟨e, he, hd⟩ := d.exists_error ⟨_, escapes_deepHistory_iff.mpr rfl⟩
    obtain rfl := escapes_deepHistory_iff.mp he
    obtain ⟨reason, hreason⟩ : Failure.tooLongToWrite.HasWords := ⟨_, rfl⟩
    have result : ((Run.detected h d).outcome stamp).result =
        .ok (ScanResult.failed stamp.id stamp.time identifier reason) := by
      rw [Run.outcome, result_scanWith, Run.detection, hd]
      simp only [verdict, hr, hf, reported, hreason]
      rfl
    refine ⟨_, result, rfl, fun honest => ?_⟩
    exact (exists_honest_iff _ stamp).mp ⟨_, result, honest⟩ (.clone hr hf he)

/-! ### Independent detectors -/

variable (s r) in
/-- The detectors are independent: in every run their own findings come in their order, but for
those whose time is over, and come after those in the files. -/
structure Joins : Prop where
  merged (x : s.Detection r) : x.isLate.length = s.detectors.length ∧
    x.outcome.result = .ok (s.merged ⟨r, x.clone?⟩ x.isLate)
  cloned (x : s.Detection r) : x.clone? = if x.isCloneLate then none else s.cloned r
  silent (t : Target) : ∀ d ∈ s.detectors, d.skips t = true ∨
    (∃ h, ((d.limited t).course s.programs).result = .error h) → d.found s.programs t = []
  kept (identifier : Value) (w : σ) (fs : List Finding)
    (hr : Repository.ofValue identifier = .ok r) (hf : s.inFiles w r = .ok fs)
    (x : s.Detection r) : s.verdict identifier w x.outcome.result =
      (triage s.rules s.today (fs ++ s.merged ⟨r, x.clone?⟩ x.isLate)).mapError
        fun e => (.postProcessing, e)

theorem joins_of_not_stuck (external : ∀ d ∈ s.detectors, d.IsExternal) (h : ¬ s.Stuck r) :
    s.Joins r := by
  refine ⟨fun x => x.result external h, fun x => x.clone?_eq h, ?_, ?_⟩
  · rintro t d - (hd | ⟨e, he⟩)
    · exact d.found_of_skips _ _ hd
    · exact d.found_of_error _ _ he
  · intro identifier w fs hr hf x
    simp only [verdict, hr, hf, (x.result external h).2]
    cases triage s.rules s.today _ <;> rfl

variable (s r) in
/-- **The detectors are independent exactly where the detection is not stuck.**  What the program
does is one of the runs. -/
theorem joins_iff (external : ∀ d ∈ s.detectors, d.IsExternal) :
    (∃ x : s.Detection r, x.outcome = s.detect r) ∧ (s.Joins r ↔ ¬ s.Stuck r) := by
  obtain ⟨x, hx⟩ := exists_detection r external
  refine ⟨⟨x, hx⟩, fun joins stuck => ?_, joins_of_not_stuck external⟩
  -- a failed detection is no merge
  obtain ⟨e, -, he⟩ := x.exists_error stuck
  cases (joins.merged x).2.symm.trans he

/-- The secret scanner hangs and the audit may not be run, and still the detectors are joined. -/
theorem joins_iff_busy : (∀ d ∈ busy.detectors, d.IsExternal) ∧ busy.Joins ⟨"acme", "shop"⟩ := by
  have external := external_ofEmptyHost Config.default busyPrograms
  exact ⟨external, (busy.joins_iff ⟨"acme", "shop"⟩ external).2.mpr not_stuck_busy⟩

/-- The detectors of the scan do not even begin. -/
theorem deepHistory_not_joined : ¬ deepHistory.Joins ⟨"acme", "shop"⟩ := by
  intro joins
  obtain ⟨x, -⟩ := exists_detection ⟨"acme", "shop"⟩ (external_ofEmptyHost _ _)
  obtain ⟨e, -, he⟩ := x.exists_error ⟨_, escapes_deepHistory_iff.mpr rfl⟩
  cases (joins.merged x).2.symm.trans he

end Scanner

end RepoScan
