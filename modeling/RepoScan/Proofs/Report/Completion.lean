import RepoScan.Detector.External
import RepoScan.Proofs.Report.Markdown
import RepoScan.Proofs.Report.Writing

/-!
# Reports that are written in part

The reports are written one after the other, and not in the same alphabet: the JSON report escapes
what is not ASCII, while the Markdown report shows the same texts as they are.  A tool can report
texts that cannot be encoded, and these tear the reports: the JSON report is there, and the Markdown
report is an empty file.

* `ReportRequest.IsServed` : files can be put wherever reports are asked for;
* `AllOrNothing` : all reports are written, or no file has changed;
* `ReportRequest.Tears` : a Markdown report is asked for that has surrogates;
* `allOrNothing_unless_tears` : **all reports are written or none, exactly unless they are torn**.
-/

namespace RepoScan

variable {q : ReportRequest} {r : ScanResult} {fs : List Finding} {files made later : Files}
  {p m : Path}

/-- Directories can be made and files put wherever reports are asked for, the JSON report first. -/
def ReportRequest.IsServed (q : ReportRequest) (files : Files) : Prop :=
  ∃ made, files.makeDirectory q.directory = .ok made ∧
    match q.json? with
    | none => ∀ m ∈ q.markdown?, made.Admits m
    | some p => ∃ made', made.makeDirectory p.parent = .ok made' ∧ made'.Admits p ∧
        ∀ t, ∀ m ∈ q.markdown?, (made'.put p t).Admits m

/-- Every report that is asked for is written, or there is an error and no file has changed. -/
inductive AllOrNothing (q : ReportRequest) (r : ScanResult) (fs : List Finding)
    (files : Files) : Prop where
  | all (later : Files) (written : writeReports q r fs files = (.ok ⟨q.json?, q.markdown?⟩, later))
    (json : ∀ p ∈ q.json?, ¬ q.Collides → later.HoldsJson p r fs)
    (markdown : ∀ m ∈ q.markdown?, later.HoldsMarkdown m r fs)
  | nothing (e : Failure) (later : Files) (failed : writeReports q r fs files = (.error e, later))
    (unchanged : later.texts = files.texts)

/-- A Markdown report is asked for, its integers can be written, but not all of its texts. -/
structure ReportRequest.Tears (q : ReportRequest) (r : ScanResult) (fs : List Finding) : Prop where
  markdown : q.markdown?.isSome = true
  short : (jsonReport r fs).hasTooLong = false
  surrogates : ¬ IsEncodable r fs

/-! ### One report after the other -/

/-- The Markdown report has a text whenever the JSON report has one. -/
theorem markdownText_eq (r : ScanResult) (fs : List Finding) : markdownText r fs =
    if (jsonReport r fs).hasTooLong then .error .tooLongToWrite
    else .ok (Text.join "\n" (Markdown.lines r fs)) := by
  rw [markdownText, Markdown.render_reportSummary]

/-- Once the JSON report is written, the Markdown report decides. -/
theorem writeReports_of_writeJson {written : Files}
    (hd : files.makeDirectory q.directory = .ok made)
    (hj : writeJson q r fs made = (.ok (), written)) :
    writeReports q r fs files =
      ((writeMarkdown q r fs written).1.map fun _ => ⟨q.json?, q.markdown?⟩,
        (writeMarkdown q r fs written).2) := by
  simp only [writeReports, hd, hj]
  rcases writeMarkdown q r fs written with ⟨_ | _, last⟩ <;> rfl

theorem writeFile_of_surrogates {t : Text} (ha : files.Admits p) (ht : ¬ t.NoSurrogates) :
    files.writeFile p t = (.error .notEncodable, files.put p []) := by
  have found : (t.any (·.isSurrogate)) = true := by
    simpa [Text.NoSurrogates] using ht
  simp [Files.writeFile, ha.path, ha.name, ha.free, found]

theorem ReportRequest.IsServed.exists_written (hs : q.IsServed files)
    (hr : Json.isPlain (Json.maxNesting - 2) r.repository = true)
    (short : (jsonReport r fs).hasTooLong = false) :
    ∃ made written, files.makeDirectory q.directory = .ok made ∧
      writeJson q r fs made = (.ok (), written) ∧ ∀ m ∈ q.markdown?, written.Admits m := by
  obtain ⟨made, hd, room⟩ := hs
  cases hq : q.json? with
  | none =>
    rw [hq] at room
    exact ⟨made, made, hd, by rw [writeJson, hq], room⟩
  | some p =>
    rw [hq] at room
    obtain ⟨made', hmade, ha, after⟩ := room
    have text := jsonText_eq_ok_iff.mpr ⟨short, rfl⟩
    have plain := (exists_read_of_jsonText text hr).1
    exact ⟨made, _, hd, (writeJson_eq_ok_iff hq).mpr ⟨made', hmade, _, text, ha, plain, rfl⟩,
      after _⟩

section Markdown

variable (hq : q.markdown? = some m) (room : files.Admits m)
  (short : (jsonReport r fs).hasTooLong = false)

include hq room short

theorem exists_writeMarkdown (h : IsEncodable r fs) :
    ∃ later, writeMarkdown q r fs files = (.ok (), later) := by
  have text : markdownText r fs = .ok (Text.join "\n" (Markdown.lines r fs)) := by
    rw [markdownText_eq, short]
    rfl
  have plain := (Markdown.noSurrogates_lines_iff r fs).mpr h
  exact ⟨_, (writeMarkdown_eq_ok_iff hq).mpr ⟨_, text, room, plain, rfl⟩⟩

theorem writeMarkdown_of_not_isEncodable (h : ¬ IsEncodable r fs) :
    writeMarkdown q r fs files = (.error .notEncodable, files.put m []) := by
  rw [writeMarkdown, hq]
  dsimp only
  rw [markdownText_eq, short]
  exact writeFile_of_surrogates room (mt (Markdown.noSurrogates_lines_iff r fs).mp h)

end Markdown

theorem allOrNothing_of_written {written : Files}
    (hr : Json.isPlain (Json.maxNesting - 2) r.repository = true)
    (hd : files.makeDirectory q.directory = .ok made)
    (hj : writeJson q r fs made = (.ok (), written))
    (hm : writeMarkdown q r fs written = (.ok (), later)) : AllOrNothing q r fs files := by
  refine .all later ?_ ?_ ?_
  · rw [writeReports_of_writeJson hd hj, hm]
    rfl
  · exact fun p hq hc => holdsJson_of_not_collides hj hm hr hc hq
  · exact fun m hq => (holdsMarkdown_of_writeReports hj hm hd hq).1

/-- Integers that are too long are met before anything is written. -/
theorem ReportRequest.IsServed.allOrNothing_of_long (hs : q.IsServed files)
    (long : (jsonReport r fs).hasTooLong = true) : AllOrNothing q r fs files := by
  obtain ⟨made, hd, room⟩ := hs
  have unwritten {files : Files} {p : Path} :
      writeText p (.error .tooLongToWrite) files = (.error .tooLongToWrite, files) := rfl
  cases hq : q.json? with
  | some p =>
    rw [hq] at room
    obtain ⟨made', hmade, -, -⟩ := room
    refine .nothing .tooLongToWrite made' ?_ ?_
    · simp [writeReports, hd, writeJson, hq, hmade, jsonText, long, unwritten]
    · rw [Files.texts_makeDirectory hmade, Files.texts_makeDirectory hd]
  | none =>
    have hj : writeJson q r fs made = (.ok (), made) := by rw [writeJson, hq]
    cases hm : q.markdown? with
    | some m =>
      refine .nothing .tooLongToWrite made ?_ (Files.texts_makeDirectory hd)
      rw [writeReports_of_writeJson hd hj, writeMarkdown, hm]
      simp [markdownText, long, unwritten, Except.map]
    | none =>
      refine .all made ?_ (by simp [hq]) (by simp [hm])
      rw [writeReports_of_writeJson hd hj, writeMarkdown, hm]
      rfl

/-! ### Both reports -/

/-- **Reports that are not torn are all written, or none is.** -/
theorem ReportRequest.IsServed.allOrNothing (hs : q.IsServed files)
    (hr : Json.isPlain (Json.maxNesting - 2) r.repository = true) (whole : ¬ q.Tears r fs) :
    AllOrNothing q r fs files := by
  cases long : (jsonReport r fs).hasTooLong with
  | true => exact hs.allOrNothing_of_long long
  | false =>
    obtain ⟨made, written, hd, hj, room⟩ := hs.exists_written hr long
    have markdown : ∃ later, writeMarkdown q r fs written = (.ok (), later) := by
      cases hq : q.markdown? with
      | none => exact ⟨written, by rw [writeMarkdown, hq]⟩
      | some m =>
        refine exists_writeMarkdown hq (room m hq) long ?_
        by_contra surrogates
        exact whole ⟨by rw [hq]; rfl, long, surrogates⟩
    obtain ⟨later, hm⟩ := markdown
    exact allOrNothing_of_written hr hd hj hm

/-- Torn reports: the JSON report is written, and then the file of the Markdown report emptied. -/
theorem ReportRequest.Tears.exists_emptied (h : q.Tears r fs) (hs : q.IsServed files)
    (hr : Json.isPlain (Json.maxNesting - 2) r.repository = true) :
    ∃ made written m, files.makeDirectory q.directory = .ok made ∧
      writeJson q r fs made = (.ok (), written) ∧ q.markdown? = some m ∧ written.Admits m ∧
      writeMarkdown q r fs written = (.error .notEncodable, written.put m []) := by
  obtain ⟨asked, short, surrogates⟩ := h
  obtain ⟨made, written, hd, hj, room⟩ := hs.exists_written hr short
  obtain ⟨m, hq⟩ := Option.isSome_iff_exists.mp asked
  exact ⟨made, written, m, hd, hj, hq, room m hq,
    writeMarkdown_of_not_isEncodable hq (room m hq) short surrogates⟩

theorem not_allOrNothing_of_emptied (failed : (writeReports q r fs files).1.isOk = false)
    (empty : (writeReports q r fs files).2.textAt m.collapse = some [])
    (fresh : files.textAt m.collapse ≠ some []) : ¬ AllOrNothing q r fs files := by
  intro whole
  cases whole with
  | all later written =>
    rw [written] at failed
    cases failed
  | nothing e later run unchanged =>
    rw [run, Files.textAt, unchanged] at empty
    exact fresh empty

/-- **All reports are written or none, exactly unless they are torn.**  Torn reports end with an
error after the JSON report was written and the file of the Markdown report was emptied. -/
theorem allOrNothing_unless_tears (hr : Json.isPlain (Json.maxNesting - 2) r.repository = true)
    (hs : q.IsServed files) :
    (¬ q.Tears r fs → AllOrNothing q r fs files) ∧
      (q.Tears r fs → ∃ later, writeReports q r fs files = (.error .notEncodable, later) ∧
        (∀ p ∈ q.json?, ¬ q.Collides → later.HoldsJson p r fs) ∧
        (∀ m ∈ q.markdown?, later.read? m = .ok (some [])) ∧
        ((∀ m ∈ q.markdown?, files.textAt m.collapse ≠ some []) →
          ¬ AllOrNothing q r fs files)) := by
  refine ⟨hs.allOrNothing hr, fun torn => ?_⟩
  obtain ⟨made, written, m, hd, hj, hq, room, emptied⟩ := torn.exists_emptied hs hr
  have run : writeReports q r fs files = (.error .notEncodable, written.put m []) := by
    rw [writeReports_of_writeJson hd hj, emptied]
    rfl
  have empty : (written.put m []).textAt m.collapse = some [] := by
    rw [Files.textAt_put, if_pos rfl]
  refine ⟨_, run, fun p hp hc => ?_, fun m' hm' => ?_, fun fresh => ?_⟩
  · have held := holdsJson_writeMarkdown hj hr hc hp
    rwa [emptied] at held
  · obtain rfl : m = m' := Option.some.inj (hq.symm.trans hm')
    rw [← ReportRequest.parent_of_markdown? hq] at hd
    rw [Files.read?_eq_textAt hd room ((keeps_writeJson hj).trans (written.keeps_put m [])), empty]
  · refine not_allOrNothing_of_emptied ?_ ?_ (fresh m hq)
    · rw [run]
      rfl
    · rw [run]
      exact empty

/-- What a secret scanner can report: the escape of an unpaired surrogate. -/
def surrogateReport : Text :=
  "[\x7b\"file\": \"a.py\", \"description\": \"\\ud800\"\x7d]"

/-- The finding in that report. -/
def surrogateFinding : Finding where
  kind := .secret
  severity := .critical
  confidence := .high
  description := CodePoint.ofNat 0xd800 :: " [secret-scan]"
  file := "a.py"
  line := 1

theorem isServed_requestAt : (requestAt "out/scan.json").IsServed .empty :=
  ⟨⟨[], [Path.ofText "out"]⟩, rfl, ⟨[], [Path.ofText "out"]⟩, rfl, ⟨rfl, rfl, rfl⟩, by
    rintro t m ⟨⟩
    exact ⟨rfl, rfl, rfl⟩⟩

theorem not_isEncodable_surrogateFinding : ¬ IsEncodable sampleResult [surrogateFinding] := by
  intro h
  have plain := h.descriptions _ List.mem_cons_self
  exact absurd plain (by decide +kernel)

/-- A finding without surrogates is told in both reports, and one with a surrogate tears them. -/
theorem allOrNothing_sample :
    AllOrNothing (requestAt "out/scan.json") sampleResult [fullFinding] .empty ∧
      ∃ later, writeReports (requestAt "out/scan.json") sampleResult [surrogateFinding] .empty =
          (.error .notEncodable, later) ∧
        later.HoldsJson (Path.ofText "out/scan.json") sampleResult [surrogateFinding] ∧
        later.read? (Path.ofText "out/scan.md") = .ok (some []) := by
  have encodable : IsEncodable sampleResult [fullFinding] := by
    refine ⟨by decide +kernel, nofun, ?_, ?_⟩
    · simp only [List.forall_mem_singleton]
      decide +kernel
    · simp only [List.forall_mem_singleton]
      decide +kernel
  have tears : (requestAt "out/scan.json").Tears sampleResult [surrogateFinding] :=
    ⟨rfl, by decide +kernel, not_isEncodable_surrogateFinding⟩
  obtain ⟨later, run, json, markdown, -⟩ :=
    (allOrNothing_unless_tears rfl isServed_requestAt).2 tears
  exact ⟨(allOrNothing_unless_tears rfl isServed_requestAt).1 fun h => h.surrogates encodable,
    later, run, json _ rfl (by decide +kernel), markdown _ rfl⟩

/-- **The surrogate of a tool leaves a JSON report behind, and an error.** -/
theorem not_allOrNothing_surrogate :
    Detector.secretFindings (Path.ofText "/clone") surrogateReport = .ok [surrogateFinding] ∧
      (requestAt "out/scan.json").IsServed .empty ∧
      ¬ AllOrNothing (requestAt "out/scan.json") sampleResult [surrogateFinding] .empty := by
  have failed : (writeReports (requestAt "out/scan.json") sampleResult [surrogateFinding]
      .empty).1.isOk = false := by
    decide +kernel
  have emptied : (writeReports (requestAt "out/scan.json") sampleResult [surrogateFinding]
      .empty).2.textAt (Path.ofText "out/scan.md").collapse = some [] := by
    decide +kernel
  exact ⟨toOption_eq_some_iff.mp (by decide +kernel), isServed_requestAt,
    not_allOrNothing_of_emptied failed emptied nofun⟩

end RepoScan
