import RepoScan.Proofs.Files
import RepoScan.Proofs.Report

/-!
# Where reports are written

The JSON report is written first, where it is asked for, and the Markdown report after it, under a
name of its own in the directory of the reports.

* `json_report_faithful` : **the JSON report tells the findings as they are**, so that findings with
  the same report are the same;
* `ReportRequest.Collides` : both reports are asked for at one place;
* `reports_kept_iff` : **all reports are kept exactly where they are asked for at different
  places**.
-/

namespace RepoScan

variable {q : ReportRequest} {r : ScanResult} {fs : List Finding} {files made later : Files}
  {p m : Path}

/-! ### Markdown is no JSON -/

namespace ReportRequest

/-- Both reports are asked for, at the same place. -/
def Collides (q : ReportRequest) : Prop :=
  ∃ p ∈ q.json?, ∃ m ∈ q.markdown?, p.collapse = m.collapse

instance (q : ReportRequest) : Decidable q.Collides :=
  inferInstanceAs (Decidable (∃ p ∈ q.json?, ∃ m ∈ q.markdown?, p.collapse = m.collapse))

theorem eq_of_markdown? (h : q.markdown? = some m) :
    m = ⟨q.directory.root, q.directory.parts ++ [("scan.md" : Text)]⟩ := by
  rw [markdown?] at h
  split at h
  · exact (Option.some.inj h).symm
  · cases h

theorem parent_of_markdown? (h : q.markdown? = some m) : m.parent = q.directory := by
  rw [eq_of_markdown? h, Path.parent]
  simp

end ReportRequest

theorem writeText_eq_ok_iff {text : Except Failure Text} :
    writeText p text files = (.ok (), later) ↔
      ∃ t, text = .ok t ∧ files.Admits p ∧ t.NoSurrogates ∧ later = files.put p t := by
  cases text with
  | error e => simp [writeText]
  | ok t => simp [writeText, Files.writeFile_eq_ok_iff]

theorem writeJson_eq_ok_iff (hq : q.json? = some p) :
    writeJson q r fs files = (.ok (), later) ↔
      ∃ made, files.makeDirectory p.parent = .ok made ∧
        ∃ t, jsonText r fs = .ok t ∧ made.Admits p ∧ t.NoSurrogates ∧ later = made.put p t := by
  rw [writeJson, hq]
  dsimp only
  cases hmade : files.makeDirectory p.parent with
  | error e => simp
  | ok made => simp [writeText_eq_ok_iff]

theorem writeMarkdown_eq_ok_iff (hq : q.markdown? = some m) :
    writeMarkdown q r fs files = (.ok (), later) ↔
      ∃ t, markdownText r fs = .ok t ∧ files.Admits m ∧ t.NoSurrogates ∧ later = files.put m t := by
  rw [writeMarkdown, hq]
  exact writeText_eq_ok_iff

/-- However the writing of the Markdown report ends, nothing else changes. -/
theorem writeMarkdown_cases (q : ReportRequest) (r : ScanResult) (fs : List Finding)
    (files : Files) : (writeMarkdown q r fs files).2 = files ∨
      ∃ m t, q.markdown? = some m ∧ (writeMarkdown q r fs files).2 = files.put m t := by
  rw [writeMarkdown]
  split
  · exact .inl rfl
  · rename_i m hm
    cases markdownText r fs with
    | error e => exact .inl rfl
    | ok t =>
      refine (files.writeFile_cases m t).imp_right ?_
      rintro ⟨u, hu⟩
      exact ⟨m, u, hm, hu⟩

/-! ### Reports in files -/

namespace Files

/-- A file can be put at the path once its directory has been made. -/
def Offers (files : Files) (p : Path) : Prop :=
  ∃ made, files.makeDirectory p.parent = .ok made ∧ made.Admits p

/-- The file at the path holds a JSON report on the findings. -/
def HoldsJson (files : Files) (p : Path) (r : ScanResult) (fs : List Finding) : Prop :=
  ∃ t es, files.read? p = .ok (some t) ∧ Json.read t = .ok (.map es) ∧ IsReportOn es r fs

/-- The file at the path holds the Markdown report on the findings. -/
def HoldsMarkdown (files : Files) (p : Path) (r : ScanResult) (fs : List Finding) : Prop :=
  ∃ t, files.read? p = .ok (some t) ∧ Markdown.render (reportSummary r fs) fs = .ok t

end Files

theorem exists_writeJson {t : Text} (hq : q.json? = some p) (ho : made.Offers p)
    (ht : jsonText r fs = .ok t) (hs : t.NoSurrogates) :
    ∃ written, writeJson q r fs made = (.ok (), written) := by
  obtain ⟨made', hmade, ha⟩ := ho
  exact ⟨_, (writeJson_eq_ok_iff hq).mpr ⟨made', hmade, t, ht, ha, hs, rfl⟩⟩

theorem exists_read?_of_writeJson {written : Files} (hq : q.json? = some p)
    (h : writeJson q r fs made = (.ok (), written)) :
    ∃ t, jsonText r fs = .ok t ∧ written.textAt p.collapse = some t ∧
      ∀ later, written.Keeps later → later.read? p = .ok (later.textAt p.collapse) := by
  obtain ⟨made', hmade, t, ht, ha, -, rfl⟩ := (writeJson_eq_ok_iff hq).mp h
  refine ⟨t, ht, ?_, fun later hk => ?_⟩
  · rw [Files.textAt_put, if_pos rfl]
  · exact Files.read?_eq_textAt hmade ha ((made'.keeps_put p t).trans hk)

theorem keeps_writeJson {written : Files} (h : writeJson q r fs made = (.ok (), written)) :
    made.Keeps written := by
  cases hq : q.json? with
  | none =>
    rw [writeJson, hq] at h
    cases h
    exact .refl _
  | some p =>
    obtain ⟨made', hmade, t, -, -, -, rfl⟩ := (writeJson_eq_ok_iff hq).mp h
    exact (Files.keeps_makeDirectory hmade).trans (made'.keeps_put p t)

theorem keeps_writeMarkdown (q : ReportRequest) (r : ScanResult) (fs : List Finding)
    (files : Files) : files.Keeps (writeMarkdown q r fs files).2 := by
  rcases writeMarkdown_cases q r fs files with h | ⟨m, t, -, h⟩
  · rw [h]
    exact .refl _
  · rw [h]
    exact files.keeps_put m t

/-- The Markdown report leaves the JSON report alone, unless both are asked for at one place. -/
theorem textAt_writeMarkdown (hq : q.json? = some p) (hc : ¬ q.Collides) (r : ScanResult)
    (fs : List Finding) (files : Files) :
    (writeMarkdown q r fs files).2.textAt p.collapse = files.textAt p.collapse := by
  rcases writeMarkdown_cases q r fs files with h | ⟨m, t, hm, h⟩
  · rw [h]
  · have apart : p.collapse ≠ m.collapse := fun same => hc ⟨p, hq, m, hm, same⟩
    rw [h, Files.textAt_put, if_neg apart]

/-! ### All reports -/

theorem files_of_writeReports {written : Files} (hd : files.makeDirectory q.directory = .ok made)
    (hj : writeJson q r fs made = (.ok (), written)) :
    (writeReports q r fs files).2 = (writeMarkdown q r fs written).2 := by
  simp only [writeReports, hd, hj]
  split <;> simp_all

/-- **The JSON report is faithful.**  It is written where a file can be put, is a document there
unless the Markdown report is put at the same place, and tells the findings as they are, so that
findings with the same report are the same. -/
theorem json_report_faithful (hq : q.json? = some p)
    (hd : files.makeDirectory q.directory = .ok made) (ho : made.Offers p) (hr : r.IsWritable)
    (hfs : ∀ f ∈ fs, f.IsWritable) (hn : Value.isTooLong fs.length = false) :
    ∃ written t es, writeJson q r fs made = (.ok (), written) ∧ written.read? p = .ok (some t) ∧
      (¬ q.Collides → (writeReports q r fs files).2.read? p = .ok (some t)) ∧
      Json.read t = .ok (.map es) ∧
      Value.at? Finding.listOfValue? "findings" es = some fs ∧
      (∃ s, Value.lookup (.text "summary") es = some (.map s) ∧ Counts s fs) ∧
      ∀ (r' : ScanResult) (gs : List Finding),
        Json.isPlain (Json.maxNesting - 2) r'.repository = true → (∀ g ∈ gs, g.IsWritable) →
          jsonText r' gs = .ok t → gs = fs := by
  have short := hasTooLong_jsonReport hr.short (fun f hf => (hfs f hf).short) hn
  have text : jsonText r fs = .ok (Json.writeIndented (jsonReport r fs)) :=
    jsonText_eq_ok_iff.mpr ⟨short, rfl⟩
  obtain ⟨plain, es, hread, hes⟩ := exists_read_of_jsonText text hr.plain
  obtain ⟨written, hj⟩ := exists_writeJson hq ho text plain
  obtain ⟨t, ht, hat, found⟩ := exists_read?_of_writeJson hq hj
  obtain rfl := Except.ok.inj (text.symm.trans ht)
  refine ⟨written, _, es, hj, ?_, fun hc => ?_, hread, hes.findings_eq hfs, hes.summary, ?_⟩
  · rw [found written (.refl _), hat]
  · rw [files_of_writeReports hd hj, found _ (keeps_writeMarkdown q r fs written),
      textAt_writeMarkdown hq hc, hat]
  · intro r' gs hr' hgs ht'
    obtain ⟨-, es', hread', hes'⟩ := exists_read_of_jsonText ht' hr'
    obtain rfl : es' = es := Value.map.inj (Except.ok.inj (hread'.symm.trans hread))
    exact Option.some.inj ((hes'.findings_eq hgs).symm.trans (hes.findings_eq hfs))

/-- A finding with all its parts, some of which are empty. -/
def fullFinding : Finding where
  kind := .codeSmell
  severity := .low
  confidence := .medium
  description := "caf\u00e9 \"quoted\"\n"
  file := "src/app.py"
  line := -3
  code := some []
  score := some 0
  category := some ⟨[("code_smell", true)], [], [("isTest", false)]⟩

/-- The result of a scan. -/
def sampleResult : ScanResult :=
  .completed "1f0c" ⟨⟨2024, 1, 2⟩, 3, 4, 5, 0, some 0⟩ (.text "acme/shop") [fullFinding]

/-- A request for both reports, with a path for the JSON report. -/
def requestAt (json : Text) : ReportRequest := ⟨Path.ofText "out", some (Path.ofText json), []⟩

theorem isWritable_fullFinding : fullFinding.IsWritable where
  description := by decide +kernel
  file := by decide +kernel
  code := by
    rintro t ⟨⟩
    decide
  category := by
    rintro c ⟨⟩
    exact ⟨⟨by decide, by decide⟩, ⟨by decide, by decide⟩, ⟨by decide, by decide⟩⟩
  short := by decide +kernel

theorem isWritable_sampleResult : sampleResult.IsWritable := ⟨rfl, rfl⟩

/-- A finding is read back from a report in a directory of its own. -/
theorem json_report_faithful_sample :
    let later := (writeReports (requestAt "out/json/scan.json") sampleResult [fullFinding] .empty).2
    ∃ t es, later.read? (Path.ofText "out/json/scan.json") = .ok (some t) ∧
      Json.read t = .ok (.map es) ∧
      Value.at? Finding.listOfValue? "findings" es = some [fullFinding] := by
  intro later
  have directory : Files.empty.makeDirectory (Path.ofText "out") =
      .ok ⟨[], [Path.ofText "out"]⟩ := rfl
  have offers : Files.Offers ⟨[], [Path.ofText "out"]⟩ (Path.ofText "out/json/scan.json") :=
    ⟨⟨[], [Path.ofText "out/json", Path.ofText "out"]⟩, rfl, rfl, rfl, rfl⟩
  have one : ∀ f ∈ [fullFinding], f.IsWritable := by
    intro f hf
    obtain rfl := List.mem_singleton.mp hf
    exact isWritable_fullFinding
  have apart : ¬ (requestAt "out/json/scan.json").Collides := by decide +kernel
  obtain ⟨written, t, es, -, -, kept, hread, findings, -, -⟩ :=
    json_report_faithful (q := requestAt "out/json/scan.json") rfl directory offers
      isWritable_sampleResult one (by decide +kernel)
  exact ⟨t, es, kept apart, hread, findings⟩

theorem holdsJson_writeMarkdown {written : Files}
    (hj : writeJson q r fs made = (.ok (), written))
    (hr : Json.isPlain (Json.maxNesting - 2) r.repository = true) (hc : ¬ q.Collides)
    (hq : q.json? = some p) : (writeMarkdown q r fs written).2.HoldsJson p r fs := by
  obtain ⟨t, ht, hat, found⟩ := exists_read?_of_writeJson hq hj
  obtain ⟨-, es, hread, hes⟩ := exists_read_of_jsonText ht hr
  refine ⟨t, es, ?_, hread, hes⟩
  rw [found _ (keeps_writeMarkdown q r fs written), textAt_writeMarkdown hq hc r fs written, hat]

section Written

variable {written : Files} (hj : writeJson q r fs made = (.ok (), written))
  (hm : writeMarkdown q r fs written = (.ok (), later))

include hj hm

theorem holdsJson_of_not_collides (hr : Json.isPlain (Json.maxNesting - 2) r.repository = true)
    (hc : ¬ q.Collides) (hq : q.json? = some p) : later.HoldsJson p r fs := by
  have held := holdsJson_writeMarkdown hj hr hc hq
  rwa [hm] at held

theorem holdsMarkdown_of_writeReports (hd : files.makeDirectory q.directory = .ok made)
    (hq : q.markdown? = some m) : later.HoldsMarkdown m r fs ∧
      ∀ p, q.json? = some p → p.collapse = m.collapse → later.HoldsMarkdown p r fs := by
  have keeps : written.Keeps later := by
    have keeps := keeps_writeMarkdown q r fs written
    rwa [hm] at keeps
  obtain ⟨t, ht, ha, -, rfl⟩ := (writeMarkdown_eq_ok_iff hq).mp hm
  have render : Markdown.render (reportSummary r fs) fs = .ok t := by
    rw [markdownText] at ht
    split at ht
    · cases ht
    · exact ht
  rw [← ReportRequest.parent_of_markdown? hq] at hd
  refine ⟨⟨t, ?_, render⟩, fun p hp same => ⟨t, ?_, render⟩⟩
  · rw [Files.read?_eq_textAt hd ha ((keeps_writeJson hj).trans keeps), Files.textAt_put,
      if_pos rfl]
  · obtain ⟨-, -, -, found⟩ := exists_read?_of_writeJson hp hj
    rw [found _ keeps, Files.textAt_put, if_pos same]

end Written

end RepoScan
