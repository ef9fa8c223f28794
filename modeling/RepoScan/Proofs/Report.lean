import RepoScan.Proofs.Finding
import RepoScan.Report

/-!
# What reports tell

The JSON report on findings is a document that can be read back, and what is found in it is the
result's name, the findings and their counts.

* `Counts`, `IsReportOn` : what a reader finds in a summary and in a report;
* `isReportOn_reread` : **the report is read back as one on its findings**;
* `IsReportOn.findings_eq` : findings without surrogates are the same as before;
* `hasTooLong_jsonReport` : the report can be written if its findings and their number can;
* `exists_read_of_jsonText` : so the text of the report is a document, on the findings.
-/

namespace RepoScan

/-! ### Keys -/

/-- The keys of the entries that tell which scan it was. -/
def ScanResult.headerKeys : List Text := ["id", "repositoryUrl", "timestamp", "status"]

/-- The result has an error that is told in summaries. -/
def ScanResult.hasError (r : ScanResult) : Bool := r.error.any fun t => !t.isEmpty

/-- The keys of a summary, with or without that of an error. -/
def Summary.keysWith (hasError : Bool) : List Text :=
  ScanResult.headerKeys ++ [("total" : Text), "byType", "top_files"]
    ++ (if hasError then [("error" : Text)] else [])
    ++ [("critical" : Text), "high", "medium", "low"]

/-- The keys of a JSON report, with or without that of an error. -/
def reportKeysWith (hasError : Bool) : List Text :=
  ScanResult.headerKeys ++ [("findings" : Text)] ++ (if hasError then [("error" : Text)] else [])
    ++ [("summary" : Text)]

variable {r : ScanResult} {fs : List Finding}

theorem hasKeys_toEntries (r : ScanResult) (fs : List Finding) (top : Int) :
    Value.HasKeys (Summary.keysWith r.hasError) ((Summary.of fs top).toEntries r) := by
  have nodup : ∀ b, (Summary.keysWith b).Nodup := by decide
  refine ⟨?_, nodup _⟩
  obtain ⟨id, repository, timestamp, status, findings, error⟩ := r
  rcases error with - | - | ⟨c, t⟩ <;> rfl

theorem hasKeys_reportSummary (r : ScanResult) (fs : List Finding) :
    Value.HasKeys (Summary.keysWith r.hasError) (reportSummary r fs) :=
  hasKeys_toEntries r fs Summary.listedFiles

theorem paired_summaryKey {b : Bool} : ∀ k ∈ Summary.keysWith b, Json.paired k = k := by
  cases b <;> decide

/-- The entries of the JSON report. -/
def reportEntries (r : ScanResult) (fs : List Finding) : List (Value × Value) :=
  r.entriesWith fs ++ [(.text "summary", .map (reportSummary r fs))]

theorem hasKeys_reportEntries (r : ScanResult) (fs : List Finding) :
    Value.HasKeys (reportKeysWith (r.status = .failed)) (reportEntries r fs) := by
  have nodup : ∀ b, (reportKeysWith b).Nodup := by decide
  refine ⟨?_, nodup _⟩
  obtain ⟨id, repository, timestamp, status, findings, error⟩ := r
  cases status <;> rfl

theorem paired_reportKey {b : Bool} : ∀ k ∈ reportKeysWith b, Json.paired k = k := by
  cases b <;> decide

/-! ### Reports are plain documents -/

/-- The repository, which is a text unless something else was asked for, is a document that can be
written. -/
structure ScanResult.IsWritable (r : ScanResult) : Prop where
  plain : Json.isPlain (Json.maxNesting - 2) r.repository = true
  short : r.repository.hasTooLong = false

theorem isPlain_toValue_tally (t : FileTally) (depth : Nat) :
    Json.isPlain (depth + 1) t.toValue = true := by
  simp [FileTally.toValue, Json.isPlain, Json.entriesPlain]

theorem entriesPlain_reportSummary {depth : Nat} (h : Json.isPlain (depth + 2) r.repository = true)
    (fs : List Finding) : Json.entriesPlain (depth + 2) (reportSummary r fs) = true := by
  have tallies (ts : List FileTally) :
      Json.itemsPlain (depth + 1) (ts.map FileTally.toValue) = true := by
    simp [Json.itemsPlain_eq, isPlain_toValue_tally]
  obtain ⟨id, repository, timestamp, status, findings, error⟩ := r
  rcases error with - | - | ⟨c, t⟩ <;>
    simp [reportSummary, Summary.toEntries, ScanResult.header, Json.entriesPlain, Json.isPlain, h,
      tallies, Summary.of, Severity.reported, FindingKind.all]

theorem isPlain_jsonReport {depth : Nat} (h : Json.isPlain (depth + 3) r.repository = true)
    (fs : List Finding) : Json.isPlain (depth + 5) (jsonReport r fs) = true := by
  have h' := Json.isPlain_succ _ h
  have findings : Json.itemsPlain (depth + 3) (fs.map Finding.toValue) = true := by
    simp [Json.itemsPlain_eq, Finding.isPlain_toValue]
  have error : Json.entriesPlain (depth + 4)
      (if r.status = .failed then [(.text "error", .text r.errorText)] else []) = true := by
    split <;> simp [Json.entriesPlain, Json.isPlain]
  simp only [jsonReport, ScanResult.entriesWith, ScanResult.header, Json.isPlain,
    Json.entriesPlain_append, Json.entriesPlain, h', findings, error,
    entriesPlain_reportSummary h, Bool.and_self]

/-! ### Integers in reports -/

namespace FileTally

/-- The file has at most `n` findings, and its score can be written. -/
structure IsShort (n : Nat) (t : FileTally) : Prop where
  count : t.count ≤ n
  score : Value.isTooLong t.score = false

theorem IsShort.record {n : Nat} {t : FileTally} (h : t.IsShort n) {f : Finding}
    (hf : f.hasTooLong = false) : (t.record f).IsShort (n + 1) := by
  refine ⟨Nat.succ_le_succ h.count, ?_⟩
  have score : Value.isTooLong (f.score.getD 0) = false := by
    rw [Finding.hasTooLong, Bool.or_eq_false_iff] at hf
    cases hs : f.score with
    | none => exact Value.isTooLong_zero
    | some n => simpa [hs] using hf.2
  show Value.isTooLong (max t.score (f.score.getD 0)) = false
  rw [Int.max_def]
  split
  · exact score
  · exact h.score

theorem IsShort.mono {n : Nat} {t : FileTally} (h : t.IsShort n) : t.IsShort (n + 1) :=
  ⟨Nat.le_succ_of_le h.count, h.score⟩

theorem isShort_recordAll {n : Nat} {ts : List FileTally} (h : ∀ t ∈ ts, t.IsShort n) {f : Finding}
    (hf : f.hasTooLong = false) : ∀ t ∈ recordAll ts f, t.IsShort (n + 1) := by
  induction ts with
  | nil =>
    intro t ht
    obtain rfl := List.mem_singleton.mp ht
    have fresh : IsShort n ⟨f.file, 0, 0⟩ :=
      ⟨Nat.zero_le n, Value.isTooLong_zero⟩
    exact fresh.record hf
  | cons u ts ih =>
    obtain ⟨hu, hts⟩ := List.forall_mem_cons.mp h
    rw [recordAll]
    split
    · exact List.forall_mem_cons.mpr ⟨hu.record hf, fun t ht => (hts t ht).mono⟩
    · exact List.forall_mem_cons.mpr ⟨hu.mono, ih hts⟩

theorem isShort_foldl {n : Nat} {ts : List FileTally} (h : ∀ t ∈ ts, t.IsShort n)
    (hf : ∀ f ∈ fs, f.hasTooLong = false) :
    ∀ t ∈ fs.foldl recordAll ts, t.IsShort (n + fs.length) := by
  induction fs generalizing n ts with
  | nil => exact h
  | cons f fs ih =>
    obtain ⟨hf, hfs⟩ := List.forall_mem_cons.mp hf
    rw [List.foldl_cons, List.length_cons, Nat.add_comm fs.length, ← Nat.add_assoc]
    exact ih (isShort_recordAll h hf) hfs

end FileTally

theorem isShort_topFiles (hf : ∀ f ∈ fs, f.hasTooLong = false) (top : Int) :
    ∀ t ∈ (Summary.of fs top).topFiles, t.IsShort fs.length := by
  intro t ht
  have sorted := List.mem_of_mem_drop (List.mem_of_mem_take ht)
  rw [List.mem_mergeSort] at sorted
  have none : ∀ t ∈ ([] : List FileTally), t.IsShort 0 := fun t ht => absurd ht List.not_mem_nil
  simpa using FileTally.isShort_foldl none hf t sorted

/-- **The report can be written if its findings and their number can.** -/
theorem hasTooLong_jsonReport (hr : r.repository.hasTooLong = false)
    (hf : ∀ f ∈ fs, f.hasTooLong = false) (hn : Value.isTooLong fs.length = false) :
    (jsonReport r fs).hasTooLong = false := by
  have findings : Value.itemsTooLong (fs.map Finding.toValue) = false := by
    simpa [Value.itemsTooLong_eq, Finding.hasTooLong_toValue] using hf
  have count (p : Finding → Bool) : Value.isTooLong (fs.countP p) = false :=
    Value.isTooLong_of_le List.countP_le_length hn
  have tallies : Value.itemsTooLong
      ((Summary.of fs Summary.listedFiles).topFiles.map FileTally.toValue) = false := by
    simp only [Value.itemsTooLong_eq, List.any_map, List.any_eq_false, Function.comp_apply,
      Bool.not_eq_true]
    intro t ht
    have short := isShort_topFiles hf _ t ht
    simp [FileTally.toValue, Value.hasTooLong, Value.entriesTooLong, short.score,
      Value.isTooLong_of_le short.count hn]
  have summary : Value.entriesTooLong (reportSummary r fs) = false := by
    obtain ⟨id, repository, timestamp, status, _, error⟩ := r
    rcases error with - | - | ⟨c, t⟩ <;>
      simp_all [reportSummary, Summary.toEntries, ScanResult.header, Value.hasTooLong,
        Value.entriesTooLong, Summary.of, Severity.reported, FindingKind.all]
  have error : Value.entriesTooLong
      (if r.status = .failed then [(.text "error", .text r.errorText)] else []) = false := by
    split <;> rfl
  simp [jsonReport, ScanResult.entriesWith, ScanResult.header, Value.hasTooLong,
    Value.entriesTooLong_append, Value.entriesTooLong, hr, findings, error, summary]

/-! ### What a reader finds -/

/-- The entries of a summary count these findings. -/
structure Counts (s : List (Value × Value)) (fs : List Finding) : Prop where
  total : Value.lookup (.text "total") s = some (.int fs.length)
  bySeverity : ∀ x : Severity, Value.lookup (.text x.label) s =
    some (.int (fs.countP fun f => f.severity = x : Nat))
  byKind : ∃ ks, Value.lookup (.text "byType") s = some (.map ks) ∧ ∀ k : FindingKind,
    Value.lookup (.text k.label) ks = some (.int (fs.countP fun f => f.kind = k : Nat))

/-- The entries of a document name the result, tell the findings in their order and count them. -/
structure IsReportOn (es : List (Value × Value)) (r : ScanResult) (fs : List Finding) : Prop where
  id : Value.lookup (.text "id") es = some (.text (Json.paired r.id))
  findings : Value.lookup (.text "findings") es =
    some (.list (fs.map fun f => Json.reread f.toValue))
  summary : ∃ s, Value.lookup (.text "summary") es = some (.map s) ∧ Counts s fs

theorem Severity.mem_reported (x : Severity) : x ∈ reported := by
  cases x <;> decide

theorem FindingKind.mem_all (k : FindingKind) : k ∈ all := by
  cases k <;> decide

theorem reread_kindCounts (count : FindingKind → Nat) :
    ∃ ks, Json.reread (.map (FindingKind.all.map fun k => (.text k.label, .int (count k)))) =
        .map ks ∧
      ∀ k : FindingKind, Value.lookup (.text k.label) ks = some (.int (count k)) := by
  have keys : Value.HasKeys (FindingKind.all.map FindingKind.label)
      (FindingKind.all.map fun k => (Value.text k.label, Value.int (count k))) :=
    ⟨by simp, by decide⟩
  refine ⟨_, Json.reread_map_of_values keys (by decide) ?_, fun k => ?_⟩
  · intro e he
    obtain ⟨k, -, rfl⟩ := List.mem_map.mp he
    rfl
  · exact keys.lookup_of_mem (List.mem_map.mpr ⟨k, k.mem_all, rfl⟩)

theorem counts_reread (r : ScanResult) (fs : List Finding) :
    Counts (Json.rereadEntries (reportSummary r fs)) fs := by
  have found {k : Text} {v : Value} (h : (.text k, v) ∈ reportSummary r fs) :=
    Json.lookup_rereadEntries (hasKeys_reportSummary r fs) paired_summaryKey h
  obtain ⟨ks, hks, kinds⟩ := reread_kindCounts fun k => fs.countP fun f => f.kind = k
  refine ⟨found (v := .int fs.length) ?_,
    fun x => found (v := .int (fs.countP fun f => f.severity = x : Nat)) ?_, ks,
    (found ?_).trans (congrArg some hks), kinds⟩
  · simp [reportSummary, Summary.toEntries, Summary.of]
  · exact List.mem_append_right _ (List.mem_map.mpr
      ⟨_, List.mem_map.mpr ⟨x, x.mem_reported, rfl⟩, rfl⟩)
  · simp [reportSummary, Summary.toEntries, Summary.of]

/-- **The report is read back as one on its findings.** -/
theorem isReportOn_reread (r : ScanResult) (fs : List Finding) :
    IsReportOn (Json.rereadEntries (reportEntries r fs)) r fs := by
  have found {k : Text} {v : Value} (h : (.text k, v) ∈ reportEntries r fs) :=
    Json.lookup_rereadEntries (hasKeys_reportEntries r fs) paired_reportKey h
  refine ⟨found (v := .text r.id) ?_, (found (v := .list (fs.map Finding.toValue)) ?_).trans ?_, _,
    (found (v := .map (reportSummary r fs)) ?_).trans (congrArg some ?_), counts_reread r fs⟩
  · simp [reportEntries, ScanResult.entriesWith, ScanResult.header]
  · simp [reportEntries, ScanResult.entriesWith, ScanResult.header]
  · rw [Json.reread, Json.rereadItems_eq, List.map_map]
    rfl
  · simp [reportEntries]
  · exact Json.reread_map (hasKeys_reportSummary r fs) paired_summaryKey

/-- The findings that the items of a document describe. -/
def Finding.listOfValue? (v : Value) : Option (List Finding) := do
  (← v.items?).mapM Finding.ofValue?

/-- Findings without surrogates are found in their report as they were. -/
theorem IsReportOn.findings_eq {es : List (Value × Value)} (h : IsReportOn es r fs)
    (hfs : ∀ f ∈ fs, f.IsWritable) : Value.at? Finding.listOfValue? "findings" es = some fs := by
  have same : fs.map (fun f => Json.reread f.toValue) = fs.map Finding.toValue :=
    List.map_congr_left fun f hf => Finding.reread_toValue (hfs f hf)
  rw [Value.at?, h.findings, same]
  exact mapM_map_of_forall Finding.ofValue?_toValue fs

/-! ### Texts of reports -/

theorem jsonText_eq_ok_iff {t : Text} : jsonText r fs = .ok t ↔
    (jsonReport r fs).hasTooLong = false ∧ t = Json.writeIndented (jsonReport r fs) := by
  rw [jsonText]
  split
  · rename_i long
    simp [long]
  · rename_i short
    simp [short, eq_comm]

/-- The text of the report is a document that is read back. -/
theorem exists_read_of_jsonText {t : Text} (h : jsonText r fs = .ok t)
    (hr : Json.isPlain (Json.maxNesting - 2) r.repository = true) :
    t.NoSurrogates ∧ ∃ es, Json.read t = .ok (.map es) ∧ IsReportOn es r fs := by
  obtain ⟨short, rfl⟩ := jsonText_eq_ok_iff.mp h
  have plain : Json.isPlain Json.maxNesting (jsonReport r fs) = true := isPlain_jsonReport hr fs
  refine ⟨Json.noSurrogates_writeIndented plain, _, ?_, isReportOn_reread r fs⟩
  rw [Json.read_writeIndented plain short]
  exact congrArg Except.ok (Json.reread_map (hasKeys_reportEntries r fs) paired_reportKey)

end RepoScan
