import RepoScan.Proofs.Report
import RepoScan.Proofs.Result
import RepoScan.Proofs.Summary

/-!
# The Markdown report

The Markdown report is rendered from the entries of a summary, any of which might be missing.  For
the summary of a scan they are all there, so the report is a list of lines that is known, and it
shows texts of the result and of its findings just as they are.

* `Markdown.lines` : the lines of the report, and `Markdown.render_reportSummary` : **the report
  consists of them**;
* `IsEncodable` : what the report shows has no surrogates;
* `Markdown.noSurrogates_lines_iff` : **the report has surrogates only where what it shows has
  some**.
-/

namespace RepoScan

variable {r : ScanResult} {fs : List Finding}

/-! ### Texts without surrogates -/

namespace Text

variable {s t : Text} {ts : List Text}

theorem noSurrogates_nil : NoSurrogates [] := nofun

theorem noSurrogates_ofString (s : String) : (ofString s).NoSurrogates :=
  Json.noSurrogates_map s.toList

theorem noSurrogates_append_iff : NoSurrogates (s ++ t) ↔ s.NoSurrogates ∧ t.NoSurrogates :=
  List.forall_mem_append

theorem noSurrogates_join_iff (hs : s.NoSurrogates) :
    (join s ts).NoSurrogates ↔ ∀ t ∈ ts, t.NoSurrogates := by
  refine ⟨fun h => ?_, Json.noSurrogates_join hs⟩
  induction ts with
  | nil => nofun
  | cons t ts ih =>
    cases ts with
    | nil =>
      rw [join, List.intercalate_singleton] at h
      exact List.forall_mem_singleton.mpr h
    | cons u us =>
      rw [join, List.intercalate_cons_cons, noSurrogates_append_iff, noSurrogates_append_iff] at h
      exact List.forall_mem_cons.mpr ⟨h.1.1, ih h.2⟩

end Text

theorem noSurrogates_padded (width n : Nat) : (Date.padded width n).NoSurrogates := by
  refine Text.noSurrogates_append_iff.mpr ⟨fun c hc => ?_, Json.noSurrogates_map _⟩
  rw [(List.mem_replicate.mp hc).2]
  exact Json.isSurrogate_ofChar '0'

theorem Moment.noSurrogates_offsetText (s : Int) : (offsetText s).NoSurrogates := by
  have sign : Text.NoSurrogates (if s < 0 then ("-" : Text) else ("+" : Text)) := by
    split <;> exact Text.noSurrogates_ofString _
  have part (b : Prop) [Decidable b] (mark : String) (width n : Nat) : Text.NoSurrogates
      (if b then [] else Text.ofString mark ++ Date.padded width n) := by
    split
    · exact Text.noSurrogates_nil
    · exact Text.noSurrogates_append_iff.mpr
        ⟨Text.noSurrogates_ofString _, noSurrogates_padded width n⟩
  simp only [offsetText, smallParts, Text.noSurrogates_append_iff]
  exact ⟨⟨⟨⟨sign, noSurrogates_padded _ _⟩, Text.noSurrogates_ofString _⟩, noSurrogates_padded _ _⟩,
    by simpa using part _ ":" _ _, part _ "." _ _⟩

theorem Moment.noSurrogates_toIso (m : Moment) : m.toIso.NoSurrogates := by
  have fraction : Text.NoSurrogates
      (if m.micro = 0 then [] else Text.ofString "." ++ Date.padded 6 m.micro) := by
    split
    · exact Text.noSurrogates_nil
    · exact Text.noSurrogates_append_iff.mpr
        ⟨Text.noSurrogates_ofString _, noSurrogates_padded _ _⟩
  simp only [toIso, toIsoWith, Date.toIso, Text.noSurrogates_append_iff]
  refine ⟨⟨⟨⟨?_, Text.noSurrogates_ofString _⟩, ?_⟩, fraction⟩, ?_⟩
  · exact Json.noSurrogates_join (Text.noSurrogates_ofString _) (by simp [noSurrogates_padded])
  · exact Json.noSurrogates_join (Text.noSurrogates_ofString _) (by simp [noSurrogates_padded])
  · cases m.offset with
    | none => exact Text.noSurrogates_nil
    | some s => exact noSurrogates_offsetText s

namespace Markdown

/-! ### The lines of the report -/

/-- The line that tells an error, if there is one to tell. -/
def errorLines (r : ScanResult) : List Text :=
  match r.error with
  | some (c :: t) => ["Error: " ++ (c :: t)]
  | _ => []

/-- The line of a count. -/
def countLine (heading : Text) (n : Int) : Text := "- " ++ heading ++ ": " ++ Text.ofInt n

/-- The lines that tell the counts. -/
def countLines (fs : List Finding) : List Text :=
  [[], "## Counts"]
    ++ (Severity.reported.map fun s =>
      countLine (Text.title s.label) (fs.countP fun f => f.severity = s : Nat))
    ++ (FindingKind.all.map fun k =>
      countLine (headingOf k.label) (fs.countP fun f => f.kind = k : Nat))
    ++ [countLine "Total" fs.length, []]

/-- The line of a file. -/
def tallyLine (t : FileTally) : Text :=
  "- " ++ t.name ++ " (" ++ Text.ofInt t.count ++ " findings, max score " ++ Text.ofInt t.score
    ++ ")"

/-- The lines that tell the files, if there are any to tell. -/
def tallyLines (ts : List FileTally) : List Text :=
  if ts.isEmpty then [] else ("## Top Files" : Text) :: ts.map tallyLine ++ [[]]

/-- The lines that tell the findings, if there are any. -/
def findingLines (fs : List Finding) : List Text :=
  if fs.isEmpty then [] else ("## Findings" : Text) :: fs.map findingLine

/-- The lines of the report. -/
def lines (r : ScanResult) (fs : List Finding) : List Text :=
  ["# Scan of " ++ r.repository.toText, [], "Scanned: " ++ r.timestamp.toIso,
      "Status: " ++ r.status.label]
    ++ errorLines r ++ countLines fs ++ tallyLines (Summary.of fs Summary.listedFiles).topFiles
    ++ findingLines fs

theorem fileLine_toValue (t : FileTally) : fileLine t.toValue = .ok (tallyLine t) := rfl

theorem mapM_fileLine (ts : List FileTally) :
    (ts.map FileTally.toValue).mapM fileLine = .ok (ts.map tallyLine) :=
  mapM_of_forall₂ (List.forall₂_map_left_iff.mpr (List.forall₂_map_right_iff.mpr
    (List.forall₂_same.mpr fun t _ => fileLine_toValue t)))

theorem lookup_reportSummary {k : Text} {v : Value} (h : (.text k, v) ∈ reportSummary r fs) :
    Value.lookup (.text k) (reportSummary r fs) = some v :=
  (hasKeys_reportSummary r fs).lookup_of_mem h

theorem errorLines_eq (r : ScanResult) (fs : List Finding) :
    (if (Value.get "error" (reportSummary r fs)).isTruthy then
      ["Error: " ++ (Value.get "error" (reportSummary r fs)).toText] else []) = errorLines r := by
  have absent (h : r.hasError = false) : Value.get "error" (reportSummary r fs) = .null := by
    have keys := hasKeys_reportSummary r fs
    rw [h] at keys
    rw [Value.get, keys.lookup_of_notMem (by decide), Option.getD_none]
  rcases hr : r.error with - | - | ⟨c, t⟩
  · rw [absent (by rw [ScanResult.hasError, hr]; rfl), errorLines, hr]
    rfl
  · rw [absent (by rw [ScanResult.hasError, hr]; rfl), errorLines, hr]
    rfl
  · have told : Value.get "error" (reportSummary r fs) = .text (c :: t) := by
      rw [Value.get, lookup_reportSummary (v := .text (c :: t)), Option.getD_some]
      simp [reportSummary, Summary.toEntries, hr]
    rw [told, errorLines, hr]
    rfl

theorem countAt_label (r : ScanResult) (fs : List Finding) (s : Severity) :
    countAt s.label (reportSummary r fs) =
      Text.ofInt (fs.countP fun f => f.severity = s : Nat) := by
  have counted : (.text s.label, .int (fs.countP fun f => f.severity = s : Nat)) ∈
      reportSummary r fs :=
    List.mem_append_right _ (List.mem_map.mpr
      ⟨_, List.mem_map.mpr ⟨s, s.mem_reported, rfl⟩, rfl⟩)
  rw [countAt, lookup_reportSummary counted]
  rfl

/-- **The report consists of these lines.** -/
theorem render_reportSummary (r : ScanResult) (fs : List Finding) :
    render (reportSummary r fs) fs = .ok (Text.join "\n" (lines r fs)) := by
  have found {k : Text} {v : Value} (h : (.text k, v) ∈ reportSummary r fs) :
      required k (reportSummary r fs) = .ok v := by
    rw [required, lookup_reportSummary h]
  have repository : required "repositoryUrl" (reportSummary r fs) = .ok r.repository :=
    found (by simp [reportSummary, Summary.toEntries, ScanResult.header])
  have timestamp : required "timestamp" (reportSummary r fs) = .ok (.text r.timestamp.toIso) :=
    found (by simp [reportSummary, Summary.toEntries, ScanResult.header])
  have status : required "status" (reportSummary r fs) = .ok (.text r.status.label) :=
    found (by simp [reportSummary, Summary.toEntries, ScanResult.header])
  have byType : required "byType" (reportSummary r fs) = .ok (.map (FindingKind.all.map fun k =>
      (.text k.label, .int (fs.countP fun f => f.kind = k : Nat)))) :=
    found (by simp [reportSummary, Summary.toEntries, Summary.of])
  have total : countAt "total" (reportSummary r fs) = Text.ofInt fs.length := by
    rw [countAt, lookup_reportSummary (v := .int fs.length)
      (by simp [reportSummary, Summary.toEntries, Summary.of])]
    rfl
  have top : Value.get "top_files" (reportSummary r fs) =
      .list ((Summary.of fs Summary.listedFiles).topFiles.map FileTally.toValue) := by
    have listed : (.text "top_files", .list ((Summary.of fs Summary.listedFiles).topFiles.map
        FileTally.toValue)) ∈ reportSummary r fs := by
      simp [reportSummary, Summary.toEntries]
    rw [Value.get, lookup_reportSummary listed, Option.getD_some]
  simp only [render, repository, timestamp, status, byType, total, top, errorLines_eq,
    countAt_label, lines, countLines, countLine, findingLines]
  -- the lines of the files are missing where there are none
  cases (Summary.of fs Summary.listedFiles).topFiles with
  | nil =>
    refine congrArg (fun ls => Except.ok (Text.join "\n" ls)) ?_
    simp only [List.map_map, List.append_assoc]
    rfl
  | cons t ts =>
    show ((t :: ts).map FileTally.toValue).mapM fileLine >>= _ = _
    rw [mapM_fileLine]
    refine congrArg (fun ls => Except.ok (Text.join "\n" ls)) ?_
    have told : tallyLines (t :: ts) =
        ("## Top Files" : Text) :: ((t :: ts).map tallyLine ++ [[]]) := rfl
    simp only [told, List.map_map, List.append_assoc, List.cons_append]
    rfl

/-! ### Lines without surrogates -/

theorem noSurrogates_errorLines_iff (r : ScanResult) :
    (∀ l ∈ errorLines r, l.NoSurrogates) ↔ ∀ t ∈ r.error, t.NoSurrogates := by
  rcases hr : r.error with - | - | ⟨c, t⟩
  · simp [errorLines, hr]
  · simp [errorLines, hr, Text.noSurrogates_nil]
  · simp [errorLines, hr, Text.noSurrogates_append_iff, Text.noSurrogates_ofString]

theorem noSurrogates_countLine {heading : Text} (h : heading.NoSurrogates) (n : Int) :
    (countLine heading n).NoSurrogates := by
  simp only [countLine, Text.noSurrogates_append_iff]
  exact ⟨⟨⟨Text.noSurrogates_ofString _, h⟩, Text.noSurrogates_ofString _⟩,
    Json.noSurrogates_ofInt n⟩

theorem noSurrogates_countLines (fs : List Finding) : ∀ l ∈ countLines fs, l.NoSurrogates := by
  have severity (s : Severity) : (Text.title s.label).NoSurrogates := by
    cases s <;> decide +kernel
  have kind (k : FindingKind) : (headingOf k.label).NoSurrogates := by
    cases k <;> decide +kernel
  simp only [countLines, List.forall_mem_append, List.forall_mem_cons, List.forall_mem_map]
  exact ⟨⟨⟨⟨Text.noSurrogates_nil, Text.noSurrogates_ofString _, nofun⟩,
    fun s _ => noSurrogates_countLine (severity s) _⟩,
    fun k _ => noSurrogates_countLine (kind k) _⟩,
    noSurrogates_countLine (Text.noSurrogates_ofString _) _, Text.noSurrogates_nil, nofun⟩

theorem noSurrogates_tallyLine_iff (t : FileTally) :
    (tallyLine t).NoSurrogates ↔ t.name.NoSurrogates := by
  simp [tallyLine, Text.noSurrogates_append_iff, Text.noSurrogates_ofString,
    Json.noSurrogates_ofInt]

theorem noSurrogates_findingLine_iff (f : Finding) :
    (findingLine f).NoSurrogates ↔ f.file.NoSurrogates ∧ f.description.NoSurrogates := by
  have severity : f.severity.label.NoSurrogates := by
    cases f.severity <;> exact Text.noSurrogates_ofString _
  have kind : f.kind.label.NoSurrogates := by
    cases f.kind <;> exact Text.noSurrogates_ofString _
  have confidence : f.confidence.label.NoSurrogates := by
    cases f.confidence <;> exact Text.noSurrogates_ofString _
  cases hs : f.score <;>
    simp [findingLine, hs, Text.noSurrogates_append_iff, Text.noSurrogates_ofString,
      Json.noSurrogates_ofInt, severity, kind, confidence]

theorem name_of_mem_topFiles {t : FileTally}
    (h : t ∈ (Summary.of fs Summary.listedFiles).topFiles) : ∃ f ∈ fs, f.file = t.name := by
  have tallied := List.mem_of_mem_drop (List.mem_of_mem_take h)
  rw [List.mem_mergeSort, FileTally.foldl_recordAll] at tallied
  exact List.mem_map.mp (FileTally.eq_ofFile_of_mem_tallies tallied).1

end Markdown

/-- What the Markdown report shows of the result and the findings has no surrogates. -/
structure IsEncodable (r : ScanResult) (fs : List Finding) : Prop where
  repository : r.repository.toText.NoSurrogates
  error : ∀ t ∈ r.error, t.NoSurrogates
  files : ∀ f ∈ fs, f.file.NoSurrogates
  descriptions : ∀ f ∈ fs, f.description.NoSurrogates

/-- **The report has surrogates only where what it shows has some.** -/
theorem Markdown.noSurrogates_lines_iff (r : ScanResult) (fs : List Finding) :
    (Text.join "\n" (lines r fs)).NoSurrogates ↔ IsEncodable r fs := by
  have status : r.status.label.NoSurrogates := by
    cases r.status <;> exact Text.noSurrogates_ofString _
  have findings : (∀ l ∈ findingLines fs, l.NoSurrogates) ↔
      ∀ f ∈ fs, f.file.NoSurrogates ∧ f.description.NoSurrogates := by
    cases fs with
    | nil => simp [findingLines]
    | cons f fs =>
      simp [findingLines, noSurrogates_findingLine_iff, Text.noSurrogates_ofString]
  have tallies (h : ∀ f ∈ fs, f.file.NoSurrogates) :
      ∀ l ∈ tallyLines (Summary.of fs Summary.listedFiles).topFiles, l.NoSurrogates := by
    rw [tallyLines]
    split
    · nofun
    · simp only [List.forall_mem_append, List.forall_mem_cons, List.forall_mem_map]
      refine ⟨⟨Text.noSurrogates_ofString _, fun t ht => ?_⟩, Text.noSurrogates_nil, nofun⟩
      obtain ⟨f, hf, name⟩ := name_of_mem_topFiles ht
      exact (noSurrogates_tallyLine_iff t).mpr (name ▸ h f hf)
  rw [Text.noSurrogates_join_iff (Text.noSurrogates_ofString _)]
  simp only [lines, List.forall_mem_append, List.forall_mem_cons, Text.noSurrogates_append_iff,
    Text.noSurrogates_ofString, Text.noSurrogates_nil, noSurrogates_errorLines_iff, findings,
    Moment.noSurrogates_toIso, status, true_and, and_true]
  constructor
  · rintro ⟨⟨⟨⟨⟨repository, -⟩, error⟩, -⟩, -⟩, shown⟩
    exact ⟨repository, error, fun f hf => (shown f hf).1, fun f hf => (shown f hf).2⟩
  · rintro ⟨repository, error, files, descriptions⟩
    exact ⟨⟨⟨⟨⟨repository, nofun⟩, error⟩, noSurrogates_countLines fs⟩, tallies files⟩,
      fun f hf => ⟨files f hf, descriptions f hf⟩⟩

end RepoScan
