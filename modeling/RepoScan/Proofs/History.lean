import RepoScan.History
import RepoScan.Proofs.Diff
import RepoScan.Proofs.Rule

/-!
# The history and the file it leads to

A commit that adds a file shows each line of the file as an added line.  Searching the history for
secrets should find what searching the file finds, and it does as long as the two ways of cutting
texts into lines agree.

* `Diff.read_addition` : what is read of the diff of an added file;
* `History.sightings_scan`, `sightings_scanBody` : what the two searches find, line by line;
* `History.agrees_iff` : they find the same in all files over some characters exactly where none of
  these is a line boundary other than the line feed.
-/

namespace RepoScan

/-! ### The diff of an added file -/

namespace Diff

variable (hash blob path : Text) (count : Option Nat)

/-- The lines that a diff of one commit that adds one file begins with.  The count of its lines is
left out where it is one. -/
def additionHeader : List Text := [
  "commit " ++ hash,
  [],
  "diff --git " ++ ("a/" ++ path ++ " b/" ++ path),
  "new file mode 100644",
  "index 0000000.." ++ blob,
  "--- /dev/null",
  "+++ " ++ ("b/" ++ path),
  hunkHeader ⟨0, some 0⟩ ⟨1, count⟩]

/-- The diff of one commit that adds one file: each line of the file that a line feed ends is marked
as added. -/
def addition (body : Text) : Text :=
  Text.ended (additionHeader hash blob path count ++
    (Text.splitOn '\n' body).dropLast.map addedLine)

/-- The reader after the header. -/
def opened : State where
  done := []
  commit := commitOf hash
  current := some ⟨Path.ofText (State.targetOf ("b/" ++ path)), commitOf hash, []⟩
  next := some 1

theorem run_additionHeader (ls : List Text) :
    State.initial.run (additionHeader hash blob path count ++ ls) = (opened hash path).run ls := by
  have target : Text.strip ("b/" ++ path) ≠ ("/dev/null" : Text) := by
    obtain ⟨t, ht⟩ := Text.strip_cons (c := 'b') (by decide) (('/' : CodePoint) :: path)
    intro h
    cases ht.symm.trans h
  let before : State := ⟨[], commitOf hash, none, none⟩
  have commit : State.initial.step ("commit " ++ hash) = .ok before := State.step_commit _ hash
  have blank : before.step [] = .ok before := State.step_outside isInner_nil rfl
  have file (rest : Text) : before.step ("diff --git " ++ rest) = .ok before :=
    State.step_file before rest
  have mode : before.step "new file mode 100644" = .ok before :=
    State.step_outside ⟨rfl, rfl, rfl⟩ rfl
  have index : before.step ("index 0000000.." ++ blob) = .ok before :=
    State.step_outside ⟨rfl, rfl, rfl⟩ rfl
  have old : before.step "--- /dev/null" = .ok before := State.step_outside ⟨rfl, rfl, rfl⟩ rfl
  have new := State.step_target before target
  have one : 1 < Nat.pow 10 Number.maxDigits := one_lt_pow (by decide)
  -- one header line after the other
  simp only [additionHeader, List.cons_append, List.nil_append, State.run_cons_of_ok commit,
    State.run_cons_of_ok blank, State.run_cons_of_ok (file _), State.run_cons_of_ok mode,
    State.run_cons_of_ok index, State.run_cons_of_ok old, State.run_cons_of_ok new]
  exact State.run_cons_of_ok (State.step_hunk rfl one) ls

variable {hash blob path}

theorem isUnbroken_additionHeader (hh : Text.IsUnbroken hash) (hb : Text.IsUnbroken blob)
    (hp : Text.IsUnbroken path) : ∀ l ∈ additionHeader hash blob path count, Text.IsUnbroken l := by
  have after (s : String) (h : Text.IsUnbroken s) {t : Text} (ht : Text.IsUnbroken t) :
      Text.IsUnbroken (s ++ t) := h.append ht
  have target := after "b/" (by decide) hp
  have both : Text.IsUnbroken ("a/" ++ path ++ " b/" ++ path) :=
    ((after "a/" (by decide) hp).append (by decide : Text.IsUnbroken " b/")).append hp
  simp only [additionHeader, List.forall_mem_cons]
  exact ⟨after "commit " (by decide) hh, by decide, after "diff --git " (by decide) both, by decide,
    after "index 0000000.." (by decide) hb, by decide, after "+++ " (by decide) target,
    isUnbroken_hunkHeader _ _, nofun⟩

/-- The reader comes to the lines of the file, cut wherever a line ends. -/
theorem read_addition (hh : Text.IsUnbroken hash) (hb : Text.IsUnbroken blob)
    (hp : Text.IsUnbroken path) {ls : List Text} (hl : ∀ l ∈ ls, ('\n' : CodePoint) ∉ l) :
    read (addition hash blob path count (Text.ended ls)) =
      ((opened hash path).run (Text.lines (Text.ended (ls.map addedLine)))).map
        fun s => s.flushed.reverse := by
  have records : (Text.splitOn '\n' (Text.ended ls)).dropLast = ls := by
    rw [Text.splitOn_ended hl, List.dropLast_concat]
  have header := isUnbroken_additionHeader count hh hb hp
  rw [addition, records, Text.ended_append, read, Text.lines_ended_append header,
    run_additionHeader]
  cases (opened hash path).run (Text.lines (Text.ended (ls.map addedLine))) <;> rfl

end Diff

/-! ### Sightings -/

/-- What a finding of a secret tells: the line, the rule and the certainty. -/
structure Sighting where
  line : Int
  rule : Option Text
  confidence : Confidence
deriving DecidableEq

/-- What the finding tells; the rule is known by its description. -/
def Finding.sighting (f : Finding) : Sighting := ⟨f.line, Rule.nameIn? f.description, f.confidence⟩

/-- What a match in a line tells. -/
def RuleMatch.sightedAt (m : RuleMatch) (n : Nat) : Sighting := ⟨n, some m.rule.name, m.confidence⟩

/-- The secret in the line with a number, if there is one. -/
def sightingsIn (line : Text) (n : Nat) : List Sighting :=
  (secretIn? line Rule.table).toList.map fun m => m.sightedAt n

/-- The secrets in lines that are numbered from `n` on. -/
def sightingsFrom (n : Nat) (ls : List Text) : List Sighting :=
  (ls.zipIdx n).flatMap fun p => sightingsIn p.1 p.2

theorem sightingsFrom_cons (n : Nat) (l : Text) (ls : List Text) :
    sightingsFrom n (l :: ls) = sightingsIn l n ++ sightingsFrom (n + 1) ls := rfl

theorem sightingsIn_nil (n : Nat) : sightingsIn [] n = [] := by
  rw [sightingsIn, Rule.secretIn?_nil]
  rfl

theorem sightingsFrom_append_nil (n : Nat) (ls : List Text) :
    sightingsFrom n (ls ++ [[]]) = sightingsFrom n ls := by
  rw [sightingsFrom, List.zipIdx_append, List.flatMap_append, List.zipIdx_singleton,
    List.flatMap_singleton, sightingsIn_nil, List.append_nil]
  rfl

namespace History

theorem sighting_findingIn? (p : Patch) (added : AddedLine) :
    (findingIn? p added).toList.map Finding.sighting = sightingsIn added.content added.number := by
  rw [findingIn?, Rule.firstMatch?_secretTable, sightingsIn]
  cases hm : secretIn? added.content Rule.table with
  | none => rfl
  | some m =>
    have hr := rule_mem_of_secretIn? _ _ hm
    simp only [Option.map_some, Option.toList_some, List.map_singleton, Finding.sighting,
      List.append_assoc, Rule.nameIn?_append hr, RuleMatch.sightedAt]

theorem sightings_filterMap (p : Patch) (added : List AddedLine) :
    (added.filterMap (findingIn? p)).map Finding.sighting =
      added.flatMap fun l => sightingsIn l.content l.number := by
  induction added with
  | nil => rfl
  | cons l added ih =>
    rw [List.flatMap_cons, ← ih, ← sighting_findingIn? p, List.filterMap_cons]
    cases findingIn? p l <;> rfl

/-- **What the search of the history finds**, patch by patch. -/
theorem sightings_scan (ps : List Patch) :
    (scan ps).map Finding.sighting =
      ps.flatMap fun p => p.lines.flatMap fun l => sightingsIn l.content l.number := by
  rw [scan, List.map_flatMap]
  exact congrArg (List.flatMap · ps) (funext fun p => sightings_filterMap p p.lines)

theorem sightings_numbered (n : Nat) (ls : List Text) :
    ((Diff.numbered n ls).flatMap fun l => sightingsIn l.content l.number) =
      sightingsFrom n ls := by
  rw [Diff.numbered, List.flatMap_map]
  rfl

end History

theorem sighting_toFinding {m : RuleMatch} (hm : m.rule ∈ Rule.table) (path code : Text) (n : Nat) :
    (m.toFinding path n code).sighting = m.sightedAt n := by
  have named := Rule.nameIn?_append hm []
  rw [List.append_nil] at named
  simp only [Finding.sighting, RuleMatch.toFinding, RuleMatch.sightedAt, named]

theorem sightings_lineFindings {path : Text}
    (hpath : ∃ k ∈ Rule.secretTargets, k ∈ FileKind.ofPath path) (ls : List Text) (i : Nat) :
    ((lineFindings path (Rule.forKinds (FileKind.ofPath path)) ls i).filter
      fun f => f.kind == .secret).map Finding.sighting = sightingsIn (ls.getD i []) (i + 1) := by
  have mem {m : RuleMatch}
      (hm : m ∈ matchLine (ls.getD i []) (Rule.forKinds (FileKind.ofPath path))) :
      m.rule ∈ Rule.table :=
    (List.mem_filter.mp
      ((rules_matchLineFrom_sublist _ _ false).subset (List.mem_map_of_mem hm))).1
  -- the kind of a finding tells whether its rule is one for secrets
  have secrets : ((matchLine (ls.getD i []) (Rule.forKinds (FileKind.ofPath path))).filter
      fun m => m.rule.kind == .secret) =
      (matchLine (ls.getD i []) (Rule.forKinds (FileKind.ofPath path))).filter
        fun m => m.rule.isSecret :=
    List.filter_congr fun m hm => Rule.kind_eq_secret m.rule (mem hm)
  rw [sightingsIn, ← Rule.secrets_matchLine_forKinds hpath, lineFindings, List.filter_map,
    List.map_map, ← secrets]
  exact List.map_congr_left fun m hm =>
    sighting_toFinding (mem (List.mem_filter.mp hm).1) path _ (i + 1)

/-- **What the search of a file finds**, line by line. -/
theorem sightings_scanBody {body path : Text} (hbody : isScannable body = true)
    (hpath : ∃ k ∈ Rule.secretTargets, k ∈ FileKind.ofPath path) :
    ((scanBody body path).filter fun f => f.kind == .secret).map Finding.sighting =
      sightingsFrom 1 (bodyLines body) := by
  -- there are rules for the file
  have first : Rule.awsAccessKey ∈ Rule.forKinds (FileKind.ofPath path) := by
    obtain ⟨k, hk, hkinds⟩ := hpath
    refine List.mem_filter.mpr ⟨List.mem_cons_of_mem _ List.mem_cons_self, ?_⟩
    exact List.any_eq_true.mpr ⟨k, hk, List.contains_iff_mem.mpr hkinds⟩
  have numbers (ls : List Text) :
      ls.zipIdx 1 = (List.range ls.length).map fun i => (ls.getD i [], i + 1) := by
    refine List.ext_getElem (by simp) fun i h _ => ?_
    have hi : i < ls.length := by simpa using h
    simp [hi, Nat.add_comm]
  rw [scanBody_eq hbody first, scanLines_eq, List.filter_flatMap, List.map_flatMap]
  simp only [sightings_lineFindings hpath]
  rw [sightingsFrom, numbers, List.flatMap_map]

/-! ### Agreement -/

namespace History

/-- The file may be compared with its history: it is searched at all, its last line is ended, and
none of its lines is taken for a header once it is marked as added. -/
structure IsComparable (body : Text) : Prop where
  scannable : isScannable body = true
  ended : body.getLast? = some ('\n' : CodePoint)
  unmarked : ∀ l ∈ Text.splitOn '\n' body, Text.startsWith l "++ " = false

/-- The search of the history of a commit that adds a file tells what that of the file does. -/
def Agrees (hash blob path : Text) (count : Option Nat) (body : Text) : Prop :=
  ∃ ps, Diff.read (Diff.addition hash blob path count body) = .ok ps ∧
    (scan ps).map Finding.sighting =
      ((scanBody body path).filter fun f => f.kind == .secret).map Finding.sighting

theorem bodyLines_ended {ls : List Text} (h : ∀ l ∈ ls, ('\n' : CodePoint) ∉ l) :
    bodyLines (Text.ended ls) = ls.map Text.withoutReturns ++ [[]] := by
  rw [bodyLines, Text.splitOn_ended h, List.map_append]
  rfl

/-- Marked lines are cut as they were put together, but for carriage returns at their ends. -/
theorem lines_ended_addedLine {ls : List Text}
    (h : ∀ l ∈ ls, Text.IsLineOver (fun c => c.isLineBoundary = false) l) :
    Text.lines (Text.ended (ls.map Diff.addedLine)) =
      (ls.map Text.withoutReturns).map Diff.addedLine := by
  induction ls with
  | nil => exact Text.lines_nil
  | cons l ls ih =>
    obtain ⟨hl, hls⟩ := List.forall_mem_cons.mp h
    have mark : Text.IsUnbroken [('+' : CodePoint)] := by decide
    rw [List.map_cons, Text.ended_cons, List.map_cons, List.map_cons, ← ih hls]
    exact Text.lines_append_line hl mark _

theorem startsWith_withoutReturns {l p : Text} (h : Text.startsWith l p = false) :
    Text.startsWith (Text.withoutReturns l) p = false := by
  refine Bool.eq_false_iff.mpr fun ht => Bool.eq_false_iff.mp h ?_
  exact List.isPrefixOf_iff_prefix.mpr
    ((List.isPrefixOf_iff_prefix.mp ht).trans (Text.withoutReturns_prefix l))

theorem read_addition_of_lines {hash blob path : Text} (count : Option Nat)
    (hh : Text.IsUnbroken hash) (hb : Text.IsUnbroken blob) (hp : Text.IsUnbroken path)
    {ls : List Text} (hne : ls ≠ []) (hl : ∀ l ∈ ls, ('\n' : CodePoint) ∉ l)
    (hu : ∀ l ∈ ls, Text.startsWith l "++ " = false)
    (hc : ∀ l ∈ ls, Text.IsLineOver (fun c => c.isLineBoundary = false) l) :
    Diff.read (Diff.addition hash blob path count (Text.ended ls)) =
      .ok [⟨Path.ofText (Diff.State.targetOf ("b/" ++ path)),
        Diff.numbered 1 (ls.map Text.withoutReturns), Diff.commitOf hash⟩] := by
  have unmarked : ∀ l ∈ ls.map Text.withoutReturns, Text.startsWith l "++ " = false := by
    intro l hmem
    obtain ⟨l', hl', rfl⟩ := List.mem_map.mp hmem
    exact startsWith_withoutReturns (hu l' hl')
  rw [Diff.read_addition count hh hb hp hl, lines_ended_addedLine hc,
    Diff.State.run_added unmarked rfl rfl]
  have some : (Diff.numbered 1 (ls.map Text.withoutReturns)).reverse ≠ [] := by
    rw [Ne, List.reverse_eq_nil_iff, Diff.numbered, List.map_eq_nil_iff, List.zipIdx_eq_nil_iff,
      List.map_eq_nil_iff]
    exact hne
  rw [Except.map, Diff.State.flushed]
  simp only [Diff.opened, Option.bind_some, Diff.Section.patch?, List.append_nil,
    List.isEmpty_eq_false_iff.mpr some, List.reverse_reverse]
  rfl

/-- Where lines end nowhere but at their ends, the searches agree. -/
theorem agrees_of_lines {hash blob path body : Text} (count : Option Nat)
    (hh : Text.IsUnbroken hash) (hb : Text.IsUnbroken blob) (hp : Text.IsUnbroken path)
    (hpath : ∃ k ∈ Rule.secretTargets, k ∈ FileKind.ofPath path) (hbody : IsComparable body)
    (hc : ∀ l ∈ Text.splitOn '\n' body, Text.IsLineOver (fun c => c.isLineBoundary = false) l) :
    Agrees hash blob path count body := by
  obtain ⟨ls, hl, rfl⟩ := Text.exists_ended hbody.ended
  have split := Text.splitOn_ended hl
  have hne : ls ≠ [] := by
    rintro rfl
    cases hbody.ended
  have mem {l : Text} (h : l ∈ ls) : l ∈ Text.splitOn '\n' (Text.ended ls) :=
    split ▸ List.mem_append_left _ h
  refine ⟨_, read_addition_of_lines count hh hb hp hne hl (fun l h => hbody.unmarked l (mem h))
    fun l h => hc l (mem h), ?_⟩
  rw [sightings_scanBody hbody.scannable hpath, bodyLines_ended hl, sightingsFrom_append_nil,
    sightings_scan, List.flatMap_singleton]
  exact sightings_numbered 1 _

/-! ### Disagreement -/

/-- The identifier of an access key. -/
def keyId : Text := "AKIA0123456789ABCDEF"

/-- The line boundaries other than the line feed. -/
def otherBoundaries : List CodePoint :=
  [11, 12, 13, 0x1C, 0x1D, 0x1E, 0x85, 0x2028, 0x2029].map CodePoint.ofNat

theorem mem_otherBoundaries {b : CodePoint} (h : b.isLineBoundary = true)
    (hn : b ≠ ('\n' : CodePoint)) : b ∈ otherBoundaries := by
  obtain ⟨n, hlt⟩ := b
  have feed : n ≠ 10 := by
    rintro rfl
    exact hn rfl
  simp only [CodePoint.isLineBoundary, Bool.or_eq_true, Bool.and_eq_true, decide_eq_true_eq,
    beq_iff_eq] at h
  have cases : n ∈ [11, 12, 13, 0x1C, 0x1D, 0x1E, 0x85, 0x2028, 0x2029] := by
    simp only [List.mem_cons, List.not_mem_nil, or_false]
    omega
  exact List.mem_map.mpr ⟨n, cases, dif_pos hlt⟩

theorem isLineBoundary_of_keyIdChar {c : CodePoint} (h : Rule.keyIdChar c = true) :
    c.isLineBoundary = false := by
  refine Bool.eq_false_iff.mpr fun hb => ?_
  simp only [Rule.keyIdChar, CodePoint.isAsciiDigit, CodePoint.isAsciiUpper, CodePoint.between,
    Char.reduceToNat, Bool.or_eq_true, Bool.and_eq_true, decide_eq_true_eq] at h
  simp only [CodePoint.isLineBoundary, Bool.or_eq_true, Bool.and_eq_true, decide_eq_true_eq,
    beq_iff_eq] at hb
  omega

theorem secretIn?_keyId : ∀ b ∈ otherBoundaries,
    (secretIn? (b :: keyId) Rule.table).isSome = true := by decide +kernel

/-- A file of one line, in which the boundary is followed by the identifier of an access key. -/
def brokenFile (b : CodePoint) : Text := Text.ended [b :: keyId]

theorem isScannable_brokenFile : ∀ b ∈ otherBoundaries, isScannable (brokenFile b) = true := by
  decide +kernel

section BrokenFile

variable {b : CodePoint} (hb : b ∈ otherBoundaries)

include hb

theorem isLineBoundary_of_mem : b.isLineBoundary = true :=
  (by decide : ∀ b ∈ otherBoundaries, b.isLineBoundary = true) b hb

theorem notMem_brokenLine : ∀ l ∈ [b :: keyId], ('\n' : CodePoint) ∉ l :=
  (by decide : ∀ b ∈ otherBoundaries, ∀ l ∈ [b :: keyId], ('\n' : CodePoint) ∉ l) b hb

theorem splitOn_brokenFile : Text.splitOn '\n' (brokenFile b) = [b :: keyId, []] :=
  Text.splitOn_ended (notMem_brokenLine hb)

theorem isComparable_brokenFile : IsComparable (brokenFile b) where
  scannable := isScannable_brokenFile b hb
  ended := rfl
  unmarked := by
    have mark : ('+' : CodePoint) ≠ b := by
      rintro rfl
      cases isLineBoundary_of_mem hb
    rw [splitOn_brokenFile hb]
    exact List.forall_mem_cons.mpr ⟨Text.startsWith_of_ne mark _ _, by decide⟩

theorem lines_addedLine_brokenFile :
    Text.lines (Text.ended ([b :: keyId].map Diff.addedLine)) = [Diff.addedLine [], keyId] := by
  have mark : Text.IsUnbroken (Diff.addedLine []) := by decide
  have rest : Text.lines (keyId ++ [('\n' : CodePoint)]) = [keyId] := by
    rw [Text.lines_append_feed (by decide), Text.lines_nil]
  rw [List.map_singleton, Text.ended_cons, Text.ended_nil, ← rest]
  exact Text.lines_append_boundary mark (isLineBoundary_of_mem hb) _
    fun _ => ⟨_, _, rfl, by decide⟩

theorem sightings_brokenFile {path : Text}
    (hpath : ∃ k ∈ Rule.secretTargets, k ∈ FileKind.ofPath path) :
    ((scanBody (brokenFile b) path).filter fun f => f.kind == .secret).map Finding.sighting ≠
      [] := by
  have line : Text.withoutReturns (b :: keyId) = b :: keyId := rfl
  obtain ⟨m, hm⟩ := Option.isSome_iff_exists.mp (secretIn?_keyId b hb)
  rw [sightings_scanBody (isScannable_brokenFile b hb) hpath, brokenFile,
    bodyLines_ended (notMem_brokenLine hb), sightingsFrom_append_nil, List.map_singleton, line,
    sightingsFrom_cons, sightingsIn, hm]
  exact List.cons_ne_nil _ _

/-- The search of the history finds nothing. -/
theorem not_agrees_brokenFile {hash blob path : Text} (count : Option Nat)
    (hh : Text.IsUnbroken hash) (hl : Text.IsUnbroken blob) (hp : Text.IsUnbroken path)
    (hpath : ∃ k ∈ Rule.secretTargets, k ∈ FileKind.ofPath path) :
    ¬ Agrees hash blob path count (brokenFile b) := by
  rintro ⟨ps, hread, hagree⟩
  refine sightings_brokenFile hb hpath (hagree.symm.trans ?_)
  rw [brokenFile, Diff.read_addition count hh hl hp (notMem_brokenLine hb),
    lines_addedLine_brokenFile hb,
    Diff.State.run_cons_of_ok (Diff.State.step_added (l := []) rfl rfl rfl)] at hread
  have context (s : Diff.State) {file : Diff.Section} (hc : s.current = some file)
      (hn : s.next = some 2) : s.run [keyId] = .ok { s with next := some 3 } :=
    Diff.State.run_cons_of_ok (Diff.State.step_context (by decide) hc hn) []
  -- the only added line is the empty one before the boundary
  rw [context _ rfl rfl] at hread
  obtain rfl := Except.ok.inj hread
  rw [sightings_scan]
  show sightingsIn [] 1 ++ [] ++ [] = []
  rw [sightingsIn_nil]
  rfl

end BrokenFile

/-- **The searches agree on all files over some characters exactly where none of these is a line
boundary** other than the line feed.  A carriage return may stand before a line feed in any case. -/
theorem agrees_iff {hash blob path : Text} {count : Option Nat} (hh : Text.IsUnbroken hash)
    (hb : Text.IsUnbroken blob) (hp : Text.IsUnbroken path)
    (hpath : ∃ k ∈ Rule.secretTargets, k ∈ FileKind.ofPath path) {S : CodePoint → Prop}
    (hS : ∀ c, Rule.keyIdChar c = true → S c) :
    (∀ body, IsComparable body → (∀ l ∈ Text.splitOn '\n' body, Text.IsLineOver S l) →
      Agrees hash blob path count body) ↔
    ∀ c, S c → c.isLineBoundary = true → c = ('\n' : CodePoint) := by
  constructor
  · intro h c hc hbound
    by_cases hn : c = ('\n' : CodePoint)
    · exact hn
    -- the boundary breaks a file that the characters are enough for
    have hmem := mem_otherBoundaries hbound hn
    have key : ∀ d ∈ keyId, Rule.keyIdChar d = true := by decide
    have spread : ∀ l ∈ Text.splitOn '\n' (brokenFile c), Text.IsLineOver S l := by
      rw [splitOn_brokenFile hmem]
      refine List.forall_mem_cons.mpr ⟨⟨_, ?_, Or.inl rfl⟩, List.forall_mem_singleton.mpr ?_⟩
      · exact List.forall_mem_cons.mpr ⟨hc, fun d hd => hS d (key d hd)⟩
      · exact ⟨[], nofun, Or.inl rfl⟩
    exact absurd (h _ (isComparable_brokenFile hmem) spread)
      (not_agrees_brokenFile hmem count hh hb hp hpath)
  · intro h body hbody hover
    refine agrees_of_lines count hh hb hp hpath hbody fun l hl => ?_
    -- a line holds no line feed, so it holds no boundary but the return at its end
    obtain ⟨b, hchars, hcut⟩ := hover l hl
    refine ⟨b, fun c hc => Bool.eq_false_iff.mpr fun hbound => ?_, hcut⟩
    have hcl : c ∈ l := by
      rcases hcut with rfl | rfl
      · exact hc
      · exact List.mem_append_left _ hc
    exact Text.notMem_of_mem_splitOn hl (h c (hchars c hc) hbound ▸ hcl)

/-- The searches agree on an access key in the second line, whose first line a carriage return and a
line feed end. -/
theorem agrees_accessKey :
    Agrees "1f0c" "9a2b" "src/app.py" (some 2) "# keys\r\nkey = 'AKIA0123456789ABCDEF'\n" := by
  have kinds : ∃ k ∈ Rule.secretTargets, k ∈ FileKind.ofPath "src/app.py" := by decide +kernel
  have lines : Text.splitOn '\n' "# keys\r\nkey = 'AKIA0123456789ABCDEF'\n" =
      (["# keys\r", "key = 'AKIA0123456789ABCDEF'", []] : List Text) := by decide +kernel
  have unmarked : ∀ l ∈ Text.splitOn '\n' "# keys\r\nkey = 'AKIA0123456789ABCDEF'\n",
      Text.startsWith l "++ " = false := by
    rw [lines]
    decide +kernel
  have comparable : IsComparable "# keys\r\nkey = 'AKIA0123456789ABCDEF'\n" :=
    ⟨by decide +kernel, by decide +kernel, unmarked⟩
  refine (agrees_iff (by decide) (by decide) (by decide) kinds fun c =>
    isLineBoundary_of_keyIdChar).mpr ?_ _ comparable ?_
  · intro c hc hbound
    rw [hc] at hbound
    cases hbound
  · rw [lines]
    refine List.forall_mem_cons.mpr ⟨⟨"# keys", by decide, Or.inr rfl⟩, ?_⟩
    refine List.forall_mem_cons.mpr ⟨⟨_, by decide, Or.inl rfl⟩, ?_⟩
    exact List.forall_mem_singleton.mpr ⟨[], nofun, Or.inl rfl⟩

/-- A form feed hides the identifier from the search of the history. -/
theorem not_agrees_formFeed :
    IsComparable (brokenFile '\x0C') ∧
      ¬ Agrees "1f0c" "9a2b" "src/app.py" none (brokenFile '\x0C') := by
  have other : ('\x0C' : CodePoint) ∈ otherBoundaries := by decide
  exact ⟨isComparable_brokenFile other,
    not_agrees_brokenFile other none (by decide) (by decide) (by decide) (by decide +kernel)⟩

end History

end RepoScan
