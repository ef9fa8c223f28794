import RepoScan.Proofs.Diff
import RepoScan.Proofs.Path
import RepoScan.Proofs.Text.Space

/-!
# Logs

A log shows commits with what they change: files, in them hunks, in these lines.  Here are the parts
of a log, the text of each, and what each of them adds.

* `Diff.Commit`, `FileDiff`, `Hunk`, `HunkLine` : the parts of a log, and `Diff.logText` its text;
* `Hunk.added`, `Commit.patches` : the added lines with their numbers, by file and commit;
* `Hunk.IsPlain`, `FileDiff.IsPlain`, `Commit.IsPlain` : the text of a part can be told from others;
  then `Commit.IsPlain.isUnbroken`, its lines are cut where they were put together.

Only the name of a file that is there is read, so it is a path.  The other names of a file stand
here as they are written, in quotes where they have to be.
-/

namespace RepoScan.Diff

/-! ### Lines and hunks -/

/-- A line of a hunk. -/
inductive HunkLine where
  | removed (content : Text)
  | added (content : Text)
  | context (content : Text)
  /-- The remark that the line before it, the last one of its file, is not ended. -/
  | unended
deriving DecidableEq

namespace HunkLine

/-- The line with its mark. -/
def toText : HunkLine → Text
  | removed l => ('-' : CodePoint) :: l
  | added l => addedLine l
  | context l => (' ' : CodePoint) :: l
  | unended => "\\ No newline at end of file"

/-- What an added line holds. -/
def added? : HunkLine → Option Text
  | added l => some l
  | _ => none

/-- The line is one of the new version. -/
def isNew : HunkLine → Bool
  | added _ | context _ => true
  | removed _ | unended => false

/-- The reader takes the line for one of the new version. -/
def isCounted : HunkLine → Bool
  | removed _ => false
  | _ => true

/-- No boundary is within the line, and with its mark it is not taken for the name of a file. -/
def IsPlain : HunkLine → Prop
  | removed l | context l => Text.IsUnbroken l
  | added l => Text.IsUnbroken l ∧ Text.startsWith l "++ " = false
  | unended => True

instance (l : HunkLine) : Decidable l.IsPlain :=
  match l with
  | removed l | context l => inferInstanceAs (Decidable (Text.IsUnbroken l))
  | added l => inferInstanceAs (Decidable (Text.IsUnbroken l ∧ _))
  | unended => inferInstanceAs (Decidable True)

end HunkLine

/-- Lines in a row that changed, with those around them. -/
structure Hunk where
  /-- The lines in the old version. -/
  old : Span
  /-- The lines in the new version. -/
  new : Span
  /-- What follows on the line of the header. -/
  heading : Text
  lines : List HunkLine

/-- The added ones of some lines.  The number of each is `n` and one more for every line before it
that `counts`. -/
def addedFrom (counts : HunkLine → Bool) (n : Nat) (ls : List HunkLine) : List AddedLine :=
  ls.zipIdx.filterMap fun p => p.1.added?.map fun l => ⟨n + (ls.take p.2).countP counts, l⟩

namespace Hunk

/-- The header and the lines. -/
def toLines (h : Hunk) : List Text :=
  (hunkHeader h.old h.new ++ h.heading) :: h.lines.map HunkLine.toText

/-- The added lines, numbered by some lines before them. -/
def addedBy (counts : HunkLine → Bool) (h : Hunk) : List AddedLine :=
  addedFrom counts h.new.start h.lines

/-- The added lines with their numbers in the new version. -/
def added (h : Hunk) : List AddedLine := h.addedBy HunkLine.isNew

/-- The number in the header can be read, and no line is broken. -/
structure IsPlain (h : Hunk) : Prop where
  start : h.new.start < Nat.pow 10 Number.maxDigits
  heading : Text.IsUnbroken h.heading
  lines : ∀ l ∈ h.lines, l.IsPlain

instance (h : Hunk) : Decidable h.IsPlain :=
  decidable_of_iff (h.new.start < Nat.pow 10 Number.maxDigits ∧ Text.IsUnbroken h.heading ∧
      ∀ l ∈ h.lines, l.IsPlain)
    ⟨fun ⟨start, heading, lines⟩ => ⟨start, heading, lines⟩,
      fun ⟨start, heading, lines⟩ => ⟨start, heading, lines⟩⟩

/-- Every line of the hunk is one of the file. -/
def IsUnremarked (h : Hunk) : Prop := HunkLine.unended ∉ h.lines

instance (h : Hunk) : Decidable h.IsUnremarked := inferInstanceAs (Decidable (_ ∉ h.lines))

end Hunk

/-! ### Files -/

/-- What the lines between the names of a file and its hunks tell. -/
inductive Keyword where
  | oldMode
  | newMode
  | deletedFileMode
  | newFileMode
  | similarityIndex
  | dissimilarityIndex
  | renameFrom
  | renameTo
  | copyFrom
  | copyTo
  | index

/-- The keyword on its line. -/
def Keyword.toText : Keyword → Text
  | oldMode => "old mode "
  | newMode => "new mode "
  | deletedFileMode => "deleted file mode "
  | newFileMode => "new file mode "
  | similarityIndex => "similarity index "
  | dissimilarityIndex => "dissimilarity index "
  | renameFrom => "rename from "
  | renameTo => "rename to "
  | copyFrom => "copy from "
  | copyTo => "copy to "
  | index => "index "

/-- A keyword with its value. -/
structure Attribute where
  keyword : Keyword
  value : Text

/-- The line of an attribute. -/
def Attribute.toText (a : Attribute) : Text := a.keyword.toText ++ a.value

/-- What is shown of the content of a file. -/
inductive Change where
  /-- The file is not a text; only its two names are shown. -/
  | binary (names : Text)
  /-- The file is gone; `old` is the name that it had. -/
  | deleted (old : Text) (hunks : List Hunk)
  /-- The file is there.  A modified or renamed one had the name `old`; for an added one this is
  `/dev/null`. -/
  | kept (old : Text) (path : Path) (hunks : List Hunk)

/-- A name on a line of its own.  Where it holds blanks, a tabulator shows its end. -/
def label (name : Text) : Text := if name.contains ' ' then name ++ "\t" else name

/-- The hunks of a file below its old and its new name.  Without hunks the names are left out. -/
def hunkLines (old new : Text) : List Hunk → List Text
  | [] => []
  | h :: hs => ("--- " ++ label old) :: ("+++ " ++ label new) :: (h :: hs).flatMap Hunk.toLines

namespace Change

/-- The lines that show the change. -/
def toLines : Change → List Text
  | binary names => ["Binary files " ++ (names ++ " differ")]
  | deleted old hunks => hunkLines old "/dev/null" hunks
  | kept old path hunks => hunkLines old ("b/" ++ path.toText) hunks

/-- The hunks of the file. -/
def hunks : Change → List Hunk
  | binary _ => []
  | deleted _ hunks | kept _ _ hunks => hunks

/-- The lines added to the file, unless there are none or it is gone. -/
def patch? (commit : Option Text) (added : Hunk → List AddedLine) : Change → Option Patch
  | binary _ | deleted .. => none
  | kept _ path hunks =>
    let lines := hunks.flatMap added
    if lines.isEmpty then none else some ⟨path, lines, commit⟩

end Change

/-- A path that stands in a log as it is: relative and in normal form, without boundaries in it and
white space around it. -/
structure IsPlainPath (p : Path) : Prop where
  relative : p.IsRelative
  unbroken : Text.IsUnbroken p.toText
  tight : Text.strip p.toText = p.toText

instance (p : Path) : Decidable (IsPlainPath p) :=
  decidable_of_iff (p.IsRelative ∧ Text.IsUnbroken p.toText ∧ Text.strip p.toText = p.toText)
    ⟨fun ⟨relative, unbroken, tight⟩ => ⟨relative, unbroken, tight⟩,
      fun ⟨relative, unbroken, tight⟩ => ⟨relative, unbroken, tight⟩⟩

/-- The lines of the change can be told from others. -/
def Change.IsPlain : Change → Prop
  | binary names => Text.IsUnbroken names
  | deleted old hunks => Text.IsUnbroken old ∧ ∀ h ∈ hunks, h.IsPlain
  | kept old path hunks => Text.IsUnbroken old ∧ IsPlainPath path ∧ ∀ h ∈ hunks, h.IsPlain

instance (c : Change) : Decidable c.IsPlain :=
  match c with
  | .binary names => inferInstanceAs (Decidable (Text.IsUnbroken names))
  | .deleted old hunks =>
    inferInstanceAs (Decidable (Text.IsUnbroken old ∧ ∀ h ∈ hunks, h.IsPlain))
  | .kept old path hunks =>
    inferInstanceAs (Decidable (Text.IsUnbroken old ∧ IsPlainPath path ∧ ∀ h ∈ hunks, h.IsPlain))

/-- What a commit changes in a file. -/
structure FileDiff where
  /-- The two names of the file, in quotes where they have to be. -/
  names : Text
  attributes : List Attribute
  change : Change

namespace FileDiff

/-- The lines that show the file. -/
def toLines (f : FileDiff) : List Text :=
  ("diff --git " ++ f.names) :: (f.attributes.map Attribute.toText ++ f.change.toLines)

/-- The lines of the file can be told from others. -/
structure IsPlain (f : FileDiff) : Prop where
  names : Text.IsUnbroken f.names
  attributes : ∀ a ∈ f.attributes, Text.IsUnbroken a.value
  change : f.change.IsPlain

instance (f : FileDiff) : Decidable f.IsPlain :=
  decidable_of_iff (Text.IsUnbroken f.names ∧ (∀ a ∈ f.attributes, Text.IsUnbroken a.value) ∧
      f.change.IsPlain)
    ⟨fun ⟨names, attributes, change⟩ => ⟨names, attributes, change⟩,
      fun ⟨names, attributes, change⟩ => ⟨names, attributes, change⟩⟩

end FileDiff

/-! ### Commits -/

/-- A commit and the files that it changes. -/
structure Commit where
  hash : Text
  files : List FileDiff

namespace Commit

/-- The lines that show the commit: its name and, after a blank line, the files. -/
def toLines (c : Commit) : List Text :=
  ("commit " ++ c.hash) :: match c.files with
    | [] => []
    | f :: fs => [] :: (f :: fs).flatMap FileDiff.toLines

/-- The commit has a name, and its lines can be told from others. -/
structure IsPlain (c : Commit) : Prop where
  named : c.hash ≠ []
  hash : ∀ d ∈ c.hash, d.isSpace = false
  files : ∀ f ∈ c.files, f.IsPlain

instance (c : Commit) : Decidable c.IsPlain :=
  decidable_of_iff (c.hash ≠ [] ∧ (∀ d ∈ c.hash, d.isSpace = false) ∧ ∀ f ∈ c.files, f.IsPlain)
    ⟨fun ⟨named, hash, files⟩ => ⟨named, hash, files⟩,
      fun ⟨named, hash, files⟩ => ⟨named, hash, files⟩⟩

/-- Every line of the commit is one of a file. -/
def IsUnremarked (c : Commit) : Prop := ∀ f ∈ c.files, ∀ h ∈ f.change.hunks, h.IsUnremarked

instance (c : Commit) : Decidable c.IsUnremarked :=
  inferInstanceAs (Decidable (∀ f ∈ c.files, ∀ h ∈ f.change.hunks, h.IsUnremarked))

/-- The lines that the commit adds, file by file. -/
def patches (added : Hunk → List AddedLine) (c : Commit) : List Patch :=
  c.files.filterMap fun f => f.change.patch? (some c.hash) added

end Commit

/-- The text of a log. -/
def logText (cs : List Commit) : Text := Text.ended (cs.flatMap Commit.toLines)

/-! ### Unbroken lines -/

theorem isUnbroken_literal_append {s : String} (hs : Text.IsUnbroken s) {t : Text}
    (ht : Text.IsUnbroken t) : Text.IsUnbroken (s ++ t) := hs.append ht

theorem isUnbroken_label {name : Text} (h : Text.IsUnbroken name) :
    Text.IsUnbroken (label name) := by
  unfold label
  split
  · exact h.append (by decide)
  · exact h

theorem isUnbroken_hunkLine {l : HunkLine} (h : l.IsPlain) : Text.IsUnbroken l.toText := by
  have marked {c : CodePoint} (hc : c.isLineBoundary = false) {t : Text}
      (ht : Text.IsUnbroken t) : Text.IsUnbroken (c :: t) := List.forall_mem_cons.mpr ⟨hc, ht⟩
  cases l with
  | removed t => exact marked (by decide) h
  | added t => exact marked (by decide) h.1
  | context t => exact marked (by decide) h
  | unended => exact (by decide : Text.IsUnbroken "\\ No newline at end of file")

theorem isUnbroken_of_mem_hunks {hs : List Hunk} (hh : ∀ h ∈ hs, h.IsPlain) :
    ∀ l ∈ hs.flatMap Hunk.toLines, Text.IsUnbroken l := by
  intro line hline
  obtain ⟨h, hmem, hline⟩ := List.mem_flatMap.mp hline
  rcases List.mem_cons.mp hline with rfl | hline
  · exact (isUnbroken_hunkHeader h.old h.new).append (hh h hmem).heading
  · obtain ⟨l, hl, rfl⟩ := List.mem_map.mp hline
    exact isUnbroken_hunkLine ((hh h hmem).lines l hl)

theorem isUnbroken_hunkLines {old new : Text} (ho : Text.IsUnbroken old)
    (hn : Text.IsUnbroken new) {hs : List Hunk} (hh : ∀ h ∈ hs, h.IsPlain) :
    ∀ l ∈ hunkLines old new hs, Text.IsUnbroken l := by
  cases hs with
  | nil => exact nofun
  | cons h hs =>
    refine List.forall_mem_cons.mpr ⟨?_, List.forall_mem_cons.mpr ⟨?_, isUnbroken_of_mem_hunks hh⟩⟩
    · exact isUnbroken_literal_append (s := "--- ") (by decide) (isUnbroken_label ho)
    · exact isUnbroken_literal_append (s := "+++ ") (by decide) (isUnbroken_label hn)

theorem FileDiff.IsPlain.isUnbroken {f : FileDiff} (hf : f.IsPlain) :
    ∀ l ∈ f.toLines, Text.IsUnbroken l := by
  obtain ⟨names, attributes, change⟩ := f
  refine List.forall_mem_cons.mpr ⟨?_, List.forall_mem_append.mpr ⟨?_, ?_⟩⟩
  · exact isUnbroken_literal_append (s := "diff --git ") (by decide) hf.names
  · intro l hl
    obtain ⟨a, ha, rfl⟩ := List.mem_map.mp hl
    have keyword : Text.IsUnbroken a.keyword.toText := by
      cases a.keyword <;> decide
    exact keyword.append (hf.attributes a ha)
  · cases change with
    | binary names =>
      refine List.forall_mem_singleton.mpr ?_
      exact isUnbroken_literal_append (s := "Binary files ") (by decide)
        (hf.change.append (by decide : Text.IsUnbroken " differ"))
    | deleted old hunks => exact isUnbroken_hunkLines hf.change.1 (by decide) hf.change.2
    | kept old path hunks =>
      obtain ⟨ho, hp, hh⟩ := hf.change
      have new := isUnbroken_literal_append (s := "b/") (by decide) hp.unbroken
      exact isUnbroken_hunkLines ho new hh

theorem Commit.IsPlain.isUnbroken {c : Commit} (hc : c.IsPlain) :
    ∀ l ∈ c.toLines, Text.IsUnbroken l := by
  obtain ⟨hash, files⟩ := c
  have name := isUnbroken_literal_append (s := "commit ") (by decide)
    (Text.isUnbroken_of_no_space hc.hash)
  cases files with
  | nil => exact List.forall_mem_singleton.mpr name
  | cons f fs =>
    refine List.forall_mem_cons.mpr ⟨name, List.forall_mem_cons.mpr ⟨nofun, ?_⟩⟩
    intro l hl
    obtain ⟨f, hf, hl⟩ := List.mem_flatMap.mp hl
    exact (hc.files f hf).isUnbroken l hl

end RepoScan.Diff
