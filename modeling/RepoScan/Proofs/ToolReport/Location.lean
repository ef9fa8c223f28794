import RepoScan.Proofs.Path.Rooted
import RepoScan.Proofs.ToolReport.Secrets

/-!
# Where the secret scanner finds something

The scanner names files as it comes to them: from the root of the file system, or as seen from the
checkout.  Findings name a file in the checkout as it is seen from there, whichever way the scanner
names it and however it spells the path; a file beside the checkout keeps its path from the root.

* `SecretReport.isReportedAt_iff` : where a hit is reported is where the path of its file leads;
* `SecretReport.keepsPlaces_iff` : **files have one place** in findings, exactly where the checkout
  is a directory other than a root.
-/

namespace RepoScan.SecretReport

variable {root : Path} {file place : Text}

/-- The finding of a hit in the file `place`. -/
def findingIn (place : Text) (hit : List (Value × Value)) (line : Int) : Finding where
  kind := .secret
  severity := .critical
  confidence := .high
  description := descriptionOf hit ++ " [secret-scan]"
  file := place
  line := line

/-- Every hit that names the file `file` is reported at `place`, on the line that it gives. -/
def IsReportedAt (root : Path) (file place : Text) : Prop :=
  ∀ hit, fileOf hit = .text file →
    read (some root) (.list [.map hit]) =
      (lineNumber (lineOf hit)).map fun line => [findingIn place hit line]

theorem read_hit {hit : List (Value × Value)} (hne : file ≠ []) (hfile : fileOf hit = .text file) :
    read (some root) (.list [.map hit]) =
      (lineNumber (lineOf hit)).map fun line =>
        [findingIn (relativePath (some root) file) hit line] := by
  have given : (fileOf hit).isTruthy = true := by
    rw [hfile, Value.isTruthy, List.isEmpty_eq_false_iff.mpr hne]
    rfl
  have finding (line : Int) : findingAt (some root) hit line =
      findingIn (relativePath (some root) file) hit line := by
    rw [findingAt, hfile]
    rfl
  show (findingOf? (some root) hit >>= fun f => findingsOf (some root) [] >>= fun fs =>
    pure (f.toList ++ fs)) = _
  rw [findingOf?_eq, given, if_pos rfl]
  cases lineNumber (lineOf hit) with
  | error e => rfl
  | ok line => exact congrArg (fun f => Except.ok [f]) (finding line)

/-- Where a hit is reported is where the path of its file leads. -/
theorem isReportedAt_iff (hne : file ≠ []) :
    IsReportedAt root file place ↔ relativePath (some root) file = place := by
  constructor
  · intro h
    -- a hit that gives nothing but its file
    have hfile : fileOf [(.text "file", .text file)] = .text file := by
      cases file with
      | nil => exact absurd rfl hne
      | cons c t => rfl
    have reported := h _ hfile
    rw [read_hit hne hfile] at reported
    have findings := Except.ok.inj reported
    exact congrArg Finding.file (List.cons.inj findings).1
  · rintro rfl hit hfile
    exact read_hit hne hfile

theorem relativePath_of_some {p : Path} (h : root.relativeTo? (Path.ofText file) = some p) :
    relativePath (some root) file = p.toText := by
  rw [relativePath, Option.bind_some, h]
  rfl

theorem relativePath_of_none (h : root.relativeTo? (Path.ofText file) = none) :
    relativePath (some root) file = (Path.ofText file).toText := by
  rw [relativePath, Option.bind_some, h]
  rfl

/-- Findings keep to the places of files: a file in the checkout is named as it is seen from there,
and a path that only begins with the text of the checkout's is left as it is. -/
structure KeepsPlaces (root : Path) : Prop where
  inside : ∀ p : Text, p ≠ [] → p.head? ≠ some ('/' : CodePoint) →
    IsReportedAt root (root.toText ++ "/" ++ p) (Path.ofText p).toText ∧
      IsReportedAt root p (Path.ofText p).toText
  beside : ∀ q : Text, q ≠ [] → q.head? ≠ some ('/' : CodePoint) →
    IsReportedAt root (root.toText ++ q) (Path.ofText (root.toText ++ q)).toText ∧
      (Path.ofText (root.toText ++ q)).isAbsolute = true

theorem keepsPlaces_of_parts (h : root.IsRooted) (hp : root.parts ≠ []) : KeepsPlaces root := by
  refine ⟨fun p hne hhead => ⟨?_, ?_⟩, fun q hne hhead => ⟨?_, ?_⟩⟩
  · rw [List.append_assoc]
    refine (isReportedAt_iff ?_).mpr (relativePath_of_some (h.relativeTo?_below hp hhead))
    exact List.append_ne_nil_of_right_ne_nil _ (List.cons_ne_nil _ _)
  · exact (isReportedAt_iff hne).mpr (relativePath_of_none (h.relativeTo?_relative hhead))
  · refine (isReportedAt_iff ?_).mpr (relativePath_of_none (h.relativeTo?_beside hp hne hhead))
    exact List.append_ne_nil_of_right_ne_nil _ hne
  · show (!(Path.rootOf (root.toText ++ q)).isEmpty) = true
    rw [h.rootOf_toText_append hp, Bool.not_eq_true', List.isEmpty_eq_false_iff]
    exact h.root.ne_nil

/-- A root and a slash after it spell another root. -/
theorem not_keepsPlaces_of_root (h : Path.IsRoot root.root) (hp : root.parts = []) :
    ¬ KeepsPlaces root := by
  obtain ⟨r, parts⟩ := root
  obtain rfl : parts = [] := hp
  intro keeps
  have place := (keeps.inside "a" nofun (by decide)).1
  rcases h with rfl | rfl
  · exact absurd ((isReportedAt_iff (by decide)).mp place) (by decide)
  · exact absurd ((isReportedAt_iff (by decide)).mp place) (by decide)

/-- **Files have one place in findings**: however a relative path is spelled, a hit in it is
reported at the path in normal form, whether the scanner names it as it is or behind the path of the
checkout, and what only goes on with the text of the checkout's path keeps its path from the root.
This is so exactly where the checkout is a directory other than a root. -/
theorem keepsPlaces_iff {checkout : Text} (h : (Path.ofText checkout).isAbsolute = true) :
    KeepsPlaces (Path.ofText checkout) ↔ (Path.ofText checkout).parts ≠ [] := by
  have rooted := Path.isRooted_ofText h
  exact ⟨fun keeps hp => not_keepsPlaces_of_root rooted.root hp keeps, keepsPlaces_of_parts rooted⟩

/-- Two spellings of a file in a checkout, and a file in a directory whose name is longer. -/
theorem keepsPlaces_iff_shop :
    (Path.ofText "/w//shop/").isAbsolute = true ∧
      IsReportedAt ⟨"/", ["w", "shop"]⟩ "/w/shop/./src//../app.py" "src/../app.py" ∧
      IsReportedAt ⟨"/", ["w", "shop"]⟩ "./src//../app.py" "src/../app.py" ∧
      IsReportedAt ⟨"/", ["w", "shop"]⟩ "/w/shop.bak/./app.py" "/w/shop.bak/app.py" := by
  have absolute : (Path.ofText "/w//shop/").isAbsolute = true := by decide
  have keeps : KeepsPlaces ⟨"/", ["w", "shop"]⟩ := (keepsPlaces_iff absolute).mpr (by decide)
  obtain ⟨below, relative⟩ := keeps.inside "./src//../app.py" (by decide) (by decide)
  exact ⟨absolute, below, relative, (keeps.beside ".bak/./app.py" (by decide) (by decide)).1⟩

/-- The root of two slashes is absolute and in normal form, and it is not the root of one, but a
file below it keeps its path from a root. -/
theorem not_keepsPlaces_twoSlashes :
    (Path.ofText "//").isAbsolute = true ∧ (Path.ofText "//").toText = "//" ∧
      Path.ofText "//" ≠ Path.ofText "/" ∧
      read (some (Path.ofText "//"))
          (.list [.map [(.text "file", .text "///a.py")], .map [(.text "file", .text "a.py")]]) =
        .ok [findingIn "/a.py" [] 1, findingIn "a.py" [] 1] ∧
      ¬ KeepsPlaces (Path.ofText "//") :=
  ⟨by decide, by decide, by decide, rfl, not_keepsPlaces_of_root (.inr rfl) rfl⟩

end RepoScan.SecretReport
