import RepoScan.Proofs.FileKind.Views
import RepoScan.Proofs.Tree

/-!
# Files that are passed over

A scan passes over the files that are binary by their name before it looks at their kind.  No file
with a kind is lost that way: a path that is binary by its name has none.  The two tests look at
different texts, the name of the entry and its path, so the names have to be the last components of
the paths in all that the walk comes to.

* `Reaches` : the directories that a walk may come to;
* `keeping_walkWithin` : walks that do the same at each entry of these directories;
* `scanTreeByKind` : the scan that goes by the kinds of the files alone;
* `passesOver_nothing` : **it asks for the same and finds the same**, it only tells more.
-/

namespace RepoScan

variable {σ α : Type}

/-! ### What a walk comes to -/

/-- The name of the entry is the last component of its path. -/
def TreeEntry.IsNamed (e : TreeEntry) : Prop := e.name = Text.lastPiece '/' e.path

instance (e : TreeEntry) : Decidable e.IsNamed := inferInstanceAs (Decidable (_ = _))

/-- A walk from a directory may come to the one at a path, in whatever state its source is then. -/
inductive Reaches (src : ContentSource σ) (r : Repository) (start : Text) : Text → Prop
  | here : Reaches src r start start
  | inside {path : Text} {w : σ} {es : List TreeEntry} {e : TreeEntry}
      (h : Reaches src r start path) (listed : ((src.list r path).run w).1.result = .ok es)
      (he : e ∈ es) (hd : e.isDirectory = true) : Reaches src r start e.path

/-- What holds of all entries that a walk may come to. -/
def AllEntries (src : ContentSource σ) (r : Repository) (start : Text) (P : TreeEntry → Prop) :
    Prop :=
  ∀ path, Reaches src r start path → ∀ w es, ((src.list r path).run w).1.result = .ok es →
    ∀ e ∈ es, P e

variable {src : ContentSource σ} {r : Repository} {start path : Text}

theorem Reaches.of_recorded (h : Reaches src.recorded r start path) : Reaches src r start path := by
  induction h with
  | here => exact .here
  | inside _ listed he hd ih => exact ih.inside listed he hd

theorem AllEntries.recorded {P : TreeEntry → Prop} (h : AllEntries src r start P) :
    AllEntries src.recorded r start P :=
  fun path hp w => h path hp.of_recorded w.1

/-- Walks that do the same at each entry they may come to, up to some events. -/
theorem keeping_walkWithin {P : Event → Bool} {visit visit' : TreeEntry → Session σ (List α)}
    (hv : AllEntries src r start fun e => (visit e).keeping P = (visit' e).keeping P) (depth : Nat)
    (hp : Reaches src r start path) :
    (walkWithin src r visit depth path).keeping P =
      (walkWithin src r visit' depth path).keeping P := by
  induction depth generalizing path with
  | zero => rfl
  | succ depth ih =>
    refine Session.keeping_bind_congr rfl fun w es listed => ?_
    exact keeping_walkEntries (hv path hp w es listed) fun e he hd => ih (hp.inside listed he hd)

/-! ### Scans by kind -/

/-- The findings in the file of an entry, whatever its name. -/
def scanEntryByKind (src : ContentSource σ) (r : Repository) (e : TreeEntry) :
    Session σ (List Finding) :=
  if (FileKind.ofPath e.path).isEmpty then do
    Session.lift (Outcome.tell (.noKind e.path))
    pure []
  else do
    let body ← src.fetch r e.path
    Session.lift (scanFile body e.path)

/-- The findings in the files below a path, which are read wherever they have a kind. -/
def scanTreeByKind (nesting : Nat) (src : ContentSource σ) (r : Repository) (path : Text) :
    Session σ (List Finding) :=
  walk nesting src r (scanEntryByKind src r) path

theorem scanEntry_eq (e : TreeEntry) : scanEntry src r e =
    if FileKind.isBinary e.name then pure [] else scanEntryByKind src r e := rfl

/-- Anything else than that a file is told to have no kind. -/
def Event.isBesideKinds : Event → Bool
  | .notice (.noKind _) => false
  | _ => true

theorem FileKind.baseName_lastPiece (path : Text) :
    baseName (Text.lastPiece '/' path) = baseName path := by
  obtain ⟨u, hpath, hu⟩ := Text.exists_lastPiece '/' path
  have opens : Text.Opens '/' (Naming.slashed u) := by
    rcases hu with rfl | ⟨front, rfl⟩
    · exact .inl rfl
    · exact .inr ⟨Naming.slashed front, List.map_append⟩
  have slashes : Naming.slashed path =
      Naming.slashed u ++ Naming.slashed (Text.lastPiece '/' path) :=
    (congrArg Naming.slashed hpath).trans List.map_append
  rw [baseName_eq, baseName_eq, Naming.fileName, Naming.fileName, slashes, opens.lastPiece_append]

/-- An entry that is passed over is told to have no kind in a scan by kind. -/
theorem keeping_scanEntry {e : TreeEntry} (h : e.IsNamed) :
    (scanEntry src r e).keeping Event.isBesideKinds =
      (scanEntryByKind src r e).keeping Event.isBesideKinds := by
  rw [scanEntry_eq]
  split
  · rename_i binary
    have same : FileKind.isBinary e.path = true := by
      rw [FileKind.isBinary, ← FileKind.baseName_lastPiece, ← h]
      exact binary
    rw [scanEntryByKind, FileKind.ofPath_eq_nil_of_isBinary same]
    rfl
  · rfl

theorem keeping_scanTree (nesting : Nat) (h : AllEntries src r path TreeEntry.IsNamed) :
    (scanTree nesting src r path).keeping Event.isBesideKinds =
      (scanTreeByKind nesting src r path).keeping Event.isBesideKinds :=
  keeping_walkWithin (fun p hp w es listed e he => keeping_scanEntry (h p hp w es listed e he))
    nesting .here

/-- A scan of what is below a path does what it would do if it passed over nothing. -/
structure PassesOverNothing (nesting : Nat) (src : ContentSource σ) (r : Repository) (path : Text)
    (w : σ) : Prop where
  /-- It comes to the same, be it findings or a failure. -/
  result : ((scanTree nesting src r path).run w).1.result =
    ((scanTreeByKind nesting src r path).run w).1.result
  /-- It leaves the source in the same state. -/
  state : ((scanTree nesting src r path).run w).2 = ((scanTreeByKind nesting src r path).run w).2
  /-- It makes the same calls. -/
  calls : scanTreeCalls nesting src r path w =
    ((scanTreeByKind nesting src.recorded r path).run (w, [])).2.2
  /-- The same happens, but that some files are not told to have no kind. -/
  events : ((scanTree nesting src r path).run w).1.events.filter Event.isBesideKinds =
    ((scanTreeByKind nesting src r path).run w).1.events.filter Event.isBesideKinds

/-- **Nothing is lost where files are passed over.**  No path is binary by its name and has a kind;
so a scan, where names are the last components of paths, does what it would do without. -/
theorem passesOver_nothing :
    (∀ path, ¬ (FileKind.isBinary path = true ∧ FileKind.ofPath path ≠ [])) ∧
      ∀ (σ : Type) (nesting : Nat) (src : ContentSource σ) (r : Repository) (path : Text),
        AllEntries src r path TreeEntry.IsNamed → ∀ w, PassesOverNothing nesting src r path w := by
  refine ⟨fun path h => h.2 (FileKind.ofPath_eq_nil_of_isBinary h.1), ?_⟩
  intro σ nesting src r path named w
  obtain ⟨events, result, state⟩ := Session.keeping_eq_iff.mp (keeping_scanTree nesting named) w
  obtain ⟨-, -, recorded⟩ := Session.keeping_eq_iff.mp
    (keeping_scanTree nesting named.recorded) (w, [])
  exact ⟨result, state, congrArg Prod.snd recorded, events⟩

/-- The source of a repository with pictures. -/
def pictureSource : ContentSource Unit where
  list _ path := pure <|
    if path.isEmpty then [⟨"Logo.PNG", "Logo.PNG", "file"⟩, ⟨"src", "src", "dir"⟩]
    else [⟨"app.js.ico", "src/app.js.ico", "file"⟩, ⟨"app.py", "src/app.py", "file"⟩]
  fetch _ _ := pure "x = 1"

/-- A scan of a repository with pictures. -/
theorem passesOver_nothing_pictureSource :
    AllEntries pictureSource ⟨"acme", "shop"⟩ "" TreeEntry.IsNamed ∧
      PassesOverNothing 988 pictureSource ⟨"acme", "shop"⟩ "" () ∧
      scanTreeCalls 988 pictureSource ⟨"acme", "shop"⟩ "" () =
        [.listing "" none, .listing "src" none, .reading "src/app.py" none] := by
  have named : AllEntries pictureSource ⟨"acme", "shop"⟩ "" TreeEntry.IsNamed := by
    intro path _ w es listed
    obtain rfl := Except.ok.inj listed
    split
    · decide
    · decide
  exact ⟨named, passesOver_nothing.2 Unit 988 pictureSource ⟨"acme", "shop"⟩ "" named (), rfl⟩

end RepoScan
