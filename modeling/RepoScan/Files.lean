import RepoScan.Path
import RepoScan.Yaml.Place

/-!
# Files

The files that a scan reads and writes.  A directory is there when it holds a file or was made.  A
path without a root starts from the working directory.

* `Files.spot` : where a path leads;
* `Files.read?` : the text of a file;
* `Files.document?` : a document, if there is one;
* `Files.makeDirectory`, `Files.writeFile` : directories and files are made.
-/

namespace RepoScan

/-- Files with their texts, and directories that were made for files.  No path in them has a step to
the parent, except for steps out of the working directory at its start. -/
structure Files where
  texts : List (Path × Text)
  directories : List Path

namespace Files

/-- No files. -/
def empty : Files := ⟨[], []⟩

instance : Inhabited Files := ⟨empty⟩

/-- The files with the given text at a path. -/
def put (fs : Files) (p : Path) (t : Text) : Files :=
  let q := p.collapse
  { fs with texts :=
      if fs.texts.any fun f => f.1 = q then fs.texts.map fun f => if f.1 = q then (q, t) else f
      else fs.texts ++ [(q, t)] }

/-- The files with these paths and texts. -/
def ofList (fs : List (Path × Text)) : Files := fs.foldl (fun fs f => fs.put f.1 f.2) empty

/-- The files with their paths as they are seen from elsewhere; `p` is there even if it holds no
file. -/
def below (p : Path) (fs : Files) : Files :=
  ⟨fs.texts.map fun f => (p.join f.1, f.2), p :: fs.directories.map p.join⟩

/-! ### Finding files -/

/-- The path, which has no step to a parent, is that of a file. -/
def hasFile (fs : Files) (p : Path) : Bool := fs.texts.any fun f => f.1 = p

/-- The directory holds a file. -/
def holds (fs : Files) (p : Path) : Bool :=
  fs.texts.any fun f => f.1.root = p.root && f.1.parts != p.parts && p.parts.isPrefixOf f.1.parts

/-- The path, which has no step to a parent, is that of a directory: of one that holds the working
directory or a file, or that was made. -/
def hasDirectory (fs : Files) (p : Path) : Bool :=
  p.parts.all (· = Path.up) || fs.directories.any p.leadsTo || fs.holds p

/-- Where a path leads. -/
inductive Spot where
  /-- To a place in a directory that is there, without steps to a parent. -/
  | at (p : Path)
  /-- Through a directory that is not there. -/
  | nowhere
  /-- To a name that is longer than names can be. -/
  | tooLong
deriving DecidableEq

/-- The components are followed one after the other; `done` holds those so far, reversed.  Each step
needs a directory to start from. -/
def spotFrom (fs : Files) (root : Text) : (parts done : List Text) → Spot
  | [], done => .at ⟨root, done.reverse⟩
  | p :: ps, done =>
    if !fs.hasDirectory ⟨root, done.reverse⟩ then .nowhere
    else if p = Path.up then spotFrom fs root ps (Path.leave (!root.isEmpty) done)
    else if Path.isLongName p then .tooLong
    else spotFrom fs root ps (p :: done)

/-- Where the path leads.  What is no path of the system leads nowhere. -/
def spot (fs : Files) (p : Path) : Spot :=
  if !p.isEncodable || p.hasNull then .nowhere
  else if p.isLong then .tooLong
  else spotFrom fs p.root p.parts []

/-- The text of the file at a path, if there is one. -/
def read? (fs : Files) (p : Path) : Except Failure (Option Text) :=
  match fs.spot p with
  | .at q => .ok ((fs.texts.find? fun f => f.1 = q).map (·.2))
  | .nowhere => .ok none
  | .tooLong => .error (.pathTooLong p.toText)

/-- There is a file at the path. -/
def isFile (fs : Files) (p : Path) : Except Failure Bool := (fs.read? p).map (·.isSome)

/-- There is a directory at the path. -/
def isDirectory (fs : Files) (p : Path) : Bool :=
  match fs.spot p with
  | .at q => fs.hasDirectory q
  | _ => false

/-- The root of the document at a path, if anything is there, with the room for showing it.  In
documents line feeds are the only line breaks. -/
def document? (fs : Files) (room : Nat) (p : Path) : Except Failure (Option Yaml.Place) := do
  match ← fs.read? p with
  | some t => (Yaml.Document.read t.unifyBreaks).map fun d => some (d.top room)
  | none => if fs.isDirectory p then throw (.directoryRead p.toText) else pure none

/-! ### Making files -/

/-- Why nothing can be made at a path, whatever is there. -/
def checkPath (p : Path) : Except Failure Unit :=
  if !p.isEncodable then .error .notEncodable
  else if p.hasNull then .error .nullInPath
  else if p.isLong then .error (.pathTooLong p.toText)
  else .ok ()

/-- The directories on the way along components are made where they are missing, those of `done`,
reversed, being there.  `path` is the whole path; `isNew` says that a directory was made already. -/
def makeFrom (path : Path) : (parts done : List Text) → (isNew : Bool) → Files →
    Except Failure Files
  | [], _, _, fs => .ok fs
  | p :: ps, done, isNew, fs =>
    if p = Path.up then makeFrom path ps (Path.leave path.isAbsolute done) isNew fs
    else if Path.isLongName p then .error (.pathTooLong path.toText)
    else
      let here : Path := ⟨path.root, (p :: done).reverse⟩
      if fs.hasFile here then
        .error (if ps.isEmpty || isNew then .fileInTheWay here.toText else .notDirectory path.toText)
      else if fs.hasDirectory here then makeFrom path ps (p :: done) isNew fs
      else makeFrom path ps (p :: done) true { fs with directories := here :: fs.directories }

/-- A directory is made at a path, with the directories on the way. -/
def makeDirectory (fs : Files) (p : Path) : Except Failure Files := do
  checkPath p
  makeFrom p p.parts [] false fs

/-- A text is put into a file at a path whose directory is there.  Where it holds an unpaired
surrogate the file is left empty. -/
def writeFile (fs : Files) (p : Path) (t : Text) : Except Failure Unit × Files :=
  match checkPath p with
  | .error e => (.error e, fs)
  | .ok () =>
    if Path.isLongName p.name then (.error (.pathTooLong p.toText), fs)
    else if fs.hasDirectory p.collapse then (.error (.directoryRead p.toText), fs)
    else if t.any (·.isSurrogate) then (.error .notEncodable, fs.put p [])
    else (.ok (), fs.put p t)

end Files

end RepoScan
