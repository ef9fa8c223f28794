import RepoScan.Calendar.Iso
import RepoScan.CommandLine
import RepoScan.Hosting.Snapshot
import RepoScan.Json.Reader

/-!
# The program

The program runs the command on what it is given: it has no connection to a hosting service and
starts no other programs.  Standard input holds a JSON document with these entries, each of which
may be missing:

* `repository` : the files of the repository, a mapping of paths to texts;
* `files` : the files of the working directory, in the same form;
* `environment` : the variables of the environment;
* `time` : the time of the scan.

The lines of the command go to standard output, followed by a JSON document with the files that it
wrote, and its notices go to the standard error output.
-/

namespace RepoScan.Main

/-- The texts of a mapping by their keys. -/
def textsAt (key : Text) (document : List (Value × Value)) : List (Text × Text) :=
  match Value.get key document with
  | .map es => es.map fun e => (e.1.toText, e.2.toText)
  | _ => []

/-- A file of the repository. -/
def snapshotFile (path body : Text) : SnapshotFile :=
  let bytes := body.flatMap Utf8.encodePoint
  ⟨path, "file", bytes, true, bytes.length⟩

/-- The time of the scan. -/
def timeOf (document : List (Value × Value)) : Moment :=
  match Value.get "time" document with
  | .text t => (Moment.ofIso? t).getD ⟨⟨1970, 1, 1⟩, 0, 0, 0, 0, some 0⟩
  | _ => ⟨⟨1970, 1, 1⟩, 0, 0, 0, 0, some 0⟩

/-- What the document says of the outside. -/
def outsideOf (document : List (Value × Value)) : Outside where
  host := .ok (Snapshot.host ((textsAt "repository" document).map fun f => snapshotFile f.1 f.2))
  programs := Programs.checked fun _ => none
  files := Files.ofList ((textsAt "files" document).map fun f => (Path.ofText f.1, f.2))
  environment := textsAt "environment" document
  temporary := .ok (Path.ofText "/tmp")
  today := (timeOf document).date
  nesting := 988
  room := 985

/-- The entries of a document. -/
def entriesOf (document : Text) : Except Failure (List (Value × Value)) := do
  match ← Json.read document with
  | .map es => pure es
  | v => throw (.noEntries v.typeName)

/-- The files that are new or changed. -/
def written (before after : Files) : List (Path × Text) :=
  after.texts.filter fun f => !before.texts.contains f

/-- Files as a document. -/
def filesText (fs : List (Path × Text)) : Text :=
  Json.writeIndented (.map (fs.map fun f => (.text f.1.toText, .text f.2)))

/-- How the command is called. -/
def usage : Text :=
  "repository [--token T] [--config FILE] [--out FILE] [--format json|md] [--severity LEVEL] "
    ++ "[--type KIND] [--fail-on LEVEL] [-v]"

/-- An event is shown to the user. -/
def tell (isVerbose : Bool) : Event → IO Unit
  | .print line => IO.println line.toString
  | .notice n =>
    match n.line? fun e => e.report.toOption with
    | some line =>
      if isVerbose || n.level != .debug then IO.eprintln line.toString else pure ()
    | none => pure ()
  | _ => pure ()

/-- The command with its options on the outside that a document describes. -/
def perform (q : Options) (document : List (Value × Value)) : IO UInt32 := do
  let bytes ← IO.getRandomBytes 16
  let stamp : Stamp := ⟨bytes.toList.flatMap fun b => Text.hex 2 b.toNat, timeOf document⟩
  let o := outsideOf document
  let (x, files) := (CommandLine.run o stamp q).run o.files
  x.events.forM (tell q.isVerbose)
  IO.println (filesText (written o.files files)).toString
  match x.result with
  | .ok status => pure (UInt32.ofNat status)
  | .error e => do
    IO.eprintln (e.name ++ ": " ++ e.message).toString
    pure 1

end RepoScan.Main

open RepoScan in
/-- The program. -/
def main (arguments : List String) : IO UInt32 := do
  match Options.parse (arguments.map Text.ofString) with
  | .error stop => do
    IO.println Main.usage.toString
    pure (UInt32.ofNat stop.status)
  | .ok q =>
    let input ← (← IO.getStdin).readToEnd
    match Main.entriesOf (Text.ofString input) with
    | .ok document => Main.perform q document
    | .error e => do
      IO.eprintln e.message.toString
      pure 1
