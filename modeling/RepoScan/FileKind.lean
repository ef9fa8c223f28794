import RepoScan.Failure
import RepoScan.Text.Case

/-!
# Kinds of files

A path's name decides what the file is for.  The extension tables overlap, so a path may have
several kinds; test files have no other.  `FileKind.ofPath` gives all of them, in the order in which
`FileKind.primary?` prefers them.

Some extensions mark files that are never read.
-/

namespace RepoScan

/-- What a file is for. -/
inductive FileKind where
  | test
  | frontend
  | backend
  | style
  | config
deriving DecidableEq

namespace FileKind

/-- The kinds, in order of preference. -/
def all : List FileKind := [test, frontend, backend, style, config]

/-- The name of a kind. -/
def label : FileKind → Text
  | test => "test"
  | frontend => "frontend"
  | backend => "backend"
  | style => "style"
  | config => "config"

/-- The kind with a name. -/
def ofLabel (t : Text) : Except Failure FileKind :=
  match all.find? fun k => k.label == t with
  | some k => .ok k
  | none => .error (.unknownLabel "FileCategory" t)

/-- The endings that give a file a kind. -/
def endings : FileKind → List Text
  | test => [".test.js", ".spec.js", ".test.ts", ".spec.ts"]
  | frontend => [".html", ".js", ".jsx", ".ts", ".tsx", ".vue"]
  | backend => [".js", ".ts", ".py", ".rb", ".php", ".java"]
  | style => [".css", ".scss", ".less", ".sass"]
  | config => [".json", ".yml", ".yaml", ".env", ".config"]

/-- The endings of files that are never read. -/
def binaryEndings : List Text :=
  [".jpg", ".jpeg", ".png", ".gif", ".svg", ".ico", ".ttf", ".woff", ".woff2", ".eot", ".pdf",
    ".zip", ".tar", ".gz", ".mp3", ".mp4", ".avi", ".mov"]

/-- The text ends with one of the endings. -/
def hasEnding (t : Text) (endings : List Text) : Bool := endings.any t.endsWith

/-- The last component of a path in lower case; backslashes separate components too. -/
def baseName (path : Text) : Text :=
  let p := Text.replaceChar '\\' '/' path
  Text.lower <| match Text.cutLast? '/' p with
    | some (_, name) => name
    | none => p

/-- The file is never read. -/
def isBinary (name : Text) : Bool := hasEnding (baseName name) binaryEndings

/-- The kinds of a path, in order of preference. -/
def ofPath (path : Text) : List FileKind :=
  let name := baseName path
  if hasEnding name test.endings then [test] else all.filter fun k => hasEnding name k.endings

/-- The preferred kind of a path. -/
def primary? (path : Text) : Option FileKind :=
  let name := baseName path
  all.find? fun k => hasEnding name k.endings

end FileKind

end RepoScan
