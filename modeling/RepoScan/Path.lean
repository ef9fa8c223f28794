import RepoScan.Text.Basic

/-!
# Paths

A path is a root and components.  Reading a path drops empty components and the component that
means the directory itself, but keeps the one that means the parent: `a//b/./c` and `a/b/c` are
the same path, `a/../b` and `b` are not.
-/

namespace RepoScan

/-- A path.  The root is empty for a relative path; a path that begins with exactly two slashes
has a root of its own. -/
structure Path where
  root : Text
  parts : List Text
deriving DecidableEq

namespace Path

/-- The directory itself. -/
def here : Path := ⟨[], []⟩

/-- The root at the start of a text. -/
def rootOf (t : Text) : Text :=
  match (t.takeWhile fun c : CodePoint => c == '/').length with
  | 0 => []
  | 2 => "//"
  | _ => "/"

/-- The path that a text spells. -/
def ofText (t : Text) : Path :=
  ⟨rootOf t, (Text.splitOn '/' t).filter fun p => !p.isEmpty && p != ("." : Text)⟩

/-- The path as text. -/
def toText (p : Path) : Text :=
  if p.root.isEmpty && p.parts.isEmpty then "." else p.root ++ Text.join "/" p.parts

/-- The path starts at a root. -/
def isAbsolute (p : Path) : Bool := !p.root.isEmpty

/-- A path seen from another: the second path follows the first unless it is absolute. -/
def join (p q : Path) : Path := if q.isAbsolute then q else ⟨p.root, p.parts ++ q.parts⟩

/-- A path seen from another, given as text. -/
def joinText (p : Path) (t : Text) : Path := p.join (ofText t)

/-- What leads from `base` to the path, if the path lies in it. -/
def relativeTo? (base p : Path) : Option Path :=
  if base.root.isEmpty && base.parts.isEmpty then some p
  else if p.root = base.root && base.parts.isPrefixOf p.parts then
    some ⟨[], p.parts.drop base.parts.length⟩
  else none

/-- The path without its last component. -/
def parent (p : Path) : Path := ⟨p.root, p.parts.dropLast⟩

/-- The last component; empty for a root. -/
def name (p : Path) : Text := p.parts.getLast?.getD []

/-- The ending of the last component, from its last point on. -/
def ending (p : Path) : Text :=
  match Text.cutLast? '.' p.name with
  | some (front, back) => if front.isEmpty || back.isEmpty then [] else "." ++ back
  | none => []

/-- The last component without its ending. -/
def stem (p : Path) : Text := p.name.take (p.name.length - p.ending.length)

/-! ### Steps to the parent -/

/-- The component that means the parent. -/
def up : Text := ".."

/-- The components that a step to the parent leaves of `done`, which is reversed.  A root is its own
parent, and a step out of the directory that a relative path starts from is kept. -/
def leave (hasRoot : Bool) (done : List Text) : List Text :=
  match done with
  | [] => if hasRoot then [] else [up]
  | q :: rest => if q = up then up :: done else rest

/-- Every step to a parent is carried out; `done` holds the components so far, reversed. -/
def collapseParts (hasRoot : Bool) : (parts done : List Text) → List Text
  | [], done => done.reverse
  | p :: ps, done => collapseParts hasRoot ps (if p = up then leave hasRoot done else p :: done)

/-- The path with every step to a parent carried out where there is a component to leave. -/
def collapse (p : Path) : Path := ⟨p.root, collapseParts p.isAbsolute p.parts []⟩

/-- The first path is the second one or a directory that it lies in. -/
def leadsTo (p q : Path) : Bool := p.root = q.root && p.parts.isPrefixOf q.parts

/-! ### Limits -/

/-- A surrogate that stands for a byte which is no text. -/
def isEscapedByte (c : CodePoint) : Bool := 0xDC80 ≤ c.val && c.val ≤ 0xDCFF

/-- How many bytes of a path a character takes. -/
def width (c : CodePoint) : Nat :=
  if c.val < 0x80 || isEscapedByte c then 1
  else if c.val < 0x800 then 2
  else if c.val < 0x10000 then 3
  else 4

/-- How many bytes of a path a text takes. -/
def size (t : Text) : Nat := t.foldl (fun n c => n + width c) 0

/-- A component that is longer than names of files can be. -/
def isLongName (t : Text) : Bool := 255 < size t

/-- The path is longer than paths can be. -/
def isLong (p : Path) : Bool := 4095 < size p.toText

/-- The path has a form in bytes. -/
def isEncodable (p : Path) : Bool := p.toText.all fun c => !c.isSurrogate || isEscapedByte c

/-- The path holds the character that ends paths. -/
def hasNull (p : Path) : Bool := p.toText.any fun c => c.val == 0

end Path

end RepoScan
