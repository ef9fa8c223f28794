import RepoScan.Rule.Table
import RepoScan.Text.Lines

/-!
# Scanning a file

A file body is cut into lines at line feeds, and each line is held against the rules that apply to
the file.  Every rule that fires gives a finding, but of the rules for secrets only the first one
does.  A finding shows the lines around it.

Bodies that are too large or binary have no findings.
-/

namespace RepoScan

/-- A rule that fired, and the certainty of the match. -/
structure RuleMatch where
  rule : Rule
  confidence : Confidence

/-- The matches in a line, in the order of the rules.  `found` tells that a secret was found
already. -/
def matchLineFrom (line : Text) (found : Bool) : List Rule → List RuleMatch
  | [] => []
  | r :: rs =>
    if (r.isSecret && found) || !r.fires line then matchLineFrom line found rs
    else ⟨r, r.confidence line⟩ :: matchLineFrom line (found || r.isSecret) rs

/-- The matches in a line: those of the rules that fire, only the first of those for secrets. -/
def matchLine (line : Text) (rules : List Rule) : List RuleMatch := matchLineFrom line false rules

/-- The first match in a line. -/
def firstMatch? (line : Text) (rules : List Rule) : Option RuleMatch := (matchLine line rules).head?

/-- How many lines on either side of its own a finding shows. -/
def contextRadius : Int := 3

/-- The lines within `radius` of an index, joined. -/
def contextWindow (lines : List Text) (index radius : Int) : Text :=
  let start := max (index - radius) 0
  let stop := min (index + radius + 1) lines.length
  Text.join "\n" (Text.slice start stop lines)

/-- The most characters that a body may have. -/
def maxBodyLength : Nat := 2 * 1024 * 1024

/-- The body holds a null character. -/
def isBinaryBody (body : Text) : Bool := body.any fun c => c.val == 0

/-- The lines of a body, without the carriage returns at their ends. -/
def bodyLines (body : Text) : List Text :=
  (Text.splitOn '\n' body).map (Text.trimRight (· == '\r'))

/-- The lines around a line: the last `contextRadius` before it, nearest first, the line, and the
first ones after it. -/
def windowAround (before : List Text) (line : Text) (after : List Text) : Text :=
  let n := contextRadius.toNat
  Text.join "\n" ((before.take n).reverse ++ line :: after.take n)

/-- The findings in the lines from `number` on.  `before` holds the lines passed, nearest first,
and `done` the findings so far, reversed. -/
def scanLinesFrom (path : Text) (rules : List Rule) (number : Nat) (before : List Text) :
    List Text → (done : List Finding) → List Finding
  | [], done => done.reverse
  | line :: after, done =>
    let found := (matchLine line rules).map fun m => {
      kind := m.rule.kind
      severity := m.rule.severity
      confidence := m.confidence
      description := m.rule.description
      file := path
      line := number
      code := some (windowAround before line after) }
    scanLinesFrom path rules (number + 1) (line :: before) after (found.reverseAux done)

/-- The findings in the lines of a file. -/
def scanLines (path : Text) (rules : List Rule) (lines : List Text) : List Finding :=
  scanLinesFrom path rules 1 [] lines []

/-- The body is scanned at all. -/
def isScannable (body : Text) : Bool := body.length ≤ maxBodyLength && !isBinaryBody body

/-- The findings in the body of a file. -/
def scanBody (body path : Text) : List Finding :=
  let rules := Rule.forKinds (FileKind.ofPath path)
  if rules.isEmpty || !isScannable body then [] else scanLines path rules (bodyLines body)

end RepoScan
