import RepoScan.Text.Class

/-!
# Lines

Three ways of cutting a text into lines are in use, and they differ on purpose.

* `Text.splitOn '\n'` cuts a file body at line feeds only; the scanner then drops the carriage
  returns at the end of each piece.
* `Text.lines` cuts at every line boundary of Unicode.  The reader of diffs uses it.
* `Text.unifyBreaks` turns the three common line breaks into line feeds, as files are read from
  disk.
-/

namespace RepoScan

/-- A character that ends a line: line feed, vertical tab, form feed, carriage return, the
separators `0x1C` to `0x1E`, next line, and the line and paragraph separators. -/
def CodePoint.isLineBoundary (c : CodePoint) : Bool :=
  (10 ≤ c.val && c.val ≤ 13) || (0x1C ≤ c.val && c.val ≤ 0x1E) || c.val == 0x85 ||
    c.val == 0x2028 || c.val == 0x2029

namespace Text

/-- The lines of a text without their ends.  A carriage return and a line feed after it end one
line together; a text that ends with a line end has no empty last line. -/
def lines (t : Text) : List Text := go t [] []
where
  /-- `line` is the current line and `done` the finished lines, both reversed. -/
  go : Text → Text → List Text → List Text
    | [], line, done => (if line.isEmpty then done else line.reverse :: done).reverse
    | c :: t, line, done =>
      if c = '\r' then
        match t with
        | d :: t' => if d = '\n' then go t' [] (line.reverse :: done)
            else go (d :: t') [] (line.reverse :: done)
        | [] => (line.reverse :: done).reverse
      else if c.isLineBoundary then go t [] (line.reverse :: done)
      else go t (c :: line) done
  termination_by t => t.length

/-- Every carriage return, with a line feed right after it or alone, becomes a line feed. -/
def unifyBreaks (t : Text) : Text := go t []
where
  /-- `done` is the output, reversed. -/
  go : Text → Text → Text
    | [], done => done.reverse
    | c :: t, done =>
      if c = '\r' then
        match t with
        | d :: t' => if d = '\n' then go t' (d :: done) else go (d :: t') ('\n' :: done)
        | [] => (('\n' : CodePoint) :: done).reverse
      else go t (c :: done)
  termination_by t => t.length

/-- The text without white space at either end. -/
def strip (t : Text) : Text := trim CodePoint.isSpace t

/-- The words between runs of white space. -/
def words (t : Text) : List Text := splitRuns CodePoint.isSpace t

end Text

end RepoScan
