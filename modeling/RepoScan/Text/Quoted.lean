import RepoScan.Text.Class

/-!
# Quoted text

How a text is shown inside a message or inside the written form of a list or mapping: between
single quotes, or between double quotes where it holds a single quote and no double one.  The
quote and the backslash are escaped, and so is every character that is not printable.
-/

namespace RepoScan

/-- A character as it stands between the quotes `quote`. -/
def CodePoint.escaped (quote : CodePoint) (c : CodePoint) : Text :=
  if c = quote || c = '\\' then ['\\', c]
  else if c = '\n' then "\\n"
  else if c = '\r' then "\\r"
  else if c = '\t' then "\\t"
  else if c.isPrintable then [c]
  else if c.val < 0x100 then "\\x" ++ Text.hex 2 c.val
  else if c.val < 0x10000 then "\\u" ++ Text.hex 4 c.val
  else "\\U" ++ Text.hex 8 c.val

namespace Text

/-- The quotes that a text is shown between. -/
def quoteMark (t : Text) : CodePoint := if t.contains '\'' && !t.contains '"' then '"' else '\''

/-- The text as it is shown inside a message. -/
def quoted (t : Text) : Text :=
  let q := t.quoteMark
  q :: t.flatMap (CodePoint.escaped q) ++ [q]

end Text

end RepoScan
