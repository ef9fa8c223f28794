import RepoScan.Text.Basic

/-!
# Hiding and shortening

A secret is shown with its first and last characters only, the rest replaced by stars; a secret too
short for that is all stars.  A long line is shown up to a limit.
-/

namespace RepoScan

/-- The secret with only its first `head` and last `tail` characters left.  Either number may be
negative, or the tail zero, where the cut is then counted from the other end as in `Text.slice`. -/
def redactWith (head tail : Int) (secret : Text) : Text :=
  let n : Int := secret.length
  if secret.isEmpty then []
  else if n ≤ head + tail then List.replicate secret.length ('*' : CodePoint)
  else
    Text.slice 0 head secret ++ List.replicate (n - head - tail).toNat ('*' : CodePoint)
      ++ Text.slice (-tail) n secret

/-- The secret with only its first four and last four characters left. -/
def redact (secret : Text) : Text := redactWith 4 4 secret

/-- A line of at most `limit` characters as it is, and a longer one up to three characters less
than that, with three points after it. -/
def truncateTo (limit : Int) (line : Text) : Text :=
  if (line.length : Int) ≤ limit then line else Text.slice 0 (limit - 3) line ++ "..."

/-- The longest line that is shown whole. -/
def previewLimit : Int := 160

/-- A line as it is shown. -/
def truncate (line : Text) : Text := truncateTo previewLimit line

end RepoScan
