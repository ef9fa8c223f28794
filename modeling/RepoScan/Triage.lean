import RepoScan.Pattern.Search
import RepoScan.Score
import RepoScan.Suppression

/-!
# Triage

After detection the findings of a scan are enriched with scores and categories, false positives are
dropped, and then what the project's ignore rules accept.

A finding counts as a false positive where its certainty is low and its severity not critical,
where its path follows a naming convention for tests or stand-ins, and where its path or
description speaks of an example.
-/

namespace RepoScan

open Pattern

/-- Everything but a slash. -/
def inSegment : CharClass := fun c => c != '/'

/-- The start of a path's component. -/
def segmentStart : Pattern := start ||| literal "/"

/-- Paths of tests: a directory of tests, or a file name with a mark for tests. -/
def testPath : Pattern := oneFrom [
  segmentStart ++ oneFrom [literal "test" ++ opt (literal "s"), literal "__tests__",
    literal "spec" ++ opt (literal "s")] ++ literal "/",
  literal "." ++ literals ["test", "spec"] ++ literal "." ++ some1 inSegment ++ stop,
  segmentStart ++ literal "test_" ++ some1 inSegment ++ stop,
  literal "_" ++ literals ["test", "spec"] ++ literal "." ++ some1 inSegment ++ stop]

/-- Paths of stand-ins: a file name that speaks of one, or a directory of them. -/
def standInPath : Pattern := oneFrom [
  segmentStart ++ many inSegment ++ wordsOf ["mock", "fake", "dummy"] ++ many inSegment ++ stop,
  segmentStart ++ opt (literal "__")
    ++ wordsOf ["mock", "fake", "fixture", "stub"] ++ opt (word "s")
    ++ opt (literal "__") ++ literal "/"]

/-- What speaks of an example. -/
def exampleMark : Pattern := wordsOf ["example", "demo", "sample"]

namespace Finding

/-- The finding is no issue. -/
def isFalsePositive (f : Finding) : Bool :=
  (f.confidence == .low && f.severity != .critical)
    || (let path := Text.replaceChar '\\' '/' f.file
      testPath.occursIn path || standInPath.occursIn path || exampleMark.occursIn path
        || exampleMark.occursIn f.description)

/-- The finding with its score and category. -/
def enrich (f : Finding) : Finding :=
  { f with score := some f.computedScore, category := some (categorize f) }

end Finding

/-- The findings that are issues.  They have to be enriched before. -/
def dropFalsePositives (fs : List Finding) : Except Failure (List Finding) :=
  if fs.any fun f => !f.isEnriched then .error .unenriched
  else .ok (fs.filter fun f => !f.isFalsePositive)

/-- The whole of triage: what is left of the findings on a day. -/
def triage (rules : List IgnoreRule) (today : Date) (fs : List Finding) :
    Except Failure (List Finding) := do
  let kept ← dropFalsePositives (fs.map Finding.enrich)
  IgnoreRule.filterFindings rules today kept

end RepoScan
