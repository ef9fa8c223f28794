import RepoScan.FileKind
import RepoScan.Finding
import RepoScan.Pattern.Probe

/-!
# Detection rules

A rule looks for a pattern in a line of the files that it applies to.  Its checks look at the same
line again: a match is certain when all of them hold, and has the rule's fallback certainty
otherwise.
-/

namespace RepoScan

/-- What a rule is about. -/
inductive RuleFamily where
  | secret
  | sqlInjection
  | nosqlInjection
  | crossSiteScripting
  | codeEvaluation
deriving DecidableEq

/-- The name of a family. -/
def RuleFamily.label : RuleFamily → Text
  | secret => "secret"
  | sqlInjection => "sql_injection"
  | nosqlInjection => "nosql_injection"
  | crossSiteScripting => "xss"
  | codeEvaluation => "code_eval"

/-- A question about the line of a match: does the pattern occur, or does it not? -/
structure ContextCheck where
  name : Text
  pattern : Pattern
  /-- The check asks for the presence of the pattern, and not for its absence. -/
  wantsMatch : Bool

namespace ContextCheck

/-- The check that a pattern is absent. -/
def absent (name : Text) (pattern : Pattern) : ContextCheck := ⟨name, pattern, false⟩

/-- The check that a pattern is present. -/
def present (name : Text) (pattern : Pattern) : ContextCheck := ⟨name, pattern, true⟩

/-- The answer for a line. -/
def holds (c : ContextCheck) (line : Text) : Bool := c.pattern.occursIn line == c.wantsMatch

end ContextCheck

/-- A detection rule. -/
structure Rule where
  name : Text
  family : RuleFamily
  title : Text
  probe : Probe
  kind : FindingKind
  severity : Severity
  /-- The kinds of files that the rule applies to. -/
  targets : List FileKind
  checks : List ContextCheck
  /-- The certainty of a match where some check fails. -/
  fallback : Confidence

namespace Rule

/-- What the rule looks for. -/
def pattern (r : Rule) : Pattern := r.probe.pattern

/-- The rule's pattern occurs in the line. -/
def fires (r : Rule) (line : Text) : Bool := r.probe.occursIn line

/-- The answers of the checks. -/
def evaluate (r : Rule) (line : Text) : List Bool := r.checks.map (·.holds line)

/-- The certainty that the answers of the checks give. -/
def certainty (r : Rule) (answers : List Bool) : Confidence :=
  if answers.all id then .high else r.fallback

/-- The certainty of a match in the line. -/
def confidence (r : Rule) (line : Text) : Confidence := r.certainty (r.evaluate line)

/-- The rule applies to files of one of the kinds. -/
def appliesTo (r : Rule) (kinds : List FileKind) : Bool := r.targets.any kinds.contains

/-- How findings name the rule. -/
def description (r : Rule) : Text := r.title ++ " [" ++ r.name ++ "]"

/-- The rule looks for secrets. -/
def isSecret (r : Rule) : Bool := r.family == .secret

end Rule

end RepoScan
