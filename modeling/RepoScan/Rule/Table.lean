import RepoScan.Rule.Basic

/-!
# The rules

The table of all rules.  Its order matters: of the rules for secrets only the first that fires on a
line is reported.

Secrets are looked for in configuration and backend files, injections where they can happen.  A
secret that looks like a placeholder, or that is read from the environment, is reported with medium
certainty; a match of another rule whose checks fail has low certainty.
-/

namespace RepoScan.Rule

open Pattern ContextCheck

/-! ### Character classes -/

/-- ASCII letters and digits. -/
def alnum : CharClass := fun c => c.isAsciiAlnum

/-- Digits and upper-case letters. -/
def keyIdChar : CharClass := fun c => c.isAsciiDigit || c.isAsciiUpper

/-- Characters of a URL-safe encoding. -/
def urlSafeChar : CharClass := fun c => c.isAsciiAlnum || c == '_' || c == '-'

/-- Everything but the given character. -/
def allBut (d : Char) : CharClass := fun c => c != d

/-- Everything but white space. -/
def nonBlank : CharClass := fun c => !c.isSpace

/-- Everything but the line feed. -/
def inLine : CharClass := allBut '\n'

/-! ### Checks on secrets -/

/-- The line does not look like a placeholder. -/
def notPlaceholder : ContextCheck := absent "not_placeholder" <| oneFrom [
  wordsOf ["example", "sample", "dummy", "placeholder", "changeme", "change_me"],
  word "your" ++ oneOf "_-",
  atLeast 4 (anyCase (· == 'x')),
  edge ++ word "test" ++ edge,
  literal "<" ++ some1 (anyCase fun c => c.isAsciiLower || c == '_' || c == '-') ++ literal ">"]

/-- The line does not read the environment. -/
def notEnvironmentReference : ContextCheck := absent "not_env_reference" <| oneFrom [
  literals ["process.env", "os.environ", "getenv", "ENV["],
  literal "$\x7b\x7b" ++ blanks ++ literal "secrets."]

/-- The checks on secrets. -/
def secretChecks : List ContextCheck := [notPlaceholder, notEnvironmentReference]

/-- The kinds of files that are searched for secrets. -/
def secretTargets : List FileKind := [.config, .backend]

/-- A rule for secrets. -/
def secretRule (name title : Text) (pattern : Pattern) : Rule where
  name := name
  family := .secret
  title := title
  probe := pattern
  kind := .secret
  severity := .critical
  targets := secretTargets
  checks := secretChecks
  fallback := .medium

/-! ### Secrets -/

/-- The header of a private key. -/
def privateKey : Rule :=
  { secretRule "private_key" "Private key material exposed" <|
      literal "-----BEGIN "
        ++ opt (literals ["RSA ", "DSA ", "EC ", "OPENSSH ", "PGP ", "ENCRYPTED "])
        ++ literal "PRIVATE KEY-----" with
    checks := [notPlaceholder] }

/-- The identifier of an access key. -/
def awsAccessKey : Rule :=
  secretRule "aws_access_key" "AWS access key ID exposed" <|
    edge ++ literals ["AKIA", "ASIA"] ++ exactly 16 keyIdChar ++ edge

/-- An access token in one of its two forms. -/
def githubToken : Rule :=
  secretRule "github_token" "GitHub access token exposed" <|
    edge
      ++ (literal "gh" ++ oneOf "pousr" ++ literal "_" ++ exactly 36 alnum
        ||| literal "github_pat_" ++ exactly 82 fun c => c.isAsciiAlnum || c == '_')
      ++ edge

/-- A chat token. -/
def slackToken : Rule :=
  secretRule "slack_token" "Slack token exposed" <|
    edge ++ literal "xox" ++ oneOf "baprs" ++ literal "-"
      ++ run (fun c => c.isAsciiAlnum || c == '-') 10 (some 48) ++ edge

/-- A signed web token: three parts, the first two of which begin as encoded objects do. -/
def webToken : Rule :=
  secretRule "jwt" "JSON Web Token exposed" <|
    edge ++ literal "eyJ" ++ atLeast 10 urlSafeChar ++ literal ".eyJ" ++ atLeast 10 urlSafeChar
      ++ literal "." ++ atLeast 10 urlSafeChar ++ edge

/-- A long value assigned to a name that speaks of a secret. -/
def apiKey : Rule :=
  let mark := opt (oneOf "_-")
  secretRule "api_key" "Potential API key or secret found" <|
    oneFrom [
      word "api" ++ mark ++ word "key", word "aws" ++ mark ++ word "key",
      word "secret" ++ mark ++ word "key", word "access" ++ mark ++ word "key",
      word "client" ++ mark ++ word "secret", word "auth" ++ mark ++ word "token",
      word "access" ++ mark ++ word "token",
      wordsOf ["token", "secret", "password", "passwd"]]
    ++ many (fun c => c == '"' || c == '\'' || c.isSpace) ++ oneOf ":=" ++ blanks
    ++ opt (oneOf "\"'\x60")
    ++ atLeast 32 (anyCase fun c => c.isAsciiAlnum || c == '+' || c == '/')

/-! ### Injections -/

/-- A statement put together from pieces. -/
def buildsQuery : Pattern := oneFrom [
  oneOf "\"'\x60" ++ blanks ++ literal "+",
  literal "+" ++ blanks ++ oneOf "\"'\x60",
  literal "$\x7b",
  oneOf "\"'" ++ blanks ++ literal "%" ++ blanks ++ one fun c => c.isWord || c == '(',
  literal ".format(",
  edge ++ literal "f" ++ oneOf "\"'"]

/-- A database statement in a line. -/
def sqlInjection : Rule where
  name := "sql_injection"
  family := .sqlInjection
  title := "Potential SQL injection vulnerability"
  probe := Probe.of <|
    edge
      ++ oneFrom [
        word "select" ++ gap ++ some1 inLine ++ gap ++ word "from",
        word "insert" ++ gap ++ word "into",
        word "update" ++ gap ++ some1 nonBlank ++ gap ++ word "set",
        word "delete" ++ gap ++ word "from",
        word "drop" ++ gap ++ word "table",
        word "union" ++ gap ++ opt (word "all" ++ gap) ++ word "select"]
      ++ edge
  kind := .vulnerability
  severity := .high
  targets := [.backend]
  checks := [
    absent "no_parameter_marker" (literal "?" ||| literal "$" ++ some1 CodePoint.isDecimal),
    absent "not_prepared" (word "prepare"),
    present "builds_query_dynamically" buildsQuery]
  fallback := .low

/-- A query of a document store built from a request. -/
def nosqlInjection : Rule where
  name := "nosql_injection"
  family := .nosqlInjection
  title := "Potential NoSQL injection vulnerability"
  probe := Probe.of <|
    (literal "."
      ++ literals ["find", "findOne", "findOneAndUpdate", "findOneAndDelete", "updateOne",
        "updateMany", "deleteOne", "deleteMany", "aggregate", "countDocuments"]
      ++ blanks ++ literal "(" ++ many (allBut ')') ++ edge ++ literals ["req", "request"]
      ++ literal "." ++ literals ["body", "query", "params"])
    ||| literal "$where" ++ edge
  kind := .vulnerability
  severity := .high
  targets := [.backend]
  checks := [
    absent "no_sanitization" (wordsOf
      ["sanitiz", "escape", "validator", "objectid(", "parseint(", "number(", "string("])]
  fallback := .low

/-- A text between two quotes of one sort, without other quotes or parts to be filled in. -/
def plainQuotation : Pattern :=
  let inside : CharClass := fun c =>
    !(c == '"' || c == '\'' || c == '\x60' || c == '$' || c == '+')
  let between (q : String) := literal q ++ many inside ++ literal q
  oneFrom [between "\"", between "'", between "\x60"]

/-- Markup or script put into a page. -/
def crossSiteScripting : Rule where
  name := "xss"
  family := .crossSiteScripting
  title := "Potential XSS vulnerability"
  probe := Probe.of <| oneFrom [
    literal "." ++ wordsOf ["innerhtml", "outerhtml"] ++ blanks ++ opt (literal "+") ++ literal "=",
    word "document.write" ++ opt (word "ln") ++ blanks ++ literal "(",
    word "dangerouslysetinnerhtml",
    edge ++ word "v-html" ++ blanks ++ literal "=",
    word "insertadjacenthtml" ++ blanks ++ literal "(",
    word "<script" ++ edge ++ many (allBut '>') ++ literal ">" ++ some1 (allBut '<')
      ++ word "</script>",
    word "javascript:",
    edge ++ word "on"
      ++ oneFrom [
        wordsOf ["click", "dblclick", "load", "error", "focus", "blur", "change", "submit",
          "input"],
        word "key" ++ wordsOf ["down", "up", "press"],
        word "mouse" ++ wordsOf ["over", "out", "down", "up", "move"]]
      ++ blanks ++ literal "=" ++ blanks ++ oneOf "\"'"]
  kind := .vulnerability
  severity := .high
  targets := [.frontend]
  checks := [
    absent "no_sanitization" (wordsOf
      ["dompurify", "sanitiz", "escapehtml", "encodeuricomponent", "textcontent"]),
    absent "not_static_literal" (literals ["innerHTML", "outerHTML"] ++ blanks ++ literal "="
      ++ blanks ++ plainQuotation ++ blanks ++ opt (literal ";") ++ blanks ++ stop)]
  fallback := .low

/-- Code put together while the program runs. -/
def dynamicEvaluation : Rule where
  name := "dynamic_eval"
  family := .codeEvaluation
  title := "Dynamic code evaluation"
  probe := Probe.of <|
    (edge ++ literal "eval" ++ blanks ++ literal "(")
    ||| (edge ++ literal "new" ++ gap ++ literal "Function" ++ blanks ++ literal "(")
  kind := .codeSmell
  severity := .medium
  targets := [.frontend, .backend]
  checks := [absent "not_commented_out" (start ++ blanks ++ literals ["//", "#", "*", "/*"])]
  fallback := .low

/-! ### The table -/

/-- All rules. -/
def table : List Rule :=
  [privateKey, awsAccessKey, githubToken, slackToken, webToken, apiKey, sqlInjection,
    nosqlInjection, crossSiteScripting, dynamicEvaluation]

/-- The rules for secrets. -/
def secretTable : List Rule := table.filter (·.isSecret)

/-- The rules that apply to files of one of the kinds. -/
def forKinds (kinds : List FileKind) : List Rule := table.filter (·.appliesTo kinds)

/-- The rule with a name. -/
def named? (name : Text) : Option Rule := table.find? fun r => r.name == name

end RepoScan.Rule
