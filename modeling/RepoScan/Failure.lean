import RepoScan.Calendar
import RepoScan.Number.Reading
import RepoScan.Text.Quoted

/-!
# Failures

Everything that can go wrong, as causes.  `Failure.message` is the one place that words them.  A
failure whose message is empty is reported by its `Failure.name`.
-/

namespace RepoScan

/-- What is wrong with a command template. -/
inductive TemplateFault where
  /-- A closing brace stands alone. -/
  | loneClosing
  /-- An opening brace ends the template. -/
  | loneOpening
  /-- A field ends in its name. -/
  | unclosedName
  /-- A field ends in its layout. -/
  | unclosedLayout
  /-- A field holds an opening brace where a name is expected. -/
  | unexpectedOpening
  /-- Nothing follows the exclamation mark. -/
  | missingConversion
  /-- What follows the conversion letter is neither a colon nor the end of the field. -/
  | afterConversion
  /-- The conversion letter is unknown. -/
  | unknownConversion (letter : CodePoint)
  /-- An element or attribute has no name. -/
  | emptyStep
  /-- What follows a closing bracket is neither a point nor a bracket. -/
  | afterBracket
  /-- Fields are nested too deeply. -/
  | tooDeep
  /-- A number has too many digits. -/
  | tooManyDigits
  /-- More than one letter is left at the end of a layout. -/
  | badLayout (layout : Text)
  /-- The layout ends in a letter that is not for texts. -/
  | unknownCode (letter : CodePoint)
  /-- The layout asks for something that texts do not have. -/
  | notForTexts (what : Text)
  /-- The layout asks for two ways of grouping digits. -/
  | bothSeparators
  /-- The layout asks for a way of grouping digits that its letter does not go with. -/
  | separator (mark letter : CodePoint)
  /-- The point of a layout has no digits after it. -/
  | missingPrecision
  /-- A value that is no text has a layout. -/
  | layoutOf (type : Text)
  /-- A field refers to a value by number. -/
  | noNumbered (index : Nat)
  /-- A field refers to an unknown value. -/
  | noNamed (name : Text)
  /-- A field refers to an element that is not there. -/
  | noElement (type : Text)
  /-- An element is referred to by a name. -/
  | namedElement (type : Text)
  /-- The value has no such attribute. -/
  | noAttribute (type name : Text)
  /-- The value has no elements. -/
  | noElements (type : Text)
deriving DecidableEq

/-- Why a host refuses a request. -/
inductive RefusalKind where
  | rateLimit
  | badCredentials
  | unknownObject
  /-- Any other reason. -/
  | other
deriving DecidableEq

/-- The name of the failure of a refused request. -/
def RefusalKind.name : RefusalKind → Text
  | rateLimit => "RateLimitExceededException"
  | badCredentials => "BadCredentialsException"
  | unknownObject => "UnknownObjectException"
  | other => "GithubException"

/-- The name of a kind of failure that comes from outside.  It has a letter at least. -/
structure FailureName where
  text : Text
  ne_nil : text ≠ []
deriving DecidableEq

/-- What can go wrong. -/
inductive Failure where
  /-- A text is not one of the labels of a set, such as the severities. -/
  | unknownLabel (role given : Text)
  /-- The repository identifier is no text or is blank. -/
  | noRepository
  /-- The repository identifier does not name a repository. -/
  | badRepository (given : Text)
  /-- The repository identifier names another host. -/
  | foreignHost (given : Text)
  /-- The brackets of an address do not match. -/
  | unbalancedBrackets
  /-- The brackets of an address hold a malformed address of a future version. -/
  | badFutureAddress
  /-- The brackets of an address hold a numeric address of version 4. -/
  | bracketedAddress
  /-- The brackets of an address hold no numeric address. -/
  | noNumericAddress (given : Text)
  /-- The host of an address holds a character that looks like a delimiter. -/
  | deceptiveHost (host : Text)
  /-- A tool has no command line. -/
  | emptyCommand
  /-- A tool is not there. -/
  | notInstalled (program : Text)
  /-- A tool reported failure. -/
  | exited (program : Text) (status : Int) (complaint : Text)
  /-- A tool failed; the text says how. -/
  | tool (text : Text)
  /-- The operating system refuses something, for a reason that has no other name here. -/
  | system (name : FailureName) (text : Text)
  /-- There is no program or file of a name. -/
  | noSuchFile (path : Text)
  /-- A process that is to be killed is gone. -/
  | noProcess
  /-- A text for the operating system holds unpaired surrogates that stand for no byte. -/
  | unpairedForSystem (given : Text)
  /-- A text for the operating system holds the character that ends texts. -/
  | nullForSystem
  /-- The name of a variable holds an equals sign. -/
  | badVariable
  /-- The time allowed is over. -/
  | timedOut
  /-- The work was called off. -/
  | calledOff
  /-- Something outside fails in a way of its own, but not by the end of an iteration, which a walk
  that is under way would take for its own end. -/
  | foreign (name : FailureName) (text : Text)
  /-- Something outside fails in a way of its own that cannot be put into words: asking for them
  fails as well. -/
  | wordless (name : FailureName) (asking : Failure)
  /-- The host refuses further requests for now. -/
  | rateLimited (subject : Text)
  /-- The host rejects the credentials. -/
  | badCredentials (subject : Text)
  /-- The host does not know the repository or path. -/
  | notFound (subject : Text)
  /-- The host reported another error. -/
  | host (status : Int) (subject detail : Text)
  /-- A directory was asked for as a file. -/
  | isDirectory (path : Text)
  /-- The connection to the host failed. -/
  | connection (text : Text)
  /-- The body of a file is not in the text encoding for bytes. -/
  | malformedBlob
  /-- Directories are nested too deeply. -/
  | tooDeep
  /-- A text is not a JSON document. -/
  | malformedJson
  /-- A text is not a YAML document. -/
  | malformedYaml
  /-- An escape names a character beyond the last one. -/
  | noSuchCharacter (number : Nat)
  /-- A number is given as an empty text. -/
  | emptyNumber
  /-- A text is given as a moment and is none. -/
  | notMoment
  /-- A collection is given as a moment. -/
  | collectionAsMoment
  /-- A report of the secret scanner is no array. -/
  | secretReportShape
  /-- A report of the dependency audit is neither array nor object. -/
  | auditReportShape
  /-- A text, given as messages show it, is not a number. -/
  | notReal (given : Text)
  /-- A text, given as messages show it, is not an integer of a base. -/
  | notInteger (base : Nat) (given : Text)
  /-- An integer has too many digits to be read. -/
  | tooManyDigits (digits : Nat)
  /-- An integer has too many digits to be written. -/
  | tooLongToWrite
  /-- What is not a number has no integer part. -/
  | nanToInteger
  /-- An infinity has no integer part. -/
  | infinityToInteger
  /-- An integer is beyond the greatest number. -/
  | integerToInfinity
  /-- A value cannot be converted to an integer. -/
  | noInteger (type : Text)
  /-- A value cannot be converted to a number. -/
  | noReal (type : Text)
  /-- A value has no items. -/
  | notIterable (type : Text)
  /-- A value has no entries. -/
  | noEntries (type : Text)
  /-- A moment was compared with a day. -/
  | momentAgainstDay
  /-- Numbers do not name a day or a moment. -/
  | calendar (fault : CalendarFault)
  /-- A directory is to be read or written as a file. -/
  | directoryRead (path : Text)
  /-- A file is where a directory is to be made. -/
  | fileInTheWay (path : Text)
  /-- A file is taken for a directory on the way to a path. -/
  | notDirectory (path : Text)
  /-- A path or one of its components is too long. -/
  | pathTooLong (path : Text)
  /-- A path holds the character that ends paths. -/
  | nullInPath
  /-- A value is given as a path and is no text. -/
  | notPath (type : Text)
  /-- The host refused a request: what it says about it in words, and all that it answered. -/
  | refused (kind : RefusalKind) (status : Int) (detail text : Text)
  /-- A configuration file holds no mapping. -/
  | configShape (path : Text)
  /-- A command template is malformed. -/
  | template (fault : TemplateFault)
  /-- Findings were filtered before they were enriched. -/
  | unenriched
  /-- A switch that needs a value is given without one. -/
  | noValue
  /-- A mapping lacks an entry. -/
  | missingEntry (key : Text)
  /-- A text holds an unpaired surrogate and cannot be written to a file. -/
  | notEncodable
deriving DecidableEq

/-- A letter as messages name it: by its number unless it is a visible ASCII character. -/
def CodePoint.named (c : CodePoint) : Text :=
  if 32 < c.val && c.val < 127 then [c] else "\\x" ++ Text.hex 1 c.val

/-- What is wrong with a template. -/
def TemplateFault.message : TemplateFault → Text
  | loneClosing => "Single '\x7d' encountered in format string"
  | loneOpening => "Single '\x7b' encountered in format string"
  | unclosedName => "expected '\x7d' before end of string"
  | unclosedLayout => "unmatched '\x7b' in format spec"
  | unexpectedOpening => "unexpected '\x7b' in field name"
  | missingConversion => "end of string while looking for conversion specifier"
  | afterConversion => "expected ':' after conversion specifier"
  | unknownConversion c => "Unknown conversion specifier " ++ c.named
  | emptyStep => "Empty attribute in format string"
  | afterBracket => "Only '.' or '[' may follow ']' in format field specifier"
  | tooDeep => "Max string recursion exceeded"
  | tooManyDigits => "Too many decimal digits in format string"
  | badLayout layout => "Invalid format specifier '" ++ layout ++ "' for object of type 'str'"
  | unknownCode c => "Unknown format code '" ++ c.named ++ "' for object of type 'str'"
  | notForTexts what => what ++ " not allowed in string format specifier"
  | bothSeparators => "Cannot specify both ',' and '_'."
  | separator mark c => "Cannot specify '" ++ [mark] ++ "' with '" ++ c.named ++ "'."
  | missingPrecision => "Format specifier missing precision"
  | layoutOf type => "unsupported format string passed to " ++ type ++ ".__format__"
  | noNumbered index =>
    "Replacement index " ++ Text.ofNat index ++ " out of range for positional args tuple"
  | noNamed name => name.quoted
  | noElement type => type ++ " index out of range"
  | namedElement type =>
    if type = ("str" : Text) then "string indices must be integers, not 'str'"
    else type ++ " indices must be integers or slices, not str"
  | noAttribute type name => "'" ++ type ++ "' object has no attribute '" ++ name ++ "'"
  | noElements type => "'" ++ type ++ "' object is not subscriptable"

namespace Failure

/-- What there is to say of unpaired surrogates that stand for no byte: where the first ones are. -/
def unpairedMessage (given : Text) : Text :=
  let start := given.findIdx fun c => c.isSurrogate && !c.isHiddenByte
  let found := (given.drop start).takeWhile CodePoint.isSurrogate
  let place : Text := match found with
    | [c] => " '\\u" ++ Text.hex 4 c.val ++ "' in position " ++ Text.ofNat start
    | _ => "s in position " ++ Text.ofNat start ++ "-" ++ Text.ofNat (start + found.length - 1)
  "'utf-8' codec can't encode character" ++ place ++ ": surrogates not allowed"

/-- The failure in words; there are none where it cannot be put into words. -/
def message : Failure → Text
  | unknownLabel role given => given.quoted ++ " is not a valid " ++ role
  | noRepository => "Invalid repository URL"
  | badRepository given => "Invalid repository URL: " ++ given
  | foreignHost given => "Not a GitHub repository: " ++ given
  | unbalancedBrackets => "Invalid IPv6 URL"
  | badFutureAddress => "IPvFuture address is invalid"
  | bracketedAddress => "An IPv4 address cannot be in brackets"
  | noNumericAddress given => given.quoted ++ " does not appear to be an IPv4 or IPv6 address"
  | deceptiveHost given =>
    "netloc '" ++ given ++ "' contains invalid characters under NFKC normalization"
  | emptyCommand => "empty command"
  | notInstalled program => program ++ " is not installed"
  | exited program status complaint =>
    program ++ " exited with status " ++ Text.ofInt status ++ ": " ++ complaint
  | tool text => text
  | system _ text => text
  | noSuchFile path => "[Errno 2] No such file or directory: " ++ path.quoted
  | noProcess => ""
  | unpairedForSystem given => unpairedMessage given
  | nullForSystem => "embedded null byte"
  | badVariable => "illegal environment variable name"
  | timedOut => ""
  | calledOff => ""
  | foreign _ text => text
  | wordless .. => ""
  | rateLimited subject => "GitHub rate limit exceeded while reading " ++ subject
  | badCredentials subject => "GitHub rejected the supplied credentials (" ++ subject ++ ")"
  | notFound subject => "Not found: " ++ subject
  | host status subject detail =>
    "GitHub API error (" ++ Text.ofInt status ++ ") for " ++ subject ++ ": " ++ detail
  | isDirectory path => path ++ " is a directory, not a file"
  | connection text => text
  | malformedBlob => "Incorrect padding"
  | tooDeep => "maximum recursion depth exceeded"
  | malformedJson => "the text is not a JSON document"
  | malformedYaml => "the text is not a YAML document"
  | noSuchCharacter n =>
    if n < Nat.pow 2 31 then "chr() arg not in range(0x110000)"
    else "Python int too large to convert to C int"
  | emptyNumber => "string index out of range"
  | notMoment => "'NoneType' object has no attribute 'groupdict'"
  | collectionAsMoment => "expected string or bytes-like object"
  | secretReportShape => "secret-scan report must be a JSON array"
  | auditReportShape => "dependency-audit report must be a JSON array or object"
  | notReal given => "could not convert string to float: " ++ given
  | notInteger base given =>
    "invalid literal for int() with base " ++ Text.ofNat base ++ ": " ++ given.take 200
  | tooManyDigits digits =>
    "Exceeds the limit (4300 digits) for integer string conversion: value has "
      ++ Text.ofNat digits ++ " digits; use sys.set_int_max_str_digits() to increase the limit"
  | tooLongToWrite =>
    "Exceeds the limit (4300 digits) for integer string conversion; use sys.set_int_max_str_digits() to increase the limit"
  | nanToInteger => "cannot convert float NaN to integer"
  | infinityToInteger => "cannot convert float infinity to integer"
  | integerToInfinity => "int too large to convert to float"
  | noInteger type =>
    "int() argument must be a string, a bytes-like object or a real number, not '" ++ type ++ "'"
  | noReal type => "float() argument must be a string or a real number, not '" ++ type ++ "'"
  | notIterable type => "'" ++ type ++ "' object is not iterable"
  | noEntries type => "'" ++ type ++ "' object has no attribute 'get'"
  | momentAgainstDay => "can't compare datetime.datetime to datetime.date"
  | calendar fault => fault.message
  | directoryRead path => "[Errno 21] Is a directory: " ++ path.quoted
  | fileInTheWay path => "[Errno 17] File exists: " ++ path.quoted
  | notDirectory path => "[Errno 20] Not a directory: " ++ path.quoted
  | pathTooLong path => "[Errno 36] File name too long: " ++ path.quoted
  | nullInPath => "embedded null byte"
  | notPath type => "unsupported operand type(s) for /: 'PosixPath' and '" ++ type ++ "'"
  | refused _ _ _ text => text
  | configShape path => path ++ ": expected a mapping at the top level"
  | template fault => fault.message
  | unenriched => "findings must be enriched before filtering"
  | noValue => "a switch lacks its value"
  | missingEntry key => key.quoted
  | notEncodable => "the text holds an unpaired surrogate"

/-- The name of a template's failure. -/
def ofTemplate : TemplateFault → Text
  | .noNumbered _ | .noElement _ => "IndexError"
  | .noNamed _ => "KeyError"
  | .layoutOf _ | .namedElement _ | .noElements _ => "TypeError"
  | .noAttribute .. => "AttributeError"
  | _ => "ValueError"

/-- The name of the failure, for reports of failures that have no message. -/
def name : Failure → Text
  | unknownLabel .. | unbalancedBrackets | badFutureAddress | bracketedAddress
  | noNumericAddress _ | deceptiveHost _ | secretReportShape | auditReportShape
  | notReal _ | notInteger .. | tooManyDigits _ | tooLongToWrite | nanToInteger | calendar _
  | configShape _ | unenriched | nullInPath | nullForSystem | badVariable => "ValueError"
  | noRepository | badRepository _ | foreignHost _ => "InvalidRepositoryError"
  | emptyCommand | notInstalled _ | exited .. | tool _ => "ToolError"
  | system name _ => name.text
  | noSuchFile _ => "FileNotFoundError"
  | noProcess => "ProcessLookupError"
  | unpairedForSystem _ => "UnicodeEncodeError"
  | timedOut => "TimeoutError"
  | calledOff => "CancelledError"
  | foreign name _ | wordless name _ => name.text
  | rateLimited _ => "RateLimitedError"
  | badCredentials _ => "AuthenticationError"
  | notFound _ => "NotFoundError"
  | host .. | isDirectory _ => "ContentSourceError"
  | connection _ => "RuntimeError"
  | malformedBlob => "Error"
  | tooDeep => "RecursionError"
  | malformedJson => "JSONDecodeError"
  | malformedYaml => "YAMLError"
  | noSuchCharacter n => if n < Nat.pow 2 31 then "ValueError" else "OverflowError"
  | emptyNumber => "IndexError"
  | notMoment => "AttributeError"
  | infinityToInteger | integerToInfinity => "OverflowError"
  | notPath _ | collectionAsMoment | noInteger _ | noReal _ | notIterable _
  | momentAgainstDay => "TypeError"
  | noEntries _ | noValue => "AttributeError"
  | template fault => ofTemplate fault
  | directoryRead _ => "IsADirectoryError"
  | fileInTheWay _ => "FileExistsError"
  | notDirectory _ => "NotADirectoryError"
  | pathTooLong _ => "OSError"
  | refused kind .. => kind.name
  | missingEntry _ => "KeyError"
  | notEncodable => "UnicodeEncodeError"

/-- The failure is that of a tool. -/
def isTool : Failure → Bool
  | emptyCommand | notInstalled _ | exited .. | tool _ => true
  | _ => false

/-- The failure is one of the operating system. -/
def isSystem : Failure → Bool
  | system .. | noSuchFile _ | noProcess | timedOut | directoryRead _ | fileInTheWay _
  | notDirectory _ | pathTooLong _ => true
  | _ => false

/-- The message, or the name of a failure that has none.  Where a failure cannot be put into words
this fails. -/
def report : Failure → Except Failure Text
  | wordless _ asking => .error asking
  | f => .ok (if f.message.isEmpty then f.name else f.message)

end Failure

end RepoScan
