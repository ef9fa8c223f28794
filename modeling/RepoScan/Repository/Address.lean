import RepoScan.Failure
import RepoScan.Text.Case

/-!
# Addresses

The address of a page or of a remote repository: a scheme, an authority, and a path.  Query and
fragment are left out.

`Address.ofText` reads an address.  The authority is checked while it is read: its brackets have to
match and enclose the whole host, which then is a numeric address, and it must not hold a character
whose compatibility form is one of the delimiters.  `Address.host?` is the host that the authority names.
-/

namespace RepoScan

/-- An address without its query and fragment. -/
structure Address where
  /-- The scheme in lower case; empty where there is none. -/
  scheme : Text
  authority : Text
  path : Text
deriving DecidableEq

namespace Address

/-! ### Numeric hosts -/

/-- A part of a numeric address of version 4: a number up to 255 without leading zeros. -/
def isOctet (t : Text) : Bool :=
  !t.isEmpty && t.length ≤ 3 && t.all (·.isAsciiDigit) && (t.length = 1 || t.head? != some '0')
    && t.foldl (fun n c => n * 10 + (c.val - 48)) 0 ≤ 255

/-- A numeric address of version 4. -/
def isNumeric4 (t : Text) : Bool :=
  let octets := Text.splitOn '.' t
  octets.length = 4 && octets.all isOctet

/-- A part of a numeric address of version 6. -/
def isGroup (t : Text) : Bool := !t.isEmpty && t.length ≤ 4 && t.all (·.hexValue?.isSome)

/-- The parts of an address of version 6 with a trailing address of version 4 as two groups. -/
def groupsOf? (t : Text) : Option (List Text) :=
  let groups := Text.splitOn ':' t
  let last := groups.getLast?.getD []
  if groups.length < 3 then none
  else if !last.contains '.' then some groups
  else if isNumeric4 last then some (groups.dropLast ++ [("0" : Text), "0"]) else none

/-- One side of the gap in an address of version 6: groups, or nothing. -/
def isBesideGap (groups : List Text) : Bool := groups = [[]] || groups.all isGroup

/-- The parts between colons make up an address of version 6: eight groups, or at most seven with
one gap between them. -/
def areGroups (groups : List Text) : Bool :=
  let inner := (groups.drop 1).dropLast
  match (inner.filter List.isEmpty).length with
  | 0 => groups.length = 8 && groups.all isGroup
  | 1 =>
    let before := groups.take (1 + inner.findIdx List.isEmpty)
    let after := groups.drop (before.length + 1)
    isBesideGap before && isBesideGap after && ((before ++ after).filter isGroup).length ≤ 7
  | _ => false

/-- A numeric address of version 6, with an optional zone after a percent sign. -/
def isNumeric6 (t : Text) : Bool :=
  let (body, zone) := match Text.cut? "%" t with
    | some (body, zone) => (body, !zone.isEmpty && !zone.contains '%')
    | none => (t, true)
  zone && match groupsOf? body with
    | some groups => areGroups groups
    | none => false

/-- An address of a later version: a version in hexadecimal digits, a point, and the address. -/
def isFuture (t : Text) : Bool :=
  match Text.after? "v" t with
  | none => false
  | some t =>
    let digits := t.takeWhile (·.hexValue?.isSome)
    match t.drop digits.length with
    | c :: rest => !digits.isEmpty && c = '.' && !rest.isEmpty
    | [] => false

/-- What stands between brackets is a numeric address of version 6 or later. -/
def checkBracketed (host : Text) : Except Failure Unit :=
  if Text.startsWith host "v" then if isFuture host then .ok () else .error .badFutureAddress
  else if isNumeric4 host then .error .bracketedAddress
  else if isNumeric6 host then .ok ()
  else .error (.noNumericAddress host)

/-! ### Authorities -/

/-- Characters beyond ASCII whose compatibility form holds one of the delimiters of addresses. -/
def delimiterLike : List Nat :=
  [0x2047, 0x2048, 0x2049, 0x2100, 0x2101, 0x2105, 0x2106, 0x2A74, 0xFE13, 0xFE16, 0xFE55, 0xFE56,
    0xFE5F, 0xFE6B, 0xFF03, 0xFF0F, 0xFF1A, 0xFF1F, 0xFF20]

/-- The part of an authority that names the host and the port, after the user. -/
def placeOf (authority : Text) : Text :=
  match Text.cutLast? '@' authority with
  | some (_, place) => place
  | none => authority

/-- The host at a place: what is in brackets, or what comes before the port. -/
def hostAt (place : Text) : Text :=
  match Text.cut? "[" place with
  | some (_, inside) => inside.takeWhile fun c : CodePoint => c != ']'
  | none => place.takeWhile fun c : CodePoint => c != ':'

/-- Nothing stands in front of the brackets at a place, and behind them only a port. -/
def hasTightBrackets (place : Text) : Bool :=
  match Text.cut? "[" place with
  | some (front, inside) =>
    let behind := (inside.dropWhile fun c : CodePoint => c != ']').drop 1
    front.isEmpty && (behind.isEmpty || Text.startsWith behind ":")
  | none => true

/-- The brackets of an authority match and hold a numeric address. -/
def checkBrackets (authority : Text) : Except Failure Unit :=
  match authority.contains '[', authority.contains ']' with
  | false, false => .ok ()
  | true, true =>
    let place := placeOf authority
    if hasTightBrackets place then checkBracketed (hostAt place) else .error .unbalancedBrackets
  | _, _ => .error .unbalancedBrackets

/-- No character of an authority looks like a delimiter. -/
def checkDelimiters (authority : Text) : Except Failure Unit :=
  if authority.any fun c => delimiterLike.contains c.val then .error (.deceptiveHost authority)
  else .ok ()

/-- The host that an authority names, in lower case up to a zone. -/
def host? (a : Address) : Option Text :=
  let host := hostAt (placeOf a.authority)
  let (name, zone) := host.span fun c : CodePoint => c != '%'
  if host.isEmpty then none else some (Text.lower name ++ zone)

/-! ### Reading -/

/-- A character of a scheme. -/
def isSchemeCharacter (c : CodePoint) : Bool := c.isAsciiAlnum || c.isIn "+-."

/-- The scheme before the first colon, in lower case, and what follows the colon.  A scheme begins
with a letter; without one the text has no scheme. -/
def takeScheme (t : Text) : Text × Text :=
  match Text.cut? ":" t with
  | some (c :: scheme, rest) =>
    if c.isAsciiLetter && scheme.all isSchemeCharacter then (Text.lower (c :: scheme), rest)
    else ([], t)
  | _ => ([], t)

/-- A character that ends an authority. -/
def endsAuthority (c : CodePoint) : Bool := c == '/' || c == '?' || c == '#'

/-- The authority after two slashes at the start of a text, and the rest. -/
def takeAuthority (t : Text) : Text × Text :=
  match Text.after? "//" t with
  | some t => (t.takeWhile fun c => !endsAuthority c, t.dropWhile fun c => !endsAuthority c)
  | none => ([], t)

/-- The path without the parameters that its last component may have after a semicolon. -/
def withoutParameters (path : Text) : Text :=
  match Text.cutLast? '/' path with
  | some (front, last) =>
    if last.contains ';' then front ++ "/" ++ last.takeWhile (fun c : CodePoint => c != ';') else path
  | none => path.takeWhile fun c : CodePoint => c != ';'

/-- The schemes of web pages. -/
def webSchemes : List Text := ["http", "https"]

/-- The address that a text spells.  Control characters and blanks before it and line breaks and
tabs inside it do not count. -/
def ofText (t : Text) : Except Failure Address := do
  let t := (t.dropWhile fun c => c.val ≤ 32).filter fun c => !c.isIn "\t\r\n"
  let (scheme, t) := takeScheme t
  let (authority, t) := takeAuthority t
  checkBrackets authority
  let path := t.takeWhile fun c : CodePoint => c != '?' && c != '#'
  checkDelimiters authority
  let path := if webSchemes.contains scheme then withoutParameters path else path
  pure ⟨scheme, authority, path⟩

end Address

end RepoScan
