import LanguageClient.Text.Quoted

/-!
# Hosts in brackets

The authority of a URI may name its host by an address in square brackets: an
IPv6 address, possibly with a scope, or an address of a future version.
-/

namespace LanguageClient.Uri

inductive HostError where
  /-- Brackets are not paired, or something stands next to them. -/
  | brackets
  /-- The address of a future version does not have its form. -/
  | futureAddress
  /-- The brackets hold an IPv4 address. -/
  | bracketedIPv4
  /-- The brackets hold no address. -/
  | notAnAddress (host : Text)
  /-- The authority has a character that is equivalent to a delimiter. -/
  | hiddenDelimiter (authority : Text)
deriving DecidableEq

def HostError.message : HostError → Text
  | brackets => "Invalid IPv6 URL"
  | futureAddress => "IPvFuture address is invalid"
  | bracketedIPv4 => "An IPv4 address cannot be in brackets"
  | notAnAddress host =>
    Quoted.text host ++ " does not appear to be an IPv4 or IPv6 address"
  | hiddenDelimiter authority =>
    "netloc '" ++ authority ++ "' contains invalid characters under NFKC normalization"

def isHexDigit (c : CodePoint) : Bool :=
  c.isAsciiDigit || (0x41 ≤ c.val && c.val ≤ 0x46) || (0x61 ≤ c.val && c.val ≤ 0x66)

/-- A number below 256 in decimal, without leading zeros. -/
def isOctet (t : Text) : Bool :=
  !t.isEmpty && t.length ≤ 3 && t.all CodePoint.isAsciiDigit &&
    (t.length = 1 || t.head? != some (CodePoint.ofChar '0')) &&
    t.foldl (fun n c => n * 10 + (c.val - 0x30)) 0 < 256

def isIPv4 (t : Text) : Bool :=
  let octets := Cut.pieces (CodePoint.ofChar '.') t
  octets.length = 4 && octets.all isOctet

def isGroup (t : Text) : Bool := !t.isEmpty && t.length ≤ 4 && t.all isHexDigit

/-- The parts between colons, an IPv4 address at the end counting as two groups. -/
def groups (address : Text) : Option (List Text) :=
  let parts := Cut.pieces (CodePoint.ofChar ':') address
  let last := parts.getLastD []
  if last.contains (CodePoint.ofChar '.') then
    if isIPv4 last then some (parts.dropLast ++ [Text.ofString "0", Text.ofString "0"]) else none
  else some parts

/-- Eight groups between colons, where one run of zero groups may be left out. -/
def isIPv6Address (address : Text) : Bool :=
  (Cut.pieces (CodePoint.ofChar ':') address).length ≥ 3 &&
  match groups address with
  | none => false
  | some parts =>
    let inner := (parts.drop 1).dropLast
    let front := parts.headD []
    let back := parts.getLastD []
    parts.length ≤ 9 && (parts.all fun p => p.isEmpty || isGroup p) &&
    match inner.findIdx? List.isEmpty with
    | none => parts.length = 8 && !front.isEmpty && !back.isEmpty
    | some i =>
      let before := if front.isEmpty then i else i + 1
      let behind := parts.length - i - 2 - (if back.isEmpty then 1 else 0)
      (inner.filter List.isEmpty).length = 1 &&
      (!front.isEmpty || before = 0) && (!back.isEmpty || behind = 0) && before + behind ≤ 7

/-- An IPv6 address, possibly with a scope behind `%`. -/
def isIPv6 (t : Text) : Bool :=
  match Cut.at? (CodePoint.ofChar '%') t with
  | none => isIPv6Address t
  | some (address, scope) =>
    !scope.isEmpty && !scope.contains (CodePoint.ofChar '%') && isIPv6Address address

/-- An address of a future version: `v`, hexadecimal digits, a point and more on one line. -/
def isFutureAddress (t : Text) : Bool :=
  let version := (t.drop 1).takeWhile isHexDigit
  match (t.drop 1).dropWhile isHexDigit with
  | point :: rest =>
    !version.isEmpty && point = CodePoint.ofChar '.' && !rest.isEmpty &&
      !rest.contains (CodePoint.ofChar '\n')
  | [] => false

/-- The host inside brackets is an address. -/
def checkBracketedHost (host : Text) : Except HostError Unit :=
  if host.head? = some (CodePoint.ofChar 'v') then
    if isFutureAddress host then .ok () else .error .futureAddress
  else if isIPv4 host then .error .bracketedIPv4
  else if isIPv6 host then .ok ()
  else .error (.notAnAddress host)

/-- In an authority with brackets the host is in the brackets, with nothing before and at most
a port behind them. -/
def checkBracketed (authority : Text) : Except HostError Unit :=
  let host := (Cut.last? (CodePoint.ofChar '@') authority).elim authority (·.2)
  match Cut.at? (CodePoint.ofChar '[') host with
  | some (before, bracketed) =>
    let (inside, behind) := (Cut.at? (CodePoint.ofChar ']') bracketed).getD (bracketed, [])
    if !before.isEmpty then .error .brackets
    else if !behind.isEmpty && behind.head? != some (CodePoint.ofChar ':') then .error .brackets
    else checkBracketedHost inside
  | none => checkBracketedHost ((Cut.at? (CodePoint.ofChar ':') host).elim host (·.1))

/-- The characters whose compatibility form has one of the delimiters `/`, `?`, `#`, `@`
and `:`. -/
def hiddenDelimiters : List Nat :=
  [0x2047, 0x2048, 0x2049, 0x2100, 0x2101, 0x2105, 0x2106, 0x2A74, 0xFE13, 0xFE16, 0xFE55, 0xFE56,
    0xFE5F, 0xFE6B, 0xFF03, 0xFF0F, 0xFF1A, 0xFF1F, 0xFF20]

/-- The authority has paired brackets with an address in them, and no hidden delimiter. -/
def checkAuthority (authority : Text) : Except HostError Unit := do
  let opens := authority.contains (CodePoint.ofChar '[')
  let closes := authority.contains (CodePoint.ofChar ']')
  if opens != closes then throw .brackets
  if opens && closes then checkBracketed authority
  if authority.any fun c => hiddenDelimiters.contains c.val then
    throw (.hiddenDelimiter authority)

end LanguageClient.Uri
