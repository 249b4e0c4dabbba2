import GqlScan.Text.Quoted

/-!
# Authorities

The part of a URI between two slashes and the next slash, question mark or number sign names a
host. Its brackets have to match and to hold an address, and it must not hold characters that
compatibility forms turn into punctuation of a URI.
-/

namespace GqlScan.Uri

open Text

/-- Why a URI is refused. -/
inductive Fault where
  | unbalancedBrackets
  | badFutureAddress
  | bracketedIPv4
  | notAnAddress (host : Text)
  | deceptiveAuthority (authority : Text)
  deriving DecidableEq, Repr

/-- The wording of a fault. -/
def Fault.message : Fault → Text
  | unbalancedBrackets => "Invalid IPv6 URL".toList
  | badFutureAddress => "IPvFuture address is invalid".toList
  | bracketedIPv4 => "An IPv4 address cannot be in brackets".toList
  | notAnAddress host => quoted host ++ " does not appear to be an IPv4 or IPv6 address".toList
  | deceptiveAuthority authority =>
    "netloc '".toList ++ authority
      ++ "' contains invalid characters under NFKC normalization".toList

/-! ## Addresses -/

/-- Whether a text is a number below 256 without leading zeros. -/
def isOctet (t : Text) : Bool :=
  !t.isEmpty && t.all Char.isDigit && t.length ≤ 3 && (t.length == 1 || t.head? != some '0')
    && t.foldl (fun n c => n * 10 + (c.toNat - '0'.toNat)) 0 < 256

/-- Whether a text is an address of four octets. -/
def isIPv4 (t : Text) : Bool := (splitOn '.' t).length == 4 && (splitOn '.' t).all isOctet

/-- Whether a text is a group of an address: one to four hexadecimal digits. -/
def isGroup (t : Text) : Bool := !t.isEmpty && t.length ≤ 4 && t.all fun c => (hexDigit? c).isSome

/-- The groups of an address, with a stand-in pair of groups for octets at its end. -/
def addressGroups? (t : Text) : Option (List Text) :=
  let parts := splitOn ':' t
  let last := parts.getLast?.getD []
  if parts.length < 3 then none
  else if '.' ∈ last then
    if isIPv4 last then some (parts.dropLast ++ [['0'], ['0']]) else none
  else some parts

/-- Whether groups make up an address. An empty group inside them stands for the zeros left out;
there is at most one, and an empty group at an end only next to it. -/
def areGroups (groups : List Text) : Bool :=
  let inner := (groups.drop 1).dropLast
  let first := groups.head?.getD []
  let last := groups.getLast?.getD []
  match inner.findIdx? List.isEmpty with
  | none => groups.length == 8 && groups.all isGroup
  | some i =>
    let front := groups.take (i + 1)
    let back := groups.drop (i + 2)
    let front' := if first = [] then front.drop 1 else front
    let back' := if last = [] then back.dropLast else back
    groups.length ≤ 9 && !(inner.drop (i + 1)).any List.isEmpty
      && (first != [] || front'.isEmpty) && (last != [] || back'.isEmpty)
      && front'.length + back'.length < 8 && front'.all isGroup && back'.all isGroup

/-- Whether a text is an address of eight groups, with an optional zone after a percent sign. -/
def isIPv6 (t : Text) : Bool :=
  let zoneIsFine := !(t.contains '%') || (after '%' t != [] && !(after '%' t).contains '%')
  zoneIsFine && ((addressGroups? (before '%' t)).any areGroups)

/-- Whether a text that starts with the letter v is an address of a version to come: hexadecimal
digits, a point and anything. -/
def isFutureAddress (t : Text) : Bool :=
  let version := (t.drop 1).takeWhile fun c => (hexDigit? c).isSome
  let rest := t.drop (1 + version.length)
  version != [] && rest.head? == some '.' && rest.length > 1

/-- Check a host whose authority holds brackets. -/
def checkHost (host : Text) : Except Fault Unit :=
  if host.head? = some 'v' then
    if isFutureAddress host then .ok () else .error .badFutureAddress
  else if isIPv4 host then .error .bracketedIPv4
  else if isIPv6 host then .ok ()
  else .error (.notAnAddress host)

/-- The code points whose compatibility forms hold a slash, question mark, number sign, at-sign or
colon. -/
def deceptive : List Nat :=
  [0x2047, 0x2048, 0x2049, 0x2100, 0x2101, 0x2105, 0x2106, 0x2A74, 0xFE13, 0xFE16, 0xFE55, 0xFE56,
    0xFE5F, 0xFE6B, 0xFF03, 0xFF0F, 0xFF1A, 0xFF1F, 0xFF20]

/-- The part of an authority after the user and the last at-sign. -/
def hostAndPort (authority : Text) : Text := (authority.reverse.takeWhile (· != '@')).reverse

/-- Check the brackets of an authority. They stand around the host: nothing comes before them, and
after them only a port. Where the brackets belong to the user, the host is checked like one in
brackets. -/
def checkBrackets (authority : Text) : Except Fault Unit :=
  match authority.contains '[', authority.contains ']' with
  | false, false => .ok ()
  | true, true =>
    match hostAndPort authority with
    | '[' :: bracketed =>
      let port := after ']' bracketed
      if port.isEmpty || port.head? = some ':' then checkHost (before ']' bracketed)
      else .error .unbalancedBrackets
    | place =>
      if '[' ∈ place then .error .unbalancedBrackets else checkHost (before ':' place)
  | _, _ => .error .unbalancedBrackets

/-- Check an authority. -/
def checkAuthority (authority : Text) : Except Fault Unit := do
  checkBrackets authority
  if authority.any fun c => c.toNat ∈ deceptive then throw (.deceptiveAuthority authority)

end GqlScan.Uri
