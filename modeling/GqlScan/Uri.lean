import GqlScan.Path
import GqlScan.Text.Utf8
import GqlScan.Uri.Authority

/-!
# URIs of documents

The path of a document is what is left of its URI without scheme, authority, parameters, query and
fragment, with percent escapes undone. Escapes are undone last, so that an escaped question mark
or number sign belongs to the path.
-/

namespace GqlScan.Uri

open Text

/-! ## Percent escapes -/

/-- The bytes of an ASCII text whose escapes are undone. A percent sign that two hexadecimal digits
do not follow stands for itself. -/
def unescapeBytes : Text → List UInt8
  | '%' :: a :: b :: more =>
    match hexDigit? a, hexDigit? b with
    | some m, some n => UInt8.ofNat (m * 16 + n) :: unescapeBytes more
    | _, _ => UInt8.ofNat '%'.toNat :: unescapeBytes (a :: b :: more)
  | c :: rest => UInt8.ofNat c.toNat :: unescapeBytes rest
  | [] => []

/-- Whether a character is ASCII. -/
def isAscii (c : Char) : Bool := c.toNat < 0x80

/-- A text with its escapes undone. The bytes of each run of ASCII characters are decoded on their
own, leniently; other characters stay as they are. -/
def unescape (t : Text) : Text :=
  match t with
  | [] => []
  | c :: rest =>
    if isAscii c then
      Utf8.decodeLenient (unescapeBytes (c :: rest.takeWhile isAscii))
        ++ unescape (rest.dropWhile isAscii)
    else c :: unescape rest
termination_by t.length
decreasing_by
  · have := (List.dropWhile_suffix isAscii (l := rest)).length_le
    simp only [List.length_cons]
    omega
  · simp

/-! ## Parts -/

/-- Whether a character may stand in a scheme. -/
def isSchemeChar (c : Char) : Bool := c.isAlphanum || c == '+' || c == '-' || c == '.'

/-- The scheme of a URI in lower case, empty when there is none, and the text after it. A scheme
starts with a letter. -/
def splitScheme (t : Text) : Text × Text :=
  let scheme := before ':' t
  if ':' ∈ t ∧ scheme.head?.any Char.isAlpha ∧ scheme.all isSchemeChar then
    (scheme.map Char.toLower, after ':' t)
  else ([], t)

/-- The authority of a URI without its scheme, and the text after it. -/
def splitAuthority (t : Text) : Text × Text :=
  match t with
  | '/' :: '/' :: rest =>
    let isEnd := fun c => c == '/' || c == '?' || c == '#'
    (rest.takeWhile (!isEnd ·), rest.dropWhile (!isEnd ·))
  | _ => ([], t)

/-- The schemes whose last path segment can carry parameters. -/
def schemesWithParameters : List Text :=
  ["", "ftp", "hdl", "prospero", "http", "imap", "https", "shttp", "rtsp", "rtspu", "sip", "sips",
    "mms", "sftp", "tel"].map String.toList

/-- A path without the parameters of its last segment. -/
def dropParameters (t : Text) : Text :=
  let segment := (t.reverse.takeWhile (· != '/')).reverse
  t.take (t.length - segment.length) ++ before ';' segment

/-- Characters that are dropped in front of a URI: control characters and spaces. -/
def isLeading (c : Char) : Bool := c.toNat ≤ 0x20

/-- Characters that are dropped wherever they stand. -/
def isJunk (c : Char) : Bool := c == '\t' || c == '\r' || c == '\n'

/-- The path part of a URI, with its escapes. -/
def pathPart (uri : Text) : Except Fault Text := do
  let (scheme, rest) := splitScheme ((uri.dropWhile isLeading).filter (!isJunk ·))
  let (authority, rest) := splitAuthority rest
  checkAuthority authority
  let path := before '?' (before '#' rest)
  return if schemesWithParameters.contains scheme then dropParameters path else path

/-- The path that a URI names. -/
def toPath (uri : Text) : Except Fault Path := do return Path.ofText (unescape (← pathPart uri))

/-- Whether a URI names a document that is scanned. -/
def isDocument (uri : Text) : Except Fault Bool := do return (← toPath uri).isDocument

end GqlScan.Uri
