import Inspection.Url.Domain
import Inspection.Url.Form
import Inspection.Url.Ipv6

/-!
# Url

Addresses of the scheme `http`, by the URL standard: what a text denotes, how path segments and
query parameters are put behind it, and the text that is requested.

A path is a list of segments, and there is always one: the root has the empty segment.  Segments
of one or two dots do not stay: a dot says nothing, and two of them take back the segment before,
unless it looks like the letter of a drive.
-/

namespace Inspection

namespace Url

/-- The host of a URL. -/
inductive Host
  | domain (name : List Char)
  | ipv4 (address : Nat)
  | ipv6 (pieces : List Nat)
  deriving DecidableEq

end Url

/-- A URL of the scheme `http`.  Its parts are encoded already. -/
structure Url where
  /-- What stands before an `@`. -/
  credentials : List Char
  host : Url.Host
  port : Option Nat
  path : List (List Char)
  query : Option (List Char)
  fragment : Option (List Char)
  deriving DecidableEq

/-- Why a text is not a URL. -/
inductive UrlError
  | emptyHost
  | invalidPort
  | invalidIpv4
  | invalidIpv6
  | invalidDomain
  deriving DecidableEq, Repr

/-- The wording of an error. -/
def UrlError.message : UrlError → String
  | emptyHost => "empty host"
  | invalidPort => "invalid port number"
  | invalidIpv4 => "invalid IPv4 address"
  | invalidIpv6 => "invalid IPv6 address"
  | invalidDomain => "invalid international domain name"

namespace Url

/-! ### Hosts -/

/-- The text of a host. -/
def Host.render : Host → List Char
  | domain name => name
  | ipv4 address => Ipv4.render address
  | ipv6 pieces => '[' :: Ipv6.render pieces ++ [']']

/-- The host of a text. -/
def Host.read (cs : List Char) : Except UrlError Host :=
  match cs with
  | [] => .error .emptyHost
  | '[' :: inner =>
    if inner.getLast? = some ']' then
      match Ipv6.read? inner.dropLast with
      | some pieces => .ok (.ipv6 pieces)
      | none => .error .invalidIpv6
    else .error .invalidIpv6
  | cs =>
    match Domain.toAscii? (Text.decodeLossy (decode cs)).toList with
    | none => .error .invalidDomain
    | some [] => .error .emptyHost
    | some name =>
      if Ipv4.endsInNumber name then
        match Ipv4.read? name with
        | some address => .ok (.ipv4 address)
        | none => .error .invalidIpv4
      else .ok (.domain name)

/-! ### Paths -/

/-- Whether a segment stands for the same place. -/
def isDot (segment : List Char) : Bool :=
  segment.map Char.toLower ∈ [['.'], ['%', '2', 'e']]

/-- Whether a segment stands for the place before. -/
def isDoubleDot (segment : List Char) : Bool :=
  segment.map Char.toLower ∈
    [['.', '.'], ['%', '2', 'e', '.'], ['.', '%', '2', 'e'], ['%', '2', 'e', '%', '2', 'e']]

/-- Whether a segment looks like the letter of a drive. -/
def isDrive : List Char → Bool
  | [letter, mark] => letter.isAlpha && (mark = ':' || mark = '|')
  | _ => false

/-- Takes back the last segment. -/
def takeBack (path : List (List Char)) : List (List Char) :=
  match path.getLast? with
  | some last => if isDrive last then path else path.dropLast
  | none => []

/-- Puts a segment behind others; `last` tells whether no other one follows. -/
def push (path : List (List Char)) (segment : List Char) (last : Bool) : List (List Char) :=
  let close (path : List (List Char)) := if last then path ++ [[]] else path
  if isDoubleDot segment then close (takeBack path)
  else if isDot segment then close path
  else path ++ [segment]

/-- The path of some segments. -/
def pushAll (path : List (List Char)) : List (List Char) → List (List Char)
  | [] => path
  | [segment] => push path segment true
  | segment :: rest => pushAll (push path segment false) rest

/-- The path of a text that follows the host. -/
def readPath (cs : List Char) : List (List Char) :=
  let cs := cs.map fun c => if c = '\\' then '/' else c
  let cs := if cs.head? = some '/' then cs.drop 1 else cs
  pushAll [] ((Text.split '/' cs).map (encode EncodeSet.path))

/-! ### Reading -/

/-- Whether a character is left out wherever it stands. -/
def isIgnored (c : Char) : Bool := c = '\t' || c = '\n' || c = '\r'

/-- The end of the part of a URL that names the host. -/
def endsAuthority (c : Char) : Bool := c = '/' || c = '\\' || c = '?' || c = '#'

/-- A user name and a password, encoded.  An empty password leaves its colon out. -/
def encodeCredentials (cs : List Char) : List Char :=
  let name := encode EncodeSet.userinfo (cs.takeWhile (· ≠ ':'))
  let password := (cs.dropWhile (· ≠ ':')).drop 1
  let both := if password.isEmpty then name else name ++ ':' :: encode EncodeSet.userinfo password
  if both.isEmpty then [] else both ++ ['@']

/-- The text of a host, up to a colon outside brackets. -/
def splitHost (inside : Bool) : List Char → List Char × List Char
  | [] => ([], [])
  | c :: rest =>
    if c = ':' ∧ !inside then ([], c :: rest)
    else
      let inside := if c = '[' then true else if c = ']' then false else inside
      let found := splitHost inside rest
      (c :: found.1, found.2)

/-- The port that follows a host.  The default port is left out. -/
def readPort : List Char → Except UrlError (Option Nat)
  | [] => .ok none
  | _ :: cs =>
    if cs.isEmpty then .ok none
    else if !cs.all Char.isDigit then .error .invalidPort
    else
      let port := (Text.valueOf? cs).getD 0
      if port > 65535 then .error .invalidPort
      else if port = 80 then .ok none
      else .ok (some port)

/-- The part of a URL that names the host: credentials, host and port. -/
def readAuthority (cs : List Char) : Except UrlError (List Char × Host × Option Nat) := do
  let behind := (cs.reverse.takeWhile (· ≠ '@')).reverse
  let before := cs.take (cs.length - behind.length)
  let (host, port) := splitHost false behind
  let host ← Host.read host
  let port ← readPort port
  return (encodeCredentials before.dropLast, host, port)

/-- What follows the path: query and fragment. -/
def readTail (cs : List Char) : Option (List Char) × Option (List Char) :=
  let fragment := cs.dropWhile (· ≠ '#')
  let query := cs.takeWhile (· ≠ '#')
  (if query.isEmpty then none else some (encode EncodeSet.query (query.drop 1)),
    if fragment.isEmpty then none else some (encode EncodeSet.fragment (fragment.drop 1)))

/-- The URL of a text behind `http:`. -/
def read (text : String) : Except UrlError Url := do
  let cs := (text.toList.reverse.dropWhile (·.toNat ≤ 0x20)).reverse.filter (!isIgnored ·)
  let cs := cs.dropWhile fun c => c = '/' || c = '\\'
  let authority := cs.takeWhile (!endsAuthority ·)
  let rest := cs.dropWhile (!endsAuthority ·)
  let (credentials, host, port) ← readAuthority authority
  let path := readPath (rest.takeWhile fun c => c ≠ '?' && c ≠ '#')
  let (query, fragment) := readTail (rest.dropWhile fun c => c ≠ '?' && c ≠ '#')
  return { credentials, host, port, path, query, fragment }

/-! ### Building -/

/-- A path to which segments are about to be appended: without the empty segment at its end, and
without any if it is the root. -/
def openPath (path : List (List Char)) : List (List Char) :=
  if 2 ≤ path.length ∧ path.getLast? = some [] then path.dropLast else path

/-- Appends one segment, all of whose characters stand for themselves but the ignored ones. -/
def appendSegment (path : List (List Char)) (segment : String) : List (List Char) :=
  if segment = "." ∨ segment = ".." then path
  else
    push (if path = [[]] then [] else path)
      (encode EncodeSet.segment (segment.toList.filter (!isIgnored ·))) true

/-- Appends segments to the path. -/
def withSegments (url : Url) (segments : List String) : Url :=
  if segments.isEmpty then url
  else { url with path := segments.foldl appendSegment (openPath url.path) }

/-- Appends parameters to the query. -/
def withParams (url : Url) (params : List (String × String)) : Url :=
  if params.isEmpty then url
  else { url with query := some (Form.append (url.query.getD []) params) }

/-- The text of a URL. -/
def render (url : Url) : String :=
  String.ofList (['h', 't', 't', 'p', ':', '/', '/'] ++ url.credentials ++ url.host.render ++
    (match url.port with
      | some port => ':' :: Nat.toDigits 10 port
      | none => []) ++
    url.path.flatMap ('/' :: ·) ++
    (match url.query with
      | some query => '?' :: query
      | none => []) ++
    match url.fragment with
      | some fragment => '#' :: fragment
      | none => [])

end Url

end Inspection
