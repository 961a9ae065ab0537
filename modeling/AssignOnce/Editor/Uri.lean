import AssignOnce.Editor.Address
import AssignOnce.Editor.Path

/-!
# Documents by their URI

Editors name documents by URIs. `Uri.parse` takes a URI apart into its scheme and its path, of which
escapes are resolved; host, query and fragment are checked and dropped. `Uri.filePath` gives the
path of the file that a URI names, if its scheme is `file`.
-/

namespace AssignOnce

/-- What is wrong with a URI. -/
inductive UriFault where
  | controlCharacter
  | missingScheme
  | colonInFirstSegment
  | invalidEscape (bytes : Bytes)
  | missingBracket
  | invalidHostCharacter (byte : UInt8)
  | invalidPort (port : Bytes)
  | invalidUser
  /-- Brackets do not stand around an address of version 6 in front of the port. -/
  | invalidLiteral
  | invalidAddress (address : Bytes) (fault : AddressFault)
  deriving DecidableEq, Repr

namespace UriFault

/-- What is said of a faulty URI. -/
def message : UriFault → String
  | .controlCharacter => "net/url: invalid control character in URL"
  | .missingScheme => "missing protocol scheme"
  | .colonInFirstSegment => "first path segment in URL cannot contain colon"
  | .invalidEscape bytes => "invalid URL escape " ++ Quoted.render bytes
  | .missingBracket => "missing ']' in host"
  | .invalidHostCharacter byte => "invalid character " ++ Quoted.render [byte] ++ " in host name"
  | .invalidPort port => "invalid port " ++ Quoted.render port ++ " after host"
  | .invalidUser => "net/url: invalid userinfo"
  | .invalidLiteral => "invalid IP-literal"
  | .invalidAddress address fault => "invalid host: " ++ fault.message address

end UriFault

/-- Why a URI names no file. -/
inductive UriError where
  /-- A part of the URI is faulty. -/
  | malformed (uri : String) (part : Bytes) (fault : UriFault)
  | unsupportedScheme (scheme : String)
  deriving DecidableEq, Repr

namespace UriError

/-- What is said of a URI that names no file. -/
def message : UriError → String
  | .malformed uri part fault =>
    "invalid document URI " ++ Quoted.string uri ++ ": parse " ++ Quoted.render part ++ ": " ++
      fault.message
  | .unsupportedScheme scheme => "unsupported URI scheme " ++ Quoted.string scheme

end UriError

/-- A URI, as far as it names a file. -/
structure Uri where
  scheme : String
  path : Bytes
  deriving DecidableEq, Repr

namespace Uri

open Ascii (byte isOneOf)

/-- The part of a URI that is being read, which decides what escapes it may hold. -/
inductive Part where
  | host
  /-- The zone behind an address in brackets. -/
  | zone
  /-- A path, a fragment or the name of a user. -/
  | other
  deriving DecidableEq, Repr

/-- Whether a byte of a host must be escaped. -/
def mustEscape (b : UInt8) : Bool :=
  !(Ascii.isLetter b || Ascii.isDigit b || isOneOf "!$&()*+,;=:[]<>-_.~" b || b == 39 || b == 34)

/-- Whether an escape of a byte may not stand in a part. In a host only bytes outside ASCII and the
percent sign may be escaped. -/
def Part.refusesEscape (v : UInt8) : Part → Bool
  | .host => v < 128 && v != byte '%'
  | .zone => v != byte '%' && v != byte ' ' && mustEscape v
  | .other => false

/-- Whether a byte may not stand in a part as it is. -/
def Part.refusesByte (b : UInt8) : Part → Bool
  | .host | .zone => b < 128 && mustEscape b
  | .other => false

/-- A part with its escapes resolved. -/
def unescape (part : Part) : Bytes → Except UriFault Bytes
  | [] => .ok []
  | b :: rest =>
    if b = byte '%' then
      match rest with
      | h :: l :: rest =>
        match Ascii.hexDigit? h, Ascii.hexDigit? l with
        | some high, some low =>
          let v := UInt8.ofNat (16 * high + low)
          if part.refusesEscape v then .error (.invalidEscape [b, h, l])
          else (unescape part rest).map (v :: ·)
        | _, _ => .error (.invalidEscape [b, h, l])
      | rest => .error (.invalidEscape (b :: rest))
    else if part.refusesByte b then .error (.invalidHostCharacter b)
    else (unescape part rest).map (b :: ·)

/-- The text in front of the first byte of a kind, and the text behind it. -/
def cut (sep : UInt8) (text : Bytes) : Bytes × Bytes :=
  (text.takeWhile (· != sep), (text.dropWhile (· != sep)).drop 1)

/-- The text in front of the last byte of a kind, if there is one, and the text behind it. -/
def cutLast? (sep : UInt8) (text : Bytes) : Option (Bytes × Bytes) :=
  if text.contains sep then
    let (after, before) := cut sep text.reverse
    some (before.reverse, after.reverse)
  else none

/-- The scheme of a URI and what follows it; a URI without a valid scheme has an empty one. -/
def splitScheme (text : Bytes) : Except UriFault (Bytes × Bytes) :=
  let front := text.takeWhile fun b => Ascii.isLetter b || Ascii.isDigit b || isOneOf "+-." b
  match text.drop front.length with
  | b :: rest =>
    if b = byte ':' then
      match front.head? with
      | none => .error .missingScheme
      | some first => if Ascii.isLetter first then .ok (front, rest) else .ok ([], text)
    else .ok ([], text)
  | [] => .ok ([], text)

/-- Whether a port, if there is one, is a colon with digits. -/
def validPort : Bytes → Bool
  | [] => true
  | b :: rest => b == byte ':' && rest.all Ascii.isDigit

/-- An address in brackets with its escapes resolved. A zone may follow `%25`. -/
def unescapeAddress (address : Bytes) : Except UriFault Bytes :=
  let mark := [byte '%', byte '2', byte '5']
  match (List.range address.length).find? fun i => mark.isPrefixOf (address.drop i) with
  | some i => do
    let front ← unescape .host (address.take i)
    let zone ← unescape .zone (address.drop i)
    return front ++ zone
  | none => unescape .host address

/-- Checks an address in brackets. -/
def checkAddress (address : Bytes) : Except UriFault Unit := do
  let plain ← unescapeAddress address
  match Address.version plain with
  | .ok .six => return ()
  | .ok .four => throw .invalidLiteral
  | .error fault => throw (.invalidAddress plain fault)

/-- Checks a host that begins with a bracket, of which the text behind it is given. -/
def checkLiteral (opened : Bytes) : Except UriFault Unit :=
  match cutLast? (byte ']') opened with
  | none => .error .missingBracket
  | some (address, port) =>
    if validPort port then do
      discard (unescape .host port)
      checkAddress address
    else .error (.invalidPort port)

/-- Checks the host of a URI. Brackets stand only around the whole host. -/
def checkHost (host : Bytes) : Except UriFault Unit :=
  match cutLast? (byte '[') host, cutLast? (byte ':') host with
  | some (front, opened), _ => if front = [] then checkLiteral opened else .error .invalidLiteral
  | none, some (_, port) =>
    if validPort (byte ':' :: port) then do discard (unescape .host host)
    else .error (.invalidPort (byte ':' :: port))
  | none, none => do discard (unescape .host host)

/-- Checks the user of a URI. -/
def checkUser (user : Bytes) : Except UriFault Unit :=
  let valid := fun b =>
    Ascii.isLetter b || Ascii.isDigit b || isOneOf "-._:~!$&()*+,;=%@" b || b == 39
  if user.all valid then do
    discard (unescape .other (cut (byte ':') user).1)
    discard (unescape .other (cut (byte ':') user).2)
  else .error .invalidUser

/-- Checks what stands between `//` and the path. -/
def checkAuthority (authority : Bytes) : Except UriFault Unit :=
  match cutLast? (byte '@') authority with
  | some (user, host) => do
    checkHost host
    checkUser user
  | none => checkHost authority

/-- Whether what follows the scheme of a URI begins with an authority. Without a scheme three
slashes begin a path. -/
def hasAuthority (scheme rest : Bytes) : Bool :=
  let slash := byte '/'
  [slash, slash].isPrefixOf rest && !(scheme == [] && [slash, slash, slash].isPrefixOf rest)

/-- The path behind the scheme of a URI. A path behind a scheme that does not start with a slash is
no path of a file. -/
def pathOf (scheme rest : Bytes) : Except UriFault Bytes :=
  let slash := byte '/'
  if rest.head? ≠ some slash ∧ scheme ≠ [] then .ok []
  else if rest.head? ≠ some slash ∧ (cut slash rest).1.contains (byte ':') then
    .error .colonInFirstSegment
  else if hasAuthority scheme rest then do
    checkAuthority ((rest.drop 2).takeWhile (· != slash))
    unescape .other ((rest.drop 2).dropWhile (· != slash))
  else unescape .other rest

/-- Takes a URI without a fragment apart. -/
def parseReference (text : Bytes) : Except UriFault Uri :=
  if text.any fun b => b < 32 || b == 127 then .error .controlCharacter
  else if text = [byte '*'] then .ok ⟨"", text⟩
  else do
    let (scheme, rest) ← splitScheme text
    let path ← pathOf scheme (cut (byte '?') rest).1
    return ⟨(Utf8.toString scheme).map Char.toLower, path⟩

/-- Takes a URI apart. -/
def parse (uri : String) : Except UriError Uri :=
  let text := Utf8.encode uri
  let (reference, fragment) := cut (byte '#') text
  match parseReference reference with
  | .error fault => .error (.malformed uri reference fault)
  | .ok u =>
    match unescape .other fragment with
    | .error fault => .error (.malformed uri text fault)
    | .ok _ => .ok u

/-- The path of the file that a URI names. -/
def filePath (uri : String) : Except UriError Bytes :=
  match parse uri with
  | .error e => .error e
  | .ok u =>
    if u.scheme = "file" then .ok (Path.clean u.path)
    else .error (.unsupportedScheme u.scheme)

end Uri

end AssignOnce
