import TypedRoutes.Text.Hex
import TypedRoutes.Text.Quoted
import TypedRoutes.Text.Split

/-!
# URLs

Splitting a URL into its parts and resolving a reference against a base. `Url.resolve` keeps a
reference as it is where the base has no say in it: where one of the two is empty, and where the
schemes differ or the scheme does not know relative references.
-/

set_option autoImplicit false

namespace TypedRoutes.Url

/-- The parts of a URL. -/
structure Parts where
  scheme : List Char
  authority : List Char
  path : List Char
  parameters : List Char
  query : List Char
  fragment : List Char
  deriving DecidableEq, Repr

/-- Why a text is no URL. -/
inductive Fault where
  /-- A bracket stands without the other, or the host is more than what they enclose. -/
  | bracket
  /-- What stands between the brackets is no address. -/
  | address (host : String)
  /-- The address between the brackets is one that has none. -/
  | plainAddress
  /-- The address between the brackets is of a future version and malformed. -/
  | futureAddress
  /-- The authority holds a character that stands for a delimiter. -/
  | delimiter (authority : String)
  deriving DecidableEq, Repr

/-- The report of a fault. -/
def Fault.message : Fault → String
  | .bracket => "Invalid IPv6 URL"
  | .address host => Text.quoted host ++ " does not appear to be an IPv4 or IPv6 address"
  | .plainAddress => "An IPv4 address cannot be in brackets"
  | .futureAddress => "IPvFuture address is invalid"
  | .delimiter authority =>
    "netloc '" ++ authority ++ "' contains invalid characters under NFKC normalization"

/-- The schemes whose URLs can be relative; no scheme is one of them. -/
def relativeSchemes : List String :=
  ["", "ftp", "http", "gopher", "nntp", "imap", "wais", "file", "https", "shttp", "mms", "prospero",
    "rtsp", "rtspu", "sftp", "svn", "svn+ssh", "ws", "wss"]

/-- The schemes whose URLs have an authority. -/
def authoritySchemes : List String :=
  ["", "ftp", "http", "gopher", "nntp", "telnet", "imap", "wais", "file", "mms", "https", "shttp",
    "snews", "prospero", "rtsp", "rtspu", "rsync", "svn", "svn+ssh", "sftp", "nfs", "git",
    "git+ssh", "ws", "wss"]

/-- The schemes whose URLs have parameters after the last segment of the path. -/
def parameterSchemes : List String :=
  ["", "ftp", "hdl", "prospero", "http", "imap", "https", "shttp", "rtsp", "rtspu", "sip", "sips",
    "mms", "sftp", "tel"]

/-- Is the scheme in a list? -/
def isIn (scheme : List Char) (schemes : List String) : Bool :=
  schemes.contains (String.ofList scheme)

/-! ## Addresses between brackets -/

/-- A decimal number up to 255 without leading zeros. -/
def isOctet (cs : List Char) : Bool :=
  !cs.isEmpty && cs.all Char.isDigit && cs.length ≤ 3 && (cs = ['0'] || cs.head? ≠ some '0') &&
    cs.foldl (fun n c => n * 10 + (c.toNat - 48)) 0 ≤ 255

/-- Four octets with points between them. -/
def isDottedAddress (cs : List Char) : Bool :=
  let octets := Text.splitAt '.' cs
  octets.length = 4 && octets.all isOctet

/-- One to four hexadecimal digits. -/
def isGroup (cs : List Char) : Bool :=
  !cs.isEmpty && cs.length ≤ 4 && cs.all fun c => (Text.hexValue? c).isSome

/-- The groups of an address between its colons; four octets at its end count as two groups. -/
def groups? (cs : List Char) : Option (List (List Char)) :=
  let parts := Text.splitAt ':' cs
  match parts.getLast? with
  | some last =>
    if parts.length < 3 then none
    else if last.contains '.' then
      if isDottedAddress last then some (parts.dropLast ++ [['0'], ['0']]) else none
    else some parts
  | none => none

/-- Eight groups, or fewer around one empty place, which may reach an end of the address. -/
def areGroups (parts : List (List Char)) : Bool :=
  let inner := (parts.drop 1).dropLast
  if 9 < parts.length then false
  else match inner.findIdx? List.isEmpty with
    | none => parts.length = 8 && parts.all isGroup
    | some i =>
      let before := parts.take (i + 1)
      let after := parts.drop (i + 2)
      let before := if before = [[]] then [] else before
      let after := if after = [[]] then [] else after
      before.all isGroup && after.all isGroup && before.length + after.length < 8

/-- Is this an address of groups, with or without a zone after a percent sign? -/
def isGroupedAddress (cs : List Char) : Bool :=
  let (address, zone) := Text.cut '%' cs
  let zoneFits := match zone with
    | none => true
    | some z => !z.isEmpty && !z.contains '%'
  !cs.contains '/' && zoneFits && (groups? address).any areGroups

/-- An address of a future version: a `v`, its number, a point, and something more. -/
def isFutureAddress (cs : List Char) : Bool :=
  match cs with
  | 'v' :: rest =>
    let digits := rest.takeWhile fun c => (Text.hexValue? c).isSome
    match rest.drop digits.length with
    | '.' :: more => !digits.isEmpty && !more.isEmpty
    | _ => false
  | _ => false

/-- Checks the host between brackets. -/
def checkHost (host : List Char) : Except Fault Unit :=
  if host.head? = some 'v' then
    if isFutureAddress host then .ok () else .error .futureAddress
  else if isDottedAddress host then .error .plainAddress
  else if isGroupedAddress host then .ok ()
  else .error (.address (String.ofList host))

/-- The characters that hold a delimiter of URLs in their compatibility form. -/
def delimiterForms : List Char :=
  ['\u2047', '\u2048', '\u2049', '\u2100', '\u2101', '\u2105', '\u2106', '\u2a74', '\ufe13',
    '\ufe16', '\ufe55', '\ufe56', '\ufe5f', '\ufe6b', '\uff03', '\uff0f', '\uff1a', '\uff1f',
    '\uff20']

/-- The host of an authority, with the port: what follows the last at sign. -/
def hostAndPort (authority : List Char) : List Char :=
  (authority.reverse.takeWhile (· ≠ '@')).reverse

/-- Checks a host that has to be an address. Nothing may stand in front of its brackets, and only a
port behind them; a host without any ends at its port. -/
def checkAddress (host : List Char) : Except Fault Unit :=
  match Text.cut '[' host with
  | (_, none) => checkHost (host.takeWhile (· ≠ ':'))
  | (before, some enclosed) =>
    let (address, port) := Text.cut ']' enclosed
    if !before.isEmpty || (port.getD []).head?.any (· ≠ ':') then .error .bracket
    else checkHost address

/-- Checks the brackets of an authority: with any in it, its host has to be an address. -/
def checkBrackets (authority : List Char) : Except Fault Unit :=
  match authority.contains '[', authority.contains ']' with
  | true, true => checkAddress (hostAndPort authority)
  | false, false => .ok ()
  | _, _ => .error .bracket

/-! ## Splitting and joining -/

/-- Is the character a space or a control that may stand before a URL? -/
def isLeading (c : Char) : Bool := c.toNat ≤ 32

/-- Is the character one that is ignored wherever it stands? -/
def isIgnored (c : Char) : Bool := c = '\t' || c = '\r' || c = '\n'

/-- The characters of schemes. -/
def isSchemeChar (c : Char) : Bool := c.isAlphanum || c = '+' || c = '-' || c = '.'

/-- The scheme in front of a URL, in lower case, and what follows it. -/
def splitScheme (default cs : List Char) : List Char × List Char :=
  match Text.cut ':' cs with
  | (scheme, some rest) =>
    if scheme.head?.any Char.isAlpha && scheme.all isSchemeChar then
      (scheme.map Char.toLower, rest)
    else (default, cs)
  | _ => (default, cs)

/-- Does the authority end at this character? -/
def endsAuthority (c : Char) : Bool := c = '/' || c = '?' || c = '#'

/-- The authority after two slashes, and what follows it. -/
def splitAuthority (cs : List Char) : List Char × List Char :=
  match cs with
  | '/' :: '/' :: rest =>
    (rest.takeWhile fun c => !endsAuthority c, rest.dropWhile fun c => !endsAuthority c)
  | _ => ([], cs)

/-- The parameters after the first semicolon of the last segment of a path. -/
def splitParameters (path : List Char) : List Char × List Char :=
  let last := (path.reverse.takeWhile (· ≠ '/')).reverse
  match Text.cut ';' last with
  | (name, some parameters) =>
    (path.take (path.length - last.length) ++ name, parameters)
  | _ => (path, [])

/-- The parts of a URL, whose scheme may be given from outside. -/
def split (default : List Char) (text : String) : Except Fault Parts := do
  let cs := (text.toList.dropWhile isLeading).filter fun c => !isIgnored c
  let (scheme, cs) := splitScheme default cs
  let (authority, cs) := splitAuthority cs
  checkBrackets authority
  let (cs, fragment) := Text.cut '#' cs
  let (path, query) := Text.cut '?' cs
  if authority.any delimiterForms.contains then
    throw (.delimiter (String.ofList authority))
  let (path, parameters) :=
    if isIn scheme parameterSchemes then splitParameters path else (path, [])
  return ⟨scheme, authority, path, parameters, query.getD [], fragment.getD []⟩

/-- A part that is not empty, after its mark. -/
def marked (mark : Char) (part : List Char) : List Char := if part.isEmpty then [] else mark :: part

/-- The URL that parts make. Where the scheme asks for an authority, an empty one is written too,
unless the path starts with two slashes by itself. -/
def Parts.text (p : Parts) : String :=
  let path := p.path ++ marked ';' p.parameters
  let hasAuthority := !p.authority.isEmpty ||
    (!p.scheme.isEmpty && isIn p.scheme authoritySchemes && path.take 2 ≠ ['/', '/'])
  let path :=
    if hasAuthority then
      ['/', '/'] ++ p.authority ++
        (if path.isEmpty || path.head? = some '/' then path else '/' :: path)
    else path
  let front := if p.scheme.isEmpty then [] else p.scheme ++ [':']
  String.ofList (front ++ path ++ marked '?' p.query ++ marked '#' p.fragment)

/-! ## Resolving -/

/-- The segments without those that say "here" and "up", each of which takes the one before it
away. -/
def removeDots (segments : List (List Char)) : List (List Char) :=
  let kept := segments.foldl (fun kept segment =>
    if segment = ['.', '.'] then kept.dropLast
    else if segment = ['.'] then kept
    else kept ++ [segment]) []
  match segments.getLast? with
  | some last => if last = ['.'] ∨ last = ['.', '.'] then kept ++ [[]] else kept
  | none => kept

/-- The segments without the empty ones between the first and the last. -/
def dropInnerEmpty (segments : List (List Char)) : List (List Char) :=
  segments.take 1 ++ ((segments.drop 1).dropLast.filter fun s => !s.isEmpty) ++
    (segments.drop 1).getLast?.toList

/-- A path resolved against the path of a base: one that does not start at the root goes in the
place of the last segment. -/
def resolvePath (base path : List Char) : List Char :=
  let segments :=
    if path.head? = some '/' then Text.splitAt '/' path
    else
      let parts := Text.splitAt '/' base
      let parts := if parts.getLast? = some [] then parts else parts.dropLast
      dropInnerEmpty (parts ++ Text.splitAt '/' path)
  match ['/'].intercalate (removeDots segments) with
  | [] => ['/']
  | resolved => resolved

/-- A reference resolved against a base. -/
def resolve (base reference : String) : Except Fault String :=
  if base.isEmpty then .ok reference
  else if reference.isEmpty then .ok base
  else do
    let b ← split [] base
    let r ← split b.scheme reference
    if r.scheme ≠ b.scheme || !isIn r.scheme relativeSchemes then return reference
    if isIn r.scheme authoritySchemes && !r.authority.isEmpty then return r.text
    let authority := if isIn r.scheme authoritySchemes then b.authority else r.authority
    if r.path.isEmpty && r.parameters.isEmpty then
      let query := if r.query.isEmpty then b.query else r.query
      return { r with authority, path := b.path, parameters := b.parameters, query }.text
    return { r with authority, path := resolvePath b.path r.path }.text

example : (resolve "http://h/a/b/c/" "../d?x").toOption = some "http://h/a/b/d?x" := by
  decide +kernel
example : (resolve "http://h/a" "//other/c").toOption = some "http://other/c" := by decide +kernel

end TypedRoutes.Url
