import ServerFleet.Text.Bytes

/-!
Which texts are references to resources: an optional scheme, an optional authority, a path, an
optional query and an optional fragment, each of the characters its place allows.
-/

namespace ServerFleet.Protocol.Uri

def isAlpha (c : Char) : Bool := ('a' ≤ c && c ≤ 'z') || ('A' ≤ c && c ≤ 'Z')

def isDigit (c : Char) : Bool := '0' ≤ c && c ≤ '9'

/-- The characters that stand for themselves everywhere. -/
def isUnreserved (c : Char) : Bool :=
  isAlpha c || isDigit c || c == '-' || c == '.' || c == '_' || c == '~'

def isSubDelimiter (c : Char) : Bool := "!$&()*+,;=".toList.contains c || c == '\x27'

/-- Whether a text has allowed characters and escapes of two hexadecimal digits only. -/
def allowed (extra : Char → Bool) : List Char → Bool
  | [] => true
  | '%' :: a :: b :: rest =>
    (Bytes.hexDigit? a).isSome && (Bytes.hexDigit? b).isSome && allowed extra rest
  | c :: rest => (isUnreserved c || isSubDelimiter c || extra c) && allowed extra rest

/-- The scheme in front of the first colon and what follows it. -/
def splitScheme (cs : List Char) : Option (List Char) × List Char :=
  let head := cs.takeWhile fun c => c != ':' && c != '/' && c != '?' && c != '#'
  match cs.drop head.length with
  | ':' :: rest => (some head, rest)
  | _ => (none, cs)

def validScheme : List Char → Bool
  | [] => false
  | c :: rest =>
    isAlpha c && rest.all fun c => isAlpha c || isDigit c || c == '+' || c == '-' || c == '.'

/-- The part up to one of the marks, and the rest. -/
def upTo (marks : List Char) (cs : List Char) : List Char × List Char :=
  let head := cs.takeWhile fun c => !marks.contains c
  (head, cs.drop head.length)

/-- A number of at most three digits below 256, without a leading zero. -/
def isOctet (cs : List Char) : Bool :=
  cs.length ≤ 3 && !cs.isEmpty && cs.all isDigit && (cs.length == 1 || cs.head? != some '0') &&
    cs.foldl (fun n c => n * 10 + (c.toNat - 48)) 0 < 256

/-- Parts of a text between the characters equal to `mark`. -/
def splitAt (mark : Char) : List Char → List (List Char)
  | [] => [[]]
  | c :: rest =>
    match splitAt mark rest with
    | [] => [[c]]
    | part :: parts => if c = mark then [] :: part :: parts else (c :: part) :: parts

def isDottedQuad (cs : List Char) : Bool :=
  let parts := splitAt '.' cs
  parts.length == 4 && parts.all isOctet

def isGroup (cs : List Char) : Bool :=
  1 ≤ cs.length && cs.length ≤ 4 && cs.all fun c => (Bytes.hexDigit? c).isSome

/-- The number of groups in a run without a doubled colon; the last may be a dotted quad. -/
def groupCount? (cs : List Char) : Option Nat :=
  if cs.isEmpty then some 0
  else
    let parts := splitAt ':' cs
    match parts.getLast? with
    | none => none
    | some last =>
      if parts.dropLast.all isGroup then
        if isGroup last then some parts.length
        else if isDottedQuad last then some (parts.length + 1)
        else none
      else none

def splitDoubled (before : List Char) : List Char → Option (List Char × List Char)
  | ':' :: ':' :: rest => some (before.reverse, rest)
  | c :: rest => splitDoubled (c :: before) rest
  | [] => none

/-- An address of eight groups, some of which a doubled colon may stand for. -/
def isLongAddress (cs : List Char) : Bool :=
  match splitDoubled [] cs with
  | none => groupCount? cs == some 8
  | some (left, right) =>
    match groupCount? left, groupCount? right with
    | some a, some b => a + b ≤ 7 && !left.contains '.'
    | _, _ => false

def isBracketed (cs : List Char) : Bool :=
  match cs with
  | 'v' :: rest | 'V' :: rest =>
    let (version, tail) := upTo ['.'] rest
    !version.isEmpty && version.all (fun c => (Bytes.hexDigit? c).isSome) &&
      match tail with
      | '.' :: body =>
        !body.isEmpty && body.all fun c => isUnreserved c || isSubDelimiter c || c == ':'
      | _ => false
  | other => isLongAddress other

/-- A colon with the number of a service, or nothing. -/
def isServiceNumber (cs : List Char) : Bool :=
  match cs with
  | [] => true
  | ':' :: digits => digits.all isDigit
  | _ => false

def isHostPart (cs : List Char) : Bool :=
  match cs with
  | '[' :: rest =>
    let (inner, tail) := upTo [']'] rest
    match tail with
    | ']' :: number => isBracketed inner && isServiceNumber number
    | _ => false
  | other =>
    let (host, number) := upTo [':'] other
    allowed (fun _ => false) host && isServiceNumber number

/-- User information, a host and perhaps a service number. -/
def validAuthority (cs : List Char) : Bool :=
  let (user, rest) := upTo ['@'] cs
  match rest with
  | '@' :: host => allowed (· == ':') user && isHostPart host
  | _ => isHostPart cs

def validBody (hasScheme : Bool) (cs : List Char) : Bool :=
  let (hierarchy, rest) := upTo ['?', '#'] cs
  let (query, rest) := match rest with
    | '?' :: tail => upTo ['#'] tail
    | other => ([], other)
  let fragment := rest.drop 1
  let (authorityOk, path) := match hierarchy with
    | '/' :: '/' :: tail =>
      let (authority, path) := upTo ['/'] tail
      (validAuthority authority, path)
    | other => (true, other)
  authorityOk && allowed (fun c => c == ':' || c == '@' || c == '/') path &&
    (hasScheme || !((upTo ['/'] path).1.contains ':')) &&
    allowed (fun c => c == ':' || c == '@' || c == '/' || c == '?') query &&
    allowed (fun c => c == ':' || c == '@' || c == '/' || c == '?') fragment

def isReference (s : String) : Bool :=
  match splitScheme s.toList with
  | (some scheme, rest) => validScheme scheme && validBody true rest
  | (none, all) => validBody false all

end ServerFleet.Protocol.Uri
