import MetricRelay.Url.Basic
import MetricRelay.Url.Domain

/-!
# Reading URLs

`Url.parse` reads an absolute URL. Blanks and controls around it, tabs and line ends inside it do
not count. Special schemes (`http`, `https`, `ws`, `wss`, `ftp`) need a host and take a backslash
for a slash; `file` may have a host; other schemes take nearly everything.

It is the reader of a network that is given no other. Names of hosts beyond ASCII it takes without the
full tables of their normal forms and without the rules for labels of two directions (`Domain`).
-/

namespace MetricRelay.Url

/-! ## Schemes -/

inductive SchemeKind where
  | file
  | special
  | plain
  deriving DecidableEq, Repr

def SchemeKind.ofName (scheme : String) : SchemeKind :=
  if scheme = "file" then .file
  else if ["http", "https", "ws", "wss", "ftp"].contains scheme then .special
  else .plain

/-- Whether a backslash counts as a slash. -/
def SchemeKind.takesBackslash (k : SchemeKind) : Bool := k ≠ .plain

def defaultPort? (scheme : String) : Option Nat :=
  if scheme = "http" ∨ scheme = "ws" then some 80
  else if scheme = "https" ∨ scheme = "wss" then some 443
  else if scheme = "ftp" then some 21
  else none

def isSchemeChar (c : Char) : Bool := c.isAlphanum || c = '+' || c = '-' || c = '.'

/-- A scheme in lower case, and what follows its colon. -/
def splitScheme? (s : List Char) : Option (String × List Char) :=
  match s.span isSchemeChar with
  | (name, ':' :: r) =>
    if name.head?.any Char.isAlpha then some (String.ofList (name.map Char.toLower), r) else none
  | _ => none

/-- Drops blanks and controls at both ends, and all tabs and line ends. -/
def clean (s : List Char) : List Char :=
  let edge (c : Char) : Bool := c.toNat ≤ 0x20
  let s := ((s.dropWhile edge).reverse.dropWhile edge).reverse
  s.filter fun c => !(c = '\t' || c = '\n' || c = '\r')

/-! ## Authorities -/

def isSlash (k : SchemeKind) (c : Char) : Bool := c = '/' || (k.takesBackslash && c = '\\')

/-- Where an authority ends. -/
def endsAuthority (k : SchemeKind) (c : Char) : Bool := isSlash k c || c = '?' || c = '#'

/-- What stands before and after the last `@`. -/
def splitLastAt (s : List Char) : Option (List Char × List Char) :=
  let after := (s.reverse.takeWhile (· ≠ '@')).reverse
  if after.length = s.length then none else some ((s.take (s.length - after.length)).dropLast, after)

/-- The characters that are encoded in a user or password. -/
def userReserved : String := " \"<>`#?\x7b\x7d/:;=@[\\]^|"

def encodeUser (s : List Char) : String := String.ofList (percentEncode userReserved s)

/-- A user and a password; an empty password is none. -/
def splitUser (s : List Char) : String × Option String :=
  match s.span (· ≠ ':') with
  | (user, _ :: password) =>
    (encodeUser user, if password = [] then none else some (encodeUser password))
  | (user, []) => (encodeUser user, none)

/-- The host part ends at a colon outside brackets. -/
def splitHost : Bool → List Char → List Char × List Char
  | _, [] => ([], [])
  | inside, c :: r =>
    if c = ':' ∧ ¬inside then ([], c :: r)
    else
      let (host, rest) := splitHost (if c = '[' then true else if c = ']' then false else inside) r
      (c :: host, rest)

/-- The inside of a host in brackets. -/
def bracketed (s : List Char) : Except Fault Host :=
  if s.getLast? = some ']' then
    match Address.readV6? (s.drop 1).dropLast with
    | some ps => .ok (.v6 ps)
    | none => .error .v6Address
  else .error .v6Address

/-- A host that names a machine. -/
def readHost (s : List Char) : Except Fault Host :=
  if s.head? = some '[' then bracketed s
  else
    match Domain.ofBytes? (percentDecode s) with
    | none => .error .domainName
    | some "" => .error .emptyHost
    | some name =>
      if Address.endsInNumber name.toList then
        match Address.readV4? name.toList with
        | some a => .ok (.v4 a)
        | none => .error .v4Address
      else .ok (.domain name)

/-- The characters that a host of a plain scheme may not have. -/
def hostReserved : List Char := "\x00\t\n\r #/:<>?@[\\]^|".toList

/-- A host of a plain scheme, which need not name a machine. -/
def readOpaqueHost (s : List Char) : Except Fault Host :=
  if s.head? = some '[' then bracketed s
  else if s.any hostReserved.contains then .error .hostCharacter
  else .ok (.domain (String.ofList (percentEncode "" s)))

/-- The digits of a port; none at all is no port. A backslash ends it. -/
def readPort (scheme : String) (s : List Char) : Except Fault (Option Nat) :=
  let (digits, rest) := s.span Char.isDigit
  match Address.digitsValue? 10 digits, rest.head? with
  | some n, next =>
    if 65535 < n ∨ next.any (· ≠ '\\') then .error .port
    else .ok (if digits = [] ∨ defaultPort? scheme = some n then none else some n)
  | none, _ => .error .port

structure Authority where
  user : String
  password : Option String
  host : Host
  port : Option Nat

/-- An authority; `more` says whether anything follows it. Credentials need a host, and so does a
bare `@` that something follows. -/
def readAuthority (scheme : String) (k : SchemeKind) (more : Bool) (s : List Char) :
    Except Fault Authority := do
  let (credentials, s) := (splitLastAt s).elim (none, s) fun (a, b) => (some a, b)
  let (user, password) := splitUser (credentials.getD [])
  if credentials = some [] ∧ s = [] ∧ more then throw .emptyHost
  let (name, rest) := splitHost false s
  if name = [] ∧ (k = .special ∨ user ≠ "" ∨ password.isSome) then throw .emptyHost
  let host ← if k = .plain then readOpaqueHost name else readHost name
  match rest with
  | [] => return ⟨user, password, host, none⟩
  | _ :: digits =>
    if host = .domain "" then throw .emptyHost
    return ⟨user, password, host, ← readPort scheme digits⟩

/-! ## Paths -/

def pathReserved : String := " \"<>`#?^\x7b\x7d"

def isDot (s : List Char) : Bool :=
  [".", "%2e"].contains (String.ofList (s.map Char.toLower))

def isDoubleDot (s : List Char) : Bool :=
  ["..", ".%2e", "%2e.", "%2e%2e"].contains (String.ofList (s.map Char.toLower))

/-- Resolves `.` and `..`; `kept` are the segments so far, newest first. -/
def resolve (kept : List (List Char)) : List (List Char) → List (List Char)
  | [] => kept.reverse
  | [s] =>
    if isDoubleDot s then ([] :: kept.drop 1).reverse
    else if isDot s then ([] :: kept).reverse
    else (percentEncode pathReserved s :: kept).reverse
  | s :: r =>
    if isDoubleDot s then resolve (kept.drop 1) r
    else if isDot s then resolve kept r
    else resolve (percentEncode pathReserved s :: kept) r

/-- The normal form of a path after its leading slash. -/
def normalPath (k : SchemeKind) (s : List Char) : List Char :=
  let s := s.map fun c => if isSlash k c then '/' else c
  '/' :: ['/'].intercalate (resolve [] (Text.splitOn '/' s))

def queryReserved (k : SchemeKind) : String := if k = .plain then " \"#<>" else " \"#<>'"

/-- What stands before a fragment, and between it and a question mark. -/
def splitQuery (k : SchemeKind) (s : List Char) : List Char × Option String :=
  match (s.takeWhile (· ≠ '#')).span (· ≠ '?') with
  | (path, _ :: query) => (path, some (String.ofList (percentEncode (queryReserved k) query)))
  | (path, []) => (path, none)

/-- The path of a URL with an authority; plain schemes may have none. -/
def readPath (k : SchemeKind) : List Char → List Char
  | [] => if k = .plain then [] else ['/']
  | c :: r => normalPath k (if isSlash k c then r else c :: r)

/-! ## The whole URL -/

/-- A URL after the slashes that begin its authority. -/
def parseHierarchical (scheme : String) (k : SchemeKind) (s : List Char) : Except Fault Url := do
  let (front, rest) := s.span (!endsAuthority k ·)
  let a ← readAuthority scheme k (!rest.isEmpty) front
  let (path, query) := splitQuery k rest
  return { scheme, user := a.user, password := a.password, host := some a.host, port := a.port,
           path := String.ofList (readPath k path), query }

/-- A letter and a colon or bar, as a drive is named. -/
def isDrive : List Char → Bool
  | [a, b] => a.isAlpha && (b = ':' || b = '|')
  | _ => false

/-- A file URL; a host is read only after two slashes. -/
def parseFile (s : List Char) : Except Fault Url := do
  let k := SchemeKind.file
  let (front, rest) ← match s with
    | a :: b :: r =>
      if isSlash k a ∧ isSlash k b then
        let (host, rest) := r.span (!endsAuthority k ·)
        pure (if isDrive host then ([], '/' :: r) else (host, rest))
      else pure ([], s)
    | _ => pure ([], s)
  let host ← if front = [] then pure none else
    match ← readHost front with
    | .domain "localhost" => pure none
    | h => pure (some h)
  let (path, query) := splitQuery k rest
  return { scheme := "file", host, path := String.ofList (readPath k path), query }

def parsePlain (scheme : String) (s : List Char) : Except Fault Url :=
  match s with
  | '/' :: '/' :: r => parseHierarchical scheme .plain r
  | _ =>
    let (path, query) := splitQuery .plain s
    let path := match path with
      | '/' :: r => normalPath .plain r
      | p => percentEncode "" p
    .ok { scheme, path := String.ofList path, query }

def parse (text : String) : Except Fault Url :=
  match splitScheme? (clean text.toList) with
  | none => .error .noScheme
  | some (scheme, rest) =>
    match SchemeKind.ofName scheme with
    | .file => parseFile rest
    | .special => parseHierarchical scheme .special (rest.dropWhile (isSlash .special))
    | .plain => parsePlain scheme rest

end MetricRelay.Url
