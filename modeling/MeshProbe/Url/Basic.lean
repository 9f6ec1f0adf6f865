import MeshProbe.Text.Percent
/-!
Addresses of the web: scheme, user information, host, port, path, query and fragment, each part
as it is written. The path is a list of segments and never empty: `/` is one empty segment.
-/

namespace MeshProbe

inductive Url.Scheme
  | http
  | https
  deriving DecidableEq, Repr

namespace Url.Scheme

def name : Scheme → String
  | http => "http"
  | https => "https"

def defaultPort : Scheme → Nat
  | http => 80
  | https => 443

end Url.Scheme

inductive Url.Host
  | domain (name : List Char)
  | ipv4 (address : Nat)
  /-- Eight groups of sixteen bits. -/
  | ipv6 (groups : List Nat)
  deriving DecidableEq, Repr

structure Url where
  scheme : Url.Scheme
  username : List Char
  password : Option (List Char)
  host : Url.Host
  /-- Absent when it is the scheme's own. -/
  port : Option Nat
  path : List (List Char)
  query : Option (List Char)
  fragment : Option (List Char)
  deriving DecidableEq, Repr

inductive Url.ParseError
  | relative
  | schemeNotHttp
  | emptyHost
  | invalidDomain
  | invalidPort
  | invalidIpv4
  | invalidIpv6
  deriving DecidableEq, Repr

namespace Url

def ParseError.message : ParseError → String
  | relative => "relative URL without a base"
  | schemeNotHttp => "URL scheme is not allowed"
  | emptyHost => "empty host"
  | invalidDomain => "invalid international domain name"
  | invalidPort => "invalid port number"
  | invalidIpv4 => "invalid IPv4 address"
  | invalidIpv6 => "invalid IPv6 address"

/-- How many groups at the start are zero. -/
def zeroRun (groups : List Nat) : Nat :=
  (groups.takeWhile (· == 0)).length

/-- Place and length of the longest run of zero groups, of several the first. -/
def longestZeroRun : Nat → List Nat → Nat × Nat
  | _, [] => (0, 0)
  | place, g :: rest =>
    let here := zeroRun (g :: rest)
    let (later, length) := longestZeroRun (place + 1) rest
    if length ≤ here then (place, here) else (later, length)

def joinGroups (groups : List Nat) : List Char :=
  [':'].intercalate (groups.map fun g => Nat.toDigits 16 g)

/-- The longest run of at least two zero groups is written as two colons. -/
def Host.renderGroups (groups : List Nat) : List Char :=
  let (place, length) := longestZeroRun 0 groups
  if length < 2 then joinGroups groups
  else joinGroups (groups.take place) ++ ':' :: ':' :: joinGroups (groups.drop (place + length))

def Host.render : Host → List Char
  | domain name => name
  | ipv4 n =>
    ['.'].intercalate
      ([n / 16777216, n / 65536 % 256, n / 256 % 256, n % 256].map (Nat.toDigits 10 ·))
  | ipv6 groups => '[' :: renderGroups groups ++ [']']

def renderPath (path : List (List Char)) : List Char :=
  path.flatMap ('/' :: ·)

def renderUserInfo (u : Url) : List Char :=
  match u.username, u.password with
  | [], none => []
  | name, none => name ++ ['@']
  | name, some password => name ++ ':' :: password ++ ['@']

def renderPort (u : Url) : List Char :=
  match u.port with
  | none => []
  | some p => ':' :: Nat.toDigits 10 p

def renderQuery (u : Url) : List Char :=
  match u.query with
  | none => []
  | some q => '?' :: q

def renderFragment (u : Url) : List Char :=
  match u.fragment with
  | none => []
  | some f => '#' :: f

/-- The port that is asked. -/
def effectivePort (u : Url) : Nat := u.port.getD u.scheme.defaultPort

/-- Scheme, user information, host and port. -/
def renderOrigin (u : Url) : List Char :=
  u.scheme.name.toList ++ ':' :: '/' :: '/' :: (u.renderUserInfo ++ u.host.render ++ u.renderPort)

def chars (u : Url) : List Char :=
  u.renderOrigin ++ renderPath u.path ++ u.renderQuery ++ u.renderFragment

def render (u : Url) : String := String.ofList u.chars

/-- Whether an address has no path that could be extended: no slash stands behind its scheme. -/
def cannotBeABase (u : Url) : Bool :=
  (u.chars.drop (u.scheme.name.length + 1)).head? != some '/'

def withoutUserInfo (u : Url) : Url :=
  { u with username := [], password := none }

/-- The address that a request line names: neither user information nor fragment. -/
def target (u : Url) : Url :=
  { u.withoutUserInfo with fragment := none }

/-- The address with pairs appended to its query; without pairs it stays as it is. -/
def appendQuery (u : Url) (pairs : List (String × String)) : Url :=
  match pairs with
  | [] => u
  | pairs =>
    let added := Form.encodePairs pairs
    match u.query with
    | none | some [] => { u with query := some added }
    | some q => { u with query := some (q ++ '&' :: added) }

/-- User name and password of the address, decoded. There is none if both are empty or the name
is not text; a password that is not text counts as missing. -/
def credentials? (u : Url) : Option (List Char × Option (List Char)) :=
  match Utf8.decode? (Percent.decodeText u.username) with
  | none => none
  | some name =>
    match name, u.password.bind (Utf8.decode? ∘ Percent.decodeText) with
    | [], none => none
    | name, password => some (name, password)

end Url

end MeshProbe
