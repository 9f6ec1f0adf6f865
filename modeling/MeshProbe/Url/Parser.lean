import MeshProbe.Url.Host
import MeshProbe.Url.Path
/-!
Reading the text of an address. Blanks and control characters at both ends and tabs and line
breaks anywhere do not count, and a backslash is a slash.
-/

namespace MeshProbe.Url

def isSlash (c : Char) : Bool := c = '/' || c = '\\'

/-- What ends the part of an address that names the host. -/
def endsAuthority (c : Char) : Bool :=
  isSlash c || c = '?' || c = '#'

/-- The text without what does not count. -/
def clean (text : List Char) : List Char :=
  let trimmed := (text.dropWhile (· ≤ ' ')).reverse.dropWhile (· ≤ ' ')
  trimmed.reverse.filter (!isIgnored ·)

/-- The scheme in front of the first colon, and what follows the colon. -/
def splitScheme (text : List Char) : Except ParseError (Scheme × List Char) :=
  let isSchemeChar (c : Char) : Bool := c.isAlphanum || c = '+' || c = '-' || c = '.'
  let name := text.takeWhile isSchemeChar
  match name, text.dropWhile isSchemeChar with
  | first :: _, ':' :: rest =>
    if !first.isAlpha then .error .relative
    else
      let lower := String.ofList (name.map Char.toLower)
      if lower = "http" then .ok (.http, rest)
      else if lower = "https" then .ok (.https, rest)
      else .error .schemeNotHttp
  | _, _ => .error .relative

/-- User name and password in front of the last at sign. -/
def parseUserInfo (text : List Char) : List Char × Option (List Char) :=
  let encode := Percent.encode Percent.keepsUserInfo
  let name := text.takeWhile (· ≠ ':')
  match text.dropWhile (· ≠ ':') with
  | _ :: first :: rest => (encode name, some (encode (first :: rest)))
  | _ => (encode name, none)

/-- The host text, and what follows it. A colon inside brackets belongs to the host. -/
def splitHost : Bool → List Char → List Char × List Char
  | _, [] => ([], [])
  | bracketed, c :: rest =>
    if c = ':' && !bracketed then ([], c :: rest)
    else
      let (host, rest) := splitHost (c = '[' || (bracketed && c ≠ ']')) rest
      (c :: host, rest)

/-- A port after its colon: absent when it has no digit or is the scheme's own. -/
def parsePort (scheme : Scheme) (digits : List Char) : Except ParseError (Option Nat) :=
  let value := digits.foldl (fun n c => n * 10 + (c.toNat - 48)) 0
  if !digits.all Char.isDigit || 65535 < value then .error .invalidPort
  else if digits = [] || value = scheme.defaultPort then .ok none
  else .ok (some value)

def parseHostAndPort [DomainNames] (scheme : Scheme) (text : List Char) :
    Except ParseError (Host × Option Nat) := do
  let (hostText, rest) := splitHost false text
  if hostText = [] then throw .emptyHost
  let host ← Host.parse hostText
  match rest with
  | _ :: digits =>
    let port ← parsePort scheme digits
    return (host, port)
  | [] => return (host, none)

def splitSlashes : List Char → List (List Char)
  | [] => [[]]
  | c :: rest =>
    if isSlash c then [] :: splitSlashes rest
    else match splitSlashes rest with
      | part :: parts => (c :: part) :: parts
      | [] => [[c]]

/-- The segments of a path; its leading slash may be missing. -/
def parsePath (text : List Char) : List (List Char) :=
  let body := match text with
    | c :: rest => if isSlash c then rest else c :: rest
    | [] => []
  resolvePath [] ((splitSlashes body).map (Percent.encode Percent.keepsPath))

/-- The query after its question mark. -/
def parseQuery (text : List Char) : Option (List Char) :=
  match text with
  | [] => none
  | _ :: query => some (Percent.encode Percent.keepsQuery query)

def parseFragment (text : List Char) : Option (List Char) :=
  match text with
  | [] => none
  | _ :: fragment => some (Percent.encode Percent.keepsFragment fragment)

def parseChars [DomainNames] (text : List Char) : Except ParseError Url := do
  let (scheme, rest) ← splitScheme (clean text)
  let rest := rest.dropWhile isSlash
  let authority := rest.takeWhile (!endsAuthority ·)
  let rest := rest.dropWhile (!endsAuthority ·)
  let (user, hostText) :=
    if authority.contains '@' then
      let hostText := (authority.reverse.takeWhile (· ≠ '@')).reverse
      (authority.take (authority.length - hostText.length - 1), hostText)
    else ([], authority)
  let (username, password) := parseUserInfo user
  let (host, port) ← parseHostAndPort scheme hostText
  let (beforeFragment, fragment) := rest.span (· ≠ '#')
  let (path, query) := beforeFragment.span (· ≠ '?')
  return { scheme, username, password, host, port
           path := parsePath path
           query := parseQuery query
           fragment := parseFragment fragment }

/-- Reads an address with one of the two schemes of the web. -/
def parse [DomainNames] (text : String) : Except ParseError Url := parseChars text.toList

end MeshProbe.Url
