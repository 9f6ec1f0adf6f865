import MeshProbe.Url.Basic
/-!
Reading the host of an address: a bracketed address of version 6, an address of version 4 in any
of its number forms, or a domain, which is put into its ASCII form.
-/

namespace MeshProbe

/-- The tables behind internationalized domain names. -/
class DomainNames where
  /-- The ASCII form of a domain that has characters beyond ASCII or labels that stand for such. -/
  toAscii : List Char → Option (List Char)

/-- No domain names but those that are their own ASCII form. -/
@[reducible]
def DomainNames.plain : DomainNames where
  toAscii _ := none

namespace Url

/-- A number in base sixteen after `0x`, in base eight after `0`, else in base ten. -/
def ipv4Number? (part : List Char) : Option Nat :=
  let read (base : Nat) (digits : List Char) : Option Nat :=
    digits.foldl (fun acc c => do
      let n ← acc
      let d ← if c.isDigit then some (c.toNat - 48)
        else if 'a' ≤ c ∧ c ≤ 'f' then some (c.toNat - 87)
        else if 'A' ≤ c ∧ c ≤ 'F' then some (c.toNat - 55)
        else none
      if d < base then some (n * base + d) else none) (some 0)
  match part with
  | [] => none
  | '0' :: 'x' :: digits | '0' :: 'X' :: digits => read 16 digits
  | '0' :: d :: digits => read 8 (d :: digits)
  | digits => read 10 digits

def splitDots : List Char → List (List Char)
  | [] => [[]]
  | c :: rest =>
    if c = '.' then [] :: splitDots rest
    else match splitDots rest with
      | part :: parts => (c :: part) :: parts
      | [] => [[c]]

/-- The parts of a domain; one dot at the end starts no part. -/
def domainParts (domain : List Char) : List (List Char) :=
  let parts := splitDots domain
  if 1 < parts.length && parts.getLast? == some [] then parts.dropLast else parts

/-- Whether a domain has to be an address of version 4. -/
def endsInNumber (domain : List Char) : Bool :=
  match (domainParts domain).getLast? with
  | none => false
  | some last => (last ≠ [] && last.all Char.isDigit) || (ipv4Number? last).isSome

/-- Every number but the last stands for one byte, the last fills the bytes that are left. -/
def ipv4Address? (domain : List Char) : Option Nat := do
  let parts := domainParts domain
  if 4 < parts.length then none
  let numbers ← parts.mapM ipv4Number?
  let last ← numbers.getLast?
  let leading := numbers.dropLast
  if Nat.pow 256 (4 - leading.length) ≤ last ∨ leading.any (255 < ·) then none
  else some <| last + leading.foldr (fun n acc => n * Nat.pow 256 3 + acc / 256) 0

def hexChar? (c : Char) : Option Nat :=
  if c.isDigit then some (c.toNat - 48)
  else if 'a' ≤ c ∧ c ≤ 'f' then some (c.toNat - 87)
  else if 'A' ≤ c ∧ c ≤ 'F' then some (c.toNat - 55)
  else none

/-- A decimal number up to 255 without leading zero. -/
def byteNumber? (digits : List Char) : Option Nat :=
  match digits with
  | [] => none
  | '0' :: _ :: _ => none
  | digits =>
    if digits.all Char.isDigit then
      let n := digits.foldl (fun n c => n * 10 + (c.toNat - 48)) 0
      if n ≤ 255 then some n else none
    else none

/-- Four bytes as two groups. -/
def embeddedIpv4? (text : List Char) : Option (List Nat) := do
  match ← (splitDots text).mapM byteNumber? with
  | [a, b, c, d] => some [a * 256 + b, c * 256 + d]
  | _ => none

/-- The groups of an address of version 6. `before` holds those in front of the double colon in
reverse, `gap` those since then, if it was met. Each step takes at least one character. -/
def ipv6Groups? : Nat → List Nat → Option (List Nat) → List Char → Option (List Nat)
  | 0, _, _, _ => none
  | steps + 1, before, gap, text =>
    let count := before.length + (gap.map (·.length + 1)).getD 0
    let add (g : Nat) : List Nat × Option (List Nat) :=
      match gap with
      | none => (g :: before, none)
      | some after => (before, some (g :: after))
    match text with
    | [] =>
      match gap with
      | none => if count = 8 then some before.reverse else none
      | some after =>
        let zeros := List.replicate (8 - before.length - after.length) 0
        some (before.reverse ++ zeros ++ after.reverse)
    | ':' :: rest =>
      if count = 8 || gap.isSome then none else ipv6Groups? steps before (some []) rest
    | text =>
      if count = 8 then none
      else
        let digits := (text.take 4).takeWhile (hexChar? · |>.isSome)
        let value := digits.foldl (fun n c => n * 16 + (hexChar? c).getD 0) 0
        match text.drop digits.length with
        | [] =>
          let (before, gap) := add value
          ipv6Groups? steps before gap []
        | ':' :: rest =>
          if rest = [] then none
          else
            let (before, gap) := add value
            ipv6Groups? steps before gap rest
        | '.' :: _ =>
          if digits = [] || 6 < count then none
          else do
            match ← embeddedIpv4? text with
            | [high, low] =>
              match gap with
              | none => ipv6Groups? steps (low :: high :: before) none []
              | some after => ipv6Groups? steps before (some (low :: high :: after)) []
            | _ => none
        | _ => none

def ipv6Address? (text : List Char) : Option (List Nat) :=
  match text with
  | ':' :: ':' :: rest => ipv6Groups? (rest.length + 2) [] (some []) rest
  | ':' :: _ => none
  | [] | [_] => none
  | text => ipv6Groups? (text.length + 2) [] none text

/-- ASCII characters that no domain holds. -/
def isForbiddenInDomain (c : Char) : Bool :=
  !Percent.isGraphic c ||
    ['%', '#', '/', ':', '<', '>', '?', '@', '[', '\\', ']', '^', '|'].contains c

/-- Whether a domain in lower case is its own ASCII form, with no label that stands for another. -/
def isPlainDomain (domain : List Char) : Bool :=
  domain.all (·.toNat < 128) && !(splitDots domain).any ("xn--".toList.isPrefixOf ·)

/-- The ASCII form of a domain. -/
def asciiDomain? [DomainNames] (domain : List Char) : Option (List Char) :=
  let lower := domain.map Char.toLower
  if isPlainDomain lower then some lower else DomainNames.toAscii domain

def Host.parse [DomainNames] (text : List Char) : Except ParseError Host :=
  match text with
  | '[' :: rest =>
    if rest.getLast? = some ']' then
      match ipv6Address? rest.dropLast with
      | some groups => .ok (.ipv6 groups)
      | none => .error .invalidIpv6
    else .error .invalidIpv6
  | text =>
    match (Utf8.decode? (Percent.decodeText text)).bind asciiDomain? with
    | none => .error .invalidDomain
    | some name =>
      if name.any isForbiddenInDomain then .error .invalidDomain
      else if name = [] then .error .emptyHost
      else if endsInNumber name then
        match ipv4Address? name with
        | some n => .ok (.ipv4 n)
        | none => .error .invalidIpv4
      else .ok (.domain name)

end Url

end MeshProbe
