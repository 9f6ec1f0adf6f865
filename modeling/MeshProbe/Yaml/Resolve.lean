import MeshProbe.Yaml.Error
import MeshProbe.Yaml.Node
/-!
What a scalar stands for. A scalar in quotes is text; a plain one may be null, a truth value or a
number, by its spelling or by its tag.
-/

namespace MeshProbe.Yaml

/-! ### Numbers -/

/-- Digits of a base, at least one. -/
def digitsIn? (base : Nat) (text : List Char) : Option Nat :=
  match text with
  | [] => none
  | text => text.foldl (fun acc c => do
      let n ← acc
      let d ← hexValue? c
      if d < base then some (n * base + d) else none) (some 0)

/-- Digits behind an optional plus sign. -/
def unsignedIn? (base : Nat) (text : List Char) : Option Nat :=
  match text with
  | '+' :: digits => digitsIn? base digits
  | digits => digitsIn? base digits

/-- Digits behind an optional sign. -/
def signedIn? (base : Nat) (text : List Char) : Option Int :=
  match text with
  | '-' :: digits => (digitsIn? base digits).map fun n => -(n : Int)
  | text => (unsignedIn? base text).map Int.ofNat

def fitsUnsigned (n : Nat) (bits : Nat) : Bool := n < Nat.pow 2 bits

def fitsSigned (n : Int) (bits : Nat) : Bool :=
  let limit : Nat := Nat.pow 2 (bits - 1)
  decide (-(limit : Int) ≤ n) && decide (n < (limit : Int))

/-- The rest of a number with a mark for its base, and whether it is negative. -/
def behindMark (mark : Char) (text : List Char) : Option (Bool × List Char) :=
  match text with
  | '0' :: m :: rest | '+' :: '0' :: m :: rest => if m = mark then some (false, rest) else none
  | '-' :: '0' :: m :: rest => if m = mark then some (true, rest) else none
  | _ => none

/-- A number of 64 bits in base sixteen, eight or two. -/
def markedInteger? (text : List Char) : Option Int :=
  [('x', 16), ('o', 8), ('b', 2)].findSome? fun (mark, base) =>
    match behindMark mark text with
    | some (false, rest) => do
      let n ← unsignedIn? base rest
      if fitsUnsigned n 64 then some (n : Int) else none
    | some (true, rest) => do
      let n ← digitsIn? base rest
      if fitsSigned (-n) 64 then some (-(n : Int)) else none
    | none => none

/-- Digits with a zero in front, which make no number. -/
def isZeroPadded (text : List Char) : Bool :=
  match text.dropWhile fun c => c = '-' || c = '+' with
  | '0' :: d :: digits => (d :: digits).all Char.isDigit
  | _ => false

/-- A decimal number with optional point and exponent: digits and a power of ten. -/
def decimal? (text : List Char) : Option (Nat × Int) := do
  let whole := text.takeWhile Char.isDigit
  let rest := text.dropWhile Char.isDigit
  let (fraction, rest) := match rest with
    | '.' :: rest => (rest.takeWhile Char.isDigit, rest.dropWhile Char.isDigit)
    | rest => ([], rest)
  guard (whole ≠ [] ∨ fraction ≠ [])
  let exponent ← match rest with
    | [] => some 0
    | 'e' :: digits | 'E' :: digits => signedIn? 10 digits
    | _ => none
  let digits ← digitsIn? 10 (whole ++ fraction)
  return (digits, exponent - fraction.length)

/-- A finite number as its nearest binary one; `none` also when it is out of range. -/
def finite? (text : List Char) : Option Binary64 := do
  let (negative, text) := match text with
    | '-' :: rest => (true, rest)
    | '+' :: rest => (false, rest)
    | text => (false, text)
  let (digits, exponent) ← decimal? text
  Binary64.ofDecimal? negative digits exponent

def special? (text : String) : Option Real :=
  if [".nan", ".NaN", ".NAN"].contains text then some .nan
  else if ["-.inf", "-.Inf", "-.INF"].contains text then some (.infinite true)
  else if [".inf", ".Inf", ".INF"].contains
      (String.ofList (text.toList.dropWhile (· = '+'))) then some (.infinite false)
  else none

def real? (text : String) : Option Real :=
  special? text <|> (finite? text.toList).map Real.finite

/-! ### Scalars -/

inductive Scalar
  | null
  | bool (b : Bool)
  | integer (n : Int)
  | wide (n : Int)
  | real (x : Real)
  | string (s : String)
  deriving DecidableEq, Repr

def Scalar.found : Scalar → Found
  | null => .unit
  | bool b => .bool b
  | integer n => .integer n
  | wide n => .wide n
  | real x => .real x
  | string s => .string s

def isNullText (text : String) : Bool := text = "~" || text = "null"

def bool? (text : String) : Option Bool :=
  if text = "true" then some true else if text = "false" then some false else none

/-- A decimal integer, narrow if it fits 64 bits. -/
def decimalInteger? (text : List Char) : Option Scalar :=
  match signedIn? 10 text with
  | none => none
  | some n =>
    if (0 ≤ n && fitsUnsigned n.toNat 64) || fitsSigned n 64 then some (.integer n)
    else if (0 ≤ n && fitsUnsigned n.toNat 128) || fitsSigned n 128 then some (.wide n)
    else none

/-- A plain scalar without tag. -/
def resolvePlain (text : String) : Scalar :=
  if isNullText text then .null
  else
    match bool? text, markedInteger? text.toList with
    | some b, _ => .bool b
    | none, some n => .integer n
    | none, none =>
      if isZeroPadded text.toList then .string text
      else
        match decimalInteger? text.toList, real? text with
        | some s, _ => s
        | none, some x => .real x
        | none, none => .string text

/-- A plain scalar with a tag: the core ones want a certain spelling, all others leave it text. -/
def resolveTagged (tag : Tag) (text : String) : Except Problem Scalar :=
  let read {α : Type} (make : α → Scalar) (expected : String) (x : Option α) :=
    match x with
    | some a => Except.ok (make a)
    | none => .error (.wrongValue (.string text) expected)
  if tag = ⟨"!!", "bool"⟩ then read .bool "a boolean" (bool? text)
  else if tag = ⟨"!!", "int"⟩ then
    read .integer "an integer" ((signedIn? 10 text.toList).filter (fitsSigned · 64))
  else if tag = ⟨"!!", "float"⟩ then read .real "a float" (real? text)
  else if tag = ⟨"!!", "null"⟩ then
    read (fun () => .null) "null" (if isNullText text then some () else none)
  else .ok (.string text)

def resolve (isPlain : Bool) (tag : Option Tag) (text : String) : Except Problem Scalar :=
  if !isPlain then .ok (.string text)
  else
    match tag with
    | some tag => resolveTagged tag text
    | none => .ok (resolvePlain text)

/-- Whether a scalar says that there is no value. -/
def saysNone (isPlain : Bool) (tag : Option Tag) (text : String) : Except Problem Bool :=
  if !isPlain then .ok false
  else
    match tag with
    | none => .ok (isNullText text)
    | some tag =>
      if tag = ⟨"!!", "null"⟩ then
        if isNullText text then .ok true else .error (.wrongValue (.string text) "null")
      else .ok false

end MeshProbe.Yaml
