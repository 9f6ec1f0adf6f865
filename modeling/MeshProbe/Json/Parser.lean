import MeshProbe.Json.Error
import MeshProbe.Json.Value
/-!
Reading JSON from bytes. A reader takes the input and answers with a value and the input after
it, or with a cause and the input after the place to blame. Values nest at most to a given depth.
-/

namespace MeshProbe.Json

structure Failure where
  cause : Cause
  /-- The input after the place where the fault is reported. -/
  rest : Bytes
  deriving DecidableEq, Repr

/-- Reads a value off the input and answers with the input after it. -/
abbrev Reader (α : Type) := Bytes → Except Failure (α × Bytes)

/-- A fault at the input read so far. -/
def failAt {α : Type} (cause : Cause) (rest : Bytes) : Except Failure α :=
  .error ⟨cause, rest⟩

def isBlank (b : UInt8) : Bool :=
  b == 32 || b == 10 || b == 9 || b == 13

def skipBlanks (input : Bytes) : Bytes :=
  input.dropWhile isBlank

def isDigit (b : UInt8) : Bool :=
  48 ≤ b && b ≤ 57

def digitValue (b : UInt8) : Nat :=
  b.toNat - 48

/-- The rest of a word, and the value that the whole word stands for. -/
def word (value : Value) : Bytes → Bytes → Except Failure (Value × Bytes)
  | [], input => .ok (value, input)
  | _ :: _, [] => failAt .endInValue []
  | expected :: more, b :: rest =>
    if b = expected then word value more rest else failAt .expectedIdent rest

/-! ### Numbers -/

/-- The largest significand and the largest exponent that are read exactly. -/
def maxSignificand : Nat := Nat.pow 2 64 - 1

def maxWrittenExponent : Nat := Nat.pow 2 31 - 1

/-- Reads digits on top of a number as long as it stays within a limit: the number, how many
digits were read, and the rest. -/
def readDigits (limit : Nat) : Nat → Nat → Bytes → Nat × Nat × Bytes
  | n, count, [] => (n, count, [])
  | n, count, b :: rest =>
    if isDigit b && decide (n * 10 + digitValue b ≤ limit) then
      readDigits limit (n * 10 + digitValue b) (count + 1) rest
    else (n, count, b :: rest)

def startsWithDigit : Bytes → Bool
  | [] => false
  | b :: _ => isDigit b

/-- Ten to a power of at most 308, rounded. -/
def powerOfTen (k : Nat) : Binary64 :=
  (Binary64.ofDecimal? false 1 k).getD (Binary64.zero false)

/-- `x * 10 ^ exponent`, rounded at each step of at most 308 powers. -/
def scaleReal : Nat → Binary64 → Int → Option Binary64
  | 0, x, _ => some x
  | steps + 1, x, exponent =>
    if exponent.natAbs ≤ 308 then
      if 0 ≤ exponent then x.mul? (powerOfTen exponent.natAbs)
      else x.div? (powerOfTen exponent.natAbs)
    else if x.isZero then some x
    else if 0 ≤ exponent then none
    else (x.div? (powerOfTen 308)).bind fun y => scaleReal steps y (exponent + 308)

/-- The number `± significand * 10 ^ exponent`. -/
def realOf (negative : Bool) (significand : Nat) (exponent : Int) (rest : Bytes) :
    Except Failure (Number × Bytes) :=
  let steps := exponent.natAbs / 308 + 1
  match (Binary64.ofNat? significand).bind (scaleReal steps · exponent) with
  | some x => .ok (.real { x with negative }, rest)
  | none => failAt .numberOutOfRange rest

/-- What follows the letter of an exponent. -/
def exponentPart (negative : Bool) (significand : Nat) (start : Int) (input : Bytes) :
    Except Failure (Number × Bytes) :=
  let (negativeExponent, input) := match input with
    | 43 :: rest => (false, rest)
    | 45 :: rest => (true, rest)
    | rest => (false, rest)
  match input with
  | [] => failAt .endInValue []
  | b :: rest =>
    if !isDigit b then failAt .invalidNumber rest
    else
      let (written, _, rest) := readDigits maxWrittenExponent (digitValue b) 0 rest
      if startsWithDigit rest then
        if significand ≠ 0 && !negativeExponent then failAt .numberOutOfRange (rest.drop 1)
        else .ok (.real (Binary64.zero negative), rest.dropWhile isDigit)
      else
        realOf negative significand (if negativeExponent then start - written else start + written)
          rest

def startsExponent (b : UInt8) : Bool :=
  b == 101 || b == 69

/-- The end of a number whose digits are read. -/
def afterDigits (negative : Bool) (significand : Nat) (exponent : Int) (input : Bytes) :
    Except Failure (Number × Bytes) :=
  match input with
  | b :: rest =>
    if startsExponent b then exponentPart negative significand exponent rest
    else realOf negative significand exponent input
  | [] => realOf negative significand exponent []

/-- What follows a decimal point. Digits that no longer fit are dropped. -/
def fractionPart (negative : Bool) (significand : Nat) (exponent : Int) (input : Bytes) :
    Except Failure (Number × Bytes) :=
  let (n, count, rest) := readDigits maxSignificand significand 0 input
  if startsWithDigit rest then afterDigits negative n (exponent - count) (rest.dropWhile isDigit)
  else if count = 0 then
    match rest with
    | [] => failAt .endInValue []
    | _ :: after => failAt .invalidNumber after
  else afterDigits negative n (exponent - count) rest

/-- The end of a number whose whole digits are read: without point and exponent it is an integer
if it fits 64 bits. -/
def afterInteger (negative : Bool) (n : Nat) (input : Bytes) : Except Failure (Number × Bytes) :=
  let whole : Number :=
    if !negative then .integer n
    else if n = 0 ∨ Nat.pow 2 63 < n then
      .real { (Binary64.ofNat? n).getD (Binary64.zero false) with negative := true }
    else .integer (-n)
  match input with
  | 46 :: rest => fractionPart negative n 0 rest
  | b :: rest =>
    if startsExponent b then exponentPart negative n 0 rest else .ok (whole, input)
  | [] => .ok (whole, [])

def number (negative : Bool) : Reader Number
  | [] => failAt .endInValue []
  | b :: rest =>
    if b = 48 then
      match rest with
      | c :: after =>
        if isDigit c then failAt .invalidNumber after else afterInteger negative 0 rest
      | [] => afterInteger negative 0 []
    else if isDigit b then
      let (n, _, rest) := readDigits maxSignificand (digitValue b) 0 rest
      if startsWithDigit rest then
        let dropped := (rest.takeWhile isDigit).length
        match rest.dropWhile isDigit with
        | 46 :: after => fractionPart negative n dropped after
        | after => afterDigits negative n dropped after
      else afterInteger negative n rest
    else failAt .invalidNumber rest

/-! ### Strings -/

def hexValue? (b : UInt8) : Option Nat :=
  if isDigit b then some (digitValue b)
  else if 97 ≤ b && b ≤ 102 then some (b.toNat - 87)
  else if 65 ≤ b && b ≤ 70 then some (b.toNat - 55)
  else none

/-- Four hexadecimal digits. -/
def hexUnit : Reader Nat
  | a :: b :: c :: d :: rest =>
    match hexValue? a, hexValue? b, hexValue? c, hexValue? d with
    | some a, some b, some c, some d => .ok (((a * 16 + b) * 16 + c) * 16 + d, rest)
    | _, _, _, _ => failAt .invalidEscape rest
  | _ => failAt .endInString []

/-- The second half of a pair, after the unit of the first half. -/
def lowSurrogate (high : Nat) : Reader Bytes
  | [] => failAt .endInString []
  | 92 :: rest =>
    match rest with
    | [] => failAt .endInString []
    | 117 :: digits => do
      let (low, rest) ← hexUnit digits
      if 0xDC00 ≤ low ∧ low ≤ 0xDFFF then
        .ok (Utf8.encode [Char.ofNat ((high - 0xD800) * 1024 + (low - 0xDC00) + 0x10000)], rest)
      else failAt .loneSurrogate rest
    | _ :: rest => failAt .endInEscape rest
  | _ :: rest => failAt .endInEscape rest

def unicodeEscape (input : Bytes) : Except Failure (Bytes × Bytes) := do
  let (unit, rest) ← hexUnit input
  if 0xDC00 ≤ unit ∧ unit ≤ 0xDFFF then failAt .loneSurrogate rest
  else if 0xD800 ≤ unit ∧ unit ≤ 0xDBFF then lowSurrogate unit rest
  else .ok (Utf8.encode [Char.ofNat unit], rest)

/-- What follows a backslash: the bytes it stands for. -/
def escape : Reader Bytes
  | [] => failAt .endInString []
  | b :: rest =>
    if b = 34 ∨ b = 92 ∨ b = 47 then .ok ([b], rest)
    else if b = 98 then .ok ([8], rest)
    else if b = 102 then .ok ([12], rest)
    else if b = 110 then .ok ([10], rest)
    else if b = 114 then .ok ([13], rest)
    else if b = 116 then .ok ([9], rest)
    else if b = 117 then unicodeEscape rest
    else failAt .invalidEscape rest

/-- The bytes up to the closing quote. Each step takes at least one byte of the input. -/
def stringBytes : Nat → Reader Bytes
  | _, [] => failAt .endInString []
  | 0, _ => failAt .endInString []
  | steps + 1, b :: rest =>
    if b = 34 then .ok ([], rest)
    else if b = 92 then do
      let (unescaped, rest) ← escape rest
      let (more, rest) ← stringBytes steps rest
      .ok (unescaped ++ more, rest)
    else if b < 32 then failAt .controlCharacter rest
    else do
      let (more, rest) ← stringBytes steps rest
      .ok (b :: more, rest)

/-- A string after its opening quote. Bytes that are no character are reported at the first of
them. -/
def string (input : Bytes) : Except Failure (String × Bytes) := do
  let (bytes, rest) ← stringBytes input.length input
  match Utf8.decode? bytes with
  | some chars => .ok (String.ofList chars, rest)
  | none => failAt .invalidCodePoint (input.drop (Utf8.validLength input + 1))

/-! ### Containers -/

/-- What follows an item of a list. Each step takes at least a comma. -/
def moreItems (item : Reader Value) : Nat → Reader (List Value)
  | steps, input =>
    match skipBlanks input with
    | [] => failAt .endInList []
    | b :: rest =>
      if b = 93 then .ok ([], rest)
      else if b = 44 then
        match skipBlanks rest with
        | [] => failAt .endInValue []
        | c :: after =>
          if c = 93 then failAt .trailingComma after
          else match steps with
            | 0 => failAt .endInList []
            | steps + 1 => do
              let (x, rest) ← item (c :: after)
              let (xs, rest) ← moreItems item steps rest
              .ok (x :: xs, rest)
      else failAt .expectedCommaOrBracket rest

/-- A list after its opening bracket. -/
def items (item : Reader Value) (input : Bytes) : Except Failure (List Value × Bytes) :=
  match skipBlanks input with
  | [] => failAt .endInList []
  | b :: rest =>
    if b = 93 then .ok ([], rest)
    else do
      let (x, rest) ← item (b :: rest)
      let (xs, rest) ← moreItems item input.length rest
      .ok (x :: xs, rest)

/-- A field after the opening quote of its name. -/
def field (item : Reader Value) (input : Bytes) :
    Except Failure ((String × Value) × Bytes) := do
  let (key, rest) ← string input
  match skipBlanks rest with
  | [] => failAt .endInObject []
  | b :: rest =>
    if b = 58 then do
      let (x, rest) ← item rest
      .ok ((key, x), rest)
    else failAt .expectedColon rest

/-- What follows a field of an object. Each step takes at least a comma. -/
def moreFields (item : Reader Value) : Nat → Reader (List (String × Value))
  | steps, input =>
    match skipBlanks input with
    | [] => failAt .endInObject []
    | b :: rest =>
      if b = 125 then .ok ([], rest)
      else if b = 44 then
        match skipBlanks rest with
        | [] => failAt .endInValue []
        | c :: after =>
          if c = 125 then failAt .trailingComma after
          else if c = 34 then
            match steps with
            | 0 => failAt .endInObject []
            | steps + 1 => do
              let (x, rest) ← field item after
              let (xs, rest) ← moreFields item steps rest
              .ok (x :: xs, rest)
          else failAt .keyNotString after
      else failAt .expectedCommaOrBrace rest

/-- An object after its opening brace. -/
def fields (item : Reader Value) (input : Bytes) :
    Except Failure (List (String × Value) × Bytes) :=
  match skipBlanks input with
  | [] => failAt .endInObject []
  | b :: rest =>
    if b = 125 then .ok ([], rest)
    else if b = 34 then do
      let (x, rest) ← field item rest
      let (xs, rest) ← moreFields item input.length rest
      .ok (x :: xs, rest)
    else failAt .keyNotString rest

/-! ### Values -/

/-- A value whose items are read by `inner`; without it no container is allowed. -/
def valueWith (inner : Option (Reader Value)) (input : Bytes) : Except Failure (Value × Bytes) :=
  match skipBlanks input with
  | [] => failAt .endInValue []
  | b :: rest =>
    if b = 110 then word .null [117, 108, 108] rest
    else if b = 116 then word (.bool true) [114, 117, 101] rest
    else if b = 102 then word (.bool false) [97, 108, 115, 101] rest
    else if b = 45 then do
      let (n, rest) ← number true rest
      .ok (.number n, rest)
    else if isDigit b then do
      let (n, rest) ← number false (b :: rest)
      .ok (.number n, rest)
    else if b = 34 then do
      let (s, rest) ← string rest
      .ok (.string s, rest)
    else if b = 91 then
      match inner with
      | none => failAt .recursionLimit rest
      | some item => do
        let (xs, rest) ← items item rest
        .ok (.array xs, rest)
    else if b = 123 then
      match inner with
      | none => failAt .recursionLimit rest
      | some item => do
        let (xs, rest) ← fields item rest
        .ok (Value.ofFields xs, rest)
    else failAt .expectedValue rest

/-- A value whose containers nest at most `depth` deep. -/
def value : Nat → Reader Value
  | 0 => valueWith none
  | depth + 1 => valueWith (some (value depth))

/-- A value and nothing else after it. -/
def document (depth : Nat) (input : Bytes) : Except Failure Value := do
  let (x, rest) ← value depth input
  match skipBlanks rest with
  | [] => .ok x
  | _ :: after => failAt .trailingCharacters after

/-- Reads a whole text whose containers nest at most `depth` deep. -/
def parseDepth (depth : Nat) (input : Bytes) : Except Error Value :=
  match document depth input with
  | .ok x => .ok x
  | .error e => .error (Error.after e.cause (input.take (input.length - e.rest.length)))

/-- The deepest nesting that is read. -/
def maxDepth : Nat := 127

def parse (input : Bytes) : Except Error Value :=
  parseDepth maxDepth input

end MeshProbe.Json
