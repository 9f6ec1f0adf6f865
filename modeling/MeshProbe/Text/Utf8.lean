/-!
UTF-8 over lists of bytes: writing text, reading bytes that need not be well formed, and testing
whether they are. Reading puts one replacement character for each longest run of bytes that
begins a character and is then cut short, and for each byte that begins none.
-/

namespace MeshProbe

abbrev Bytes := List UInt8

namespace Utf8

def encode (text : List Char) : Bytes :=
  text.flatMap String.utf8EncodeChar

def encodeString (text : String) : Bytes :=
  encode text.toList

/-- A byte that continues a character. -/
def isTail (b : UInt8) : Bool :=
  0x80 ≤ b && b ≤ 0xBF

def leadsTwo (a : UInt8) : Bool :=
  0xC2 ≤ a && a ≤ 0xDF

/-- The first two bytes of a character of three bytes: no overlong form, no surrogate. -/
def leadsThree (a b : UInt8) : Bool :=
  (a == 0xE0 && 0xA0 ≤ b && b ≤ 0xBF) ||
  (0xE1 ≤ a && a ≤ 0xEC && isTail b) ||
  (a == 0xED && 0x80 ≤ b && b ≤ 0x9F) ||
  (0xEE ≤ a && a ≤ 0xEF && isTail b)

/-- The first two bytes of a character of four bytes: no overlong form, nothing past the last
code point. -/
def leadsFour (a b : UInt8) : Bool :=
  (a == 0xF0 && 0x90 ≤ b && b ≤ 0xBF) ||
  (0xF1 ≤ a && a ≤ 0xF3 && isTail b) ||
  (a == 0xF4 && 0x80 ≤ b && b ≤ 0x8F)

def tailBits (b : UInt8) : Nat :=
  b.toNat % 64

def charOfTwo (a b : UInt8) : Char :=
  Char.ofNat (a.toNat % 32 * 64 + tailBits b)

def charOfThree (a b c : UInt8) : Char :=
  Char.ofNat ((a.toNat % 16 * 64 + tailBits b) * 64 + tailBits c)

def charOfFour (a b c d : UInt8) : Char :=
  Char.ofNat (((a.toNat % 8 * 64 + tailBits b) * 64 + tailBits c) * 64 + tailBits d)

/-- Stands for bytes that are no character. -/
def replacement : Char := '\uFFFD'

/-- The characters of a byte string, `none` where bytes begin none. -/
def decode : Bytes → List (Option Char)
  | [] => []
  | a :: r =>
    if a < 0x80 then some (Char.ofNat a.toNat) :: decode r
    else match r with
    | [] => [none]
    | [b] =>
      if leadsTwo a && isTail b then [some (charOfTwo a b)]
      else if leadsThree a b || leadsFour a b then [none]
      else none :: decode [b]
    | [b, c] =>
      if leadsTwo a && isTail b then some (charOfTwo a b) :: decode [c]
      else if leadsThree a b && isTail c then [some (charOfThree a b c)]
      else if leadsFour a b && isTail c then [none]
      else if leadsThree a b || leadsFour a b then none :: decode [c]
      else none :: decode [b, c]
    | b :: c :: d :: r₄ =>
      if leadsTwo a && isTail b then some (charOfTwo a b) :: decode (c :: d :: r₄)
      else if leadsThree a b && isTail c then some (charOfThree a b c) :: decode (d :: r₄)
      else if leadsFour a b && isTail c && isTail d then some (charOfFour a b c d) :: decode r₄
      else if leadsFour a b && isTail c then none :: decode (d :: r₄)
      else if leadsThree a b || leadsFour a b then none :: decode (c :: d :: r₄)
      else none :: decode (b :: c :: d :: r₄)

/-- Reads any bytes, a replacement character standing for what is ill formed. -/
def decodeLossy (bytes : Bytes) : List Char :=
  (decode bytes).map (·.getD replacement)

/-- Reads well-formed bytes only. -/
def decode? (bytes : Bytes) : Option (List Char) :=
  (decode bytes).mapM id

/-- How many bytes come before the first ones that are no character. -/
def validLength (bytes : Bytes) : Nat :=
  (encode ((decode bytes).takeWhile Option.isSome).reduceOption).length

def lossyString (bytes : Bytes) : String :=
  String.ofList (decodeLossy bytes)

end Utf8

end MeshProbe
