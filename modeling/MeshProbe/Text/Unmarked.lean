import MeshProbe.Text.Utf8
/-!
Text whose encoding may be told by a byte order mark at its start. The mark itself is no part of
the text. What is ill formed becomes a replacement character.
-/

namespace MeshProbe

namespace Utf16

/-- The units of sixteen bits; a byte left over at the end makes a unit that is none. -/
def units (bigEndian : Bool) : Bytes → List (Option Nat)
  | a :: b :: rest =>
    some (if bigEndian then a.toNat * 256 + b.toNat else b.toNat * 256 + a.toNat) ::
      units bigEndian rest
  | [_] => [none]
  | [] => []

def isHigh (u : Nat) : Bool := 0xD800 ≤ u && u ≤ 0xDBFF

def isLow (u : Nat) : Bool := 0xDC00 ≤ u && u ≤ 0xDFFF

/-- Characters of units, a pair of surrogates making one. -/
def decodeUnits : List (Option Nat) → List Char
  | [] => []
  | none :: rest => Utf8.replacement :: decodeUnits rest
  | some u :: rest =>
    if isLow u then Utf8.replacement :: decodeUnits rest
    else if isHigh u then
      match rest with
      | some v :: rest' =>
        if isLow v then
          Char.ofNat ((u - 0xD800) * 1024 + (v - 0xDC00) + 0x10000) :: decodeUnits rest'
        else Utf8.replacement :: decodeUnits (some v :: rest')
      | [none] => [Utf8.replacement]
      | rest => Utf8.replacement :: decodeUnits rest
    else Char.ofNat u :: decodeUnits rest

end Utf16

namespace Unmarked

/-- The characters of bytes that are read in a given way if they begin with no mark. -/
def decode (read : Bytes → List Char) : Bytes → List Char
  | 0xEF :: 0xBB :: 0xBF :: rest => Utf8.decodeLossy rest
  | 0xFE :: 0xFF :: rest => Utf16.decodeUnits (Utf16.units true rest)
  | 0xFF :: 0xFE :: rest => Utf16.decodeUnits (Utf16.units false rest)
  | bytes => read bytes

end Unmarked

end MeshProbe
