import MeshProbe.Text.Utf8
/-!
Percent-encoding: a character outside a set of safe ones is written as its UTF-8 bytes, each as a
percent sign and two hexadecimal digits. Beside it the encodings built on bytes that a request
needs: form encoding of a query and base64.
-/

namespace MeshProbe

namespace Percent

def hexDigit (n : Nat) : Char :=
  if n < 10 then Char.ofNat (48 + n) else Char.ofNat (55 + n)

def encodeByte (b : UInt8) : List Char :=
  ['%', hexDigit (b.toNat / 16), hexDigit (b.toNat % 16)]

/-- A character is written as it is when `keep` holds for it. -/
def encodeChar (keep : Char → Bool) (c : Char) : List Char :=
  if keep c then [c] else (Utf8.encode [c]).flatMap encodeByte

def encode (keep : Char → Bool) (text : List Char) : List Char :=
  text.flatMap (encodeChar keep)

def hexValue? (b : UInt8) : Option Nat :=
  if 48 ≤ b && b ≤ 57 then some (b.toNat - 48)
  else if 97 ≤ b && b ≤ 102 then some (b.toNat - 87)
  else if 65 ≤ b && b ≤ 70 then some (b.toNat - 55)
  else none

/-- Undoes the encoding. A percent sign without two digits stays as it is. -/
def decode : Bytes → Bytes
  | 37 :: a :: b :: rest =>
    match hexValue? a, hexValue? b with
    | some x, some y => UInt8.ofNat (x * 16 + y) :: decode rest
    | _, _ => 37 :: decode (a :: b :: rest)
  | b :: rest => b :: decode rest
  | [] => []

def decodeText (text : List Char) : Bytes :=
  decode (Utf8.encode text)

/-- Printable ASCII other than space. -/
def isGraphic (c : Char) : Bool :=
  0x20 < c.toNat && c.toNat < 0x7F

/-- What a fragment keeps. -/
def keepsFragment (c : Char) : Bool :=
  isGraphic c && !(['"', '<', '>', '`'].contains c)

/-- What a path keeps. -/
def keepsPath (c : Char) : Bool :=
  keepsFragment c && !(['#', '?', '\x7b', '\x7d'].contains c)

/-- What one segment of a path keeps when it stands for itself. -/
def keepsSegment (c : Char) : Bool :=
  keepsPath c && !(['/', '%', '\\'].contains c)

/-- What user name and password keep. -/
def keepsUserInfo (c : Char) : Bool :=
  keepsPath c && !(['/', ':', ';', '=', '@', '[', '\\', ']', '^', '|'].contains c)

/-- What a query keeps. -/
def keepsQuery (c : Char) : Bool :=
  isGraphic c && !(['"', '#', '<', '>', '\''].contains c)

end Percent

namespace Form

/-- Letters, digits and the marks that a form keeps. -/
def keeps (c : Char) : Bool :=
  c.isAlphanum || ['*', '-', '.', '_'].contains c

def encode (text : List Char) : List Char :=
  text.flatMap fun c => if c = ' ' then ['+'] else Percent.encodeChar keeps c

/-- Pairs of names and values, joined by ampersands. -/
def encodePairs : List (String × String) → List Char
  | [] => []
  | [(k, v)] => encode k.toList ++ '=' :: encode v.toList
  | (k, v) :: rest => encode k.toList ++ '=' :: encode v.toList ++ '&' :: encodePairs rest

end Form

namespace Base64

def digit (n : Nat) : Char :=
  if n < 26 then Char.ofNat (65 + n)
  else if n < 52 then Char.ofNat (71 + n)
  else if n < 62 then Char.ofNat (n - 4)
  else if n = 62 then '+' else '/'

/-- Three bytes make four digits; a last group of fewer is filled up with equal signs. -/
def encode : Bytes → List Char
  | a :: b :: c :: rest =>
    let n := (a.toNat * 256 + b.toNat) * 256 + c.toNat
    digit (n / 262144) :: digit (n / 4096 % 64) :: digit (n / 64 % 64) :: digit (n % 64) ::
      encode rest
  | [a, b] =>
    let n := a.toNat * 256 + b.toNat
    [digit (n / 1024), digit (n / 16 % 64), digit (n % 16 * 4), '=']
  | [a] => [digit (a.toNat / 4), digit (a.toNat % 4 * 16), '=', '=']
  | [] => []

end Base64

end MeshProbe
