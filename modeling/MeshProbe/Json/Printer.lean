import MeshProbe.Json.Value
/-!
JSON text. The compact form has no blanks; the indented form puts each item and each field on a
line of its own, two blanks deeper than its container, and leaves empty containers closed.
-/

namespace MeshProbe.Json

/-- Numbers that are not integers: positional from `0.00001` up to below `10 ^ 16`. -/
def realLayout : DecimalLayout := ⟨-4, some 16, true, .even⟩

def Number.render : Number → List Char
  | .integer n => (toString n).toList
  | .real x => (x.render realLayout).toList

def hexDigit (n : Nat) : Char :=
  (Nat.toDigits 16 (n % 16)).headD '0'

/-- A character inside quotes: quotes, backslashes and control characters are escaped. -/
def escapeChar (c : Char) : List Char :=
  if c = '"' then ['\\', '"']
  else if c = '\\' then ['\\', '\\']
  else if c = '\x08' then ['\\', 'b']
  else if c = '\t' then ['\\', 't']
  else if c = '\n' then ['\\', 'n']
  else if c = '\x0c' then ['\\', 'f']
  else if c = '\r' then ['\\', 'r']
  else if c.toNat < 0x20 then
    ['\\', 'u', '0', '0', hexDigit (c.toNat / 16), hexDigit c.toNat]
  else [c]

def quote (s : String) : List Char :=
  '"' :: s.toList.flatMap escapeChar ++ ['"']

mutual

/-- The compact form. -/
def compact : Value → List Char
  | .null => ['n', 'u', 'l', 'l']
  | .bool true => ['t', 'r', 'u', 'e']
  | .bool false => ['f', 'a', 'l', 's', 'e']
  | .number n => n.render
  | .string s => quote s
  | .array [] => ['[', ']']
  | .array (x :: xs) => '[' :: compact x ++ compactItems xs
  | .object [] => ['\x7b', '\x7d']
  | .object ((k, x) :: fields) => '\x7b' :: quote k ++ ':' :: compact x ++ compactFields fields

/-- The items after the first one, and the closing bracket. -/
def compactItems : List Value → List Char
  | [] => [']']
  | x :: xs => ',' :: compact x ++ compactItems xs

def compactFields : List (String × Value) → List Char
  | [] => ['\x7d']
  | (k, x) :: fields => ',' :: quote k ++ ':' :: compact x ++ compactFields fields

end

def newline (depth : Nat) : List Char :=
  '\n' :: List.replicate (2 * depth) ' '

mutual

/-- The indented form of a value that stands at a depth. -/
def indented (depth : Nat) : Value → List Char
  | .null => ['n', 'u', 'l', 'l']
  | .bool true => ['t', 'r', 'u', 'e']
  | .bool false => ['f', 'a', 'l', 's', 'e']
  | .number n => n.render
  | .string s => quote s
  | .array [] => ['[', ']']
  | .array (x :: xs) =>
    '[' :: newline (depth + 1) ++ indented (depth + 1) x ++ indentedItems depth xs
  | .object [] => ['\x7b', '\x7d']
  | .object ((k, x) :: fields) =>
    '\x7b' :: newline (depth + 1) ++ quote k ++ ':' :: ' ' :: indented (depth + 1) x ++
      indentedFields depth fields

def indentedItems (depth : Nat) : List Value → List Char
  | [] => newline depth ++ [']']
  | x :: xs =>
    ',' :: newline (depth + 1) ++ indented (depth + 1) x ++ indentedItems depth xs

def indentedFields (depth : Nat) : List (String × Value) → List Char
  | [] => newline depth ++ ['\x7d']
  | (k, x) :: fields =>
    ',' :: newline (depth + 1) ++ quote k ++ ':' :: ' ' :: indented (depth + 1) x ++
      indentedFields depth fields

end

def Value.render (v : Value) : String := String.ofList (compact v)

def Value.renderIndented (v : Value) : String := String.ofList (indented 0 v)

end MeshProbe.Json
