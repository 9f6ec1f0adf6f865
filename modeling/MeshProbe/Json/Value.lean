import MeshProbe.Decimal.Shortest
/-!
JSON values. A number without point or exponent that fits 64 bits stays an integer, every other
one is a binary number. The fields of an object are kept in the order of their names, each name
once; putting a field whose name is taken replaces the value.
-/

namespace MeshProbe.Json

inductive Number
  | integer (n : Int)
  | real (x : Binary64)
  deriving DecidableEq, Repr

namespace Number

def isZero : Number → Bool
  | integer n => n == 0
  | real x => x.isZero

end Number

inductive Value
  | null
  | bool (b : Bool)
  | number (n : Number)
  | string (s : String)
  | array (items : List Value)
  | object (fields : List (String × Value))
  deriving Repr, Inhabited

/-- Puts a field into fields in order. -/
def putField (key : String) (value : Value) : List (String × Value) → List (String × Value)
  | [] => [(key, value)]
  | (k, v) :: rest =>
    if k < key then (k, v) :: putField key value rest
    else if k = key then (key, value) :: rest
    else (key, value) :: (k, v) :: rest

namespace Value

/-- The object with the given fields, of equal names the last. -/
def ofFields (fields : List (String × Value)) : Value :=
  object (fields.foldl (fun acc (k, v) => putField k v acc) [])

def ofNat (n : Nat) : Value := number (.integer n)

/-- The value of a field, when there is one. -/
def get? : Value → String → Option Value
  | object fields, key => fields.lookup key
  | _, _ => none

def asArray? : Value → Option (List Value)
  | array items => some items
  | _ => none

def asString? : Value → Option String
  | string s => some s
  | _ => none

/-- Neither null, false, zero nor empty. -/
def isTruthy : Value → Bool
  | null => false
  | bool b => b
  | number n => !n.isZero
  | string s => !s.isEmpty
  | array items => !items.isEmpty
  | object fields => !fields.isEmpty

end Value

end MeshProbe.Json
