import MeshProbe.Decimal.Shortest
import MeshProbe.Text.Quoted
/-!
Why YAML text does not yield what was wanted: it breaks the rules of the format, nests too deep,
or holds something else at some place.
-/

namespace MeshProbe.Yaml

/-- A number that is not an integer. -/
inductive Real
  | finite (x : Binary64)
  | infinite (negative : Bool)
  | nan
  deriving DecidableEq, Repr

namespace Real

/-- As messages show it: never with an exponent, a whole number with a zero behind the point. -/
def render : Real → String
  | finite x => x.render ⟨-400, none, true, .up⟩
  | infinite false => "inf"
  | infinite true => "-inf"
  | nan => "NaN"

/-- Equal as keys: both zeros are the same, and so is what is no number. -/
def isSame : Real → Real → Bool
  | finite x, finite y => x == y || (x.isZero && y.isZero)
  | x, y => x == y

end Real

/-- What stands where something else was wanted. -/
inductive Found
  | unit
  | bool (b : Bool)
  | integer (n : Int)
  /-- An integer beyond 64 bits. -/
  | wide (n : Int)
  | real (x : Real)
  | string (s : String)
  | sequence
  | mapping
  deriving DecidableEq, Repr

namespace Found

def render : Found → String
  | unit => "unit value"
  | bool b => "boolean `" ++ toString b ++ "`"
  | integer n => "integer `" ++ toString n ++ "`"
  | wide n => "integer `" ++ toString n ++ "` as " ++ (if 0 ≤ n then "u128" else "i128")
  | real x => "floating point `" ++ x.render ++ "`"
  | string s => "string " ++ Quoted.encode s
  | sequence => "sequence"
  | mapping => "map"

end Found

inductive Problem
  | wrongType (found : Found) (expected : String)
  | wrongValue (found : Found) (expected : String)
  | wrongLength (length : Nat) (expected : String)
  | missingField (name : String)
  | duplicateField (name : String)
  deriving DecidableEq, Repr

namespace Problem

def message : Problem → String
  | wrongType found expected => "invalid type: " ++ found.render ++ ", expected " ++ expected
  | wrongValue found expected => "invalid value: " ++ found.render ++ ", expected " ++ expected
  | wrongLength n expected => "invalid length " ++ toString n ++ ", expected " ++ expected
  | missingField name => "missing field `" ++ name ++ "`"
  | duplicateField name => "duplicate field `" ++ name ++ "`"

end Problem

/-- The way to a place in a document. -/
inductive Path
  | root
  | item (parent : Path) (index : Nat)
  | entry (parent : Path) (key : String)
  /-- The value of an entry whose key is no scalar. -/
  | unnamed (parent : Path)
  /-- What an alias stands for. -/
  | target (parent : Path)
  deriving DecidableEq, Repr

namespace Path

def render : Path → String
  | root => "."
  | item parent index => parent.render ++ "[" ++ toString index ++ "]"
  | entry root key => key
  | entry parent key => parent.render ++ "." ++ key
  | unnamed root => "?"
  | unnamed parent => parent.render ++ ".?"
  | target parent => parent.render

end Path

inductive Error
  | badSyntax
  | noDocument
  | manyDocuments
  | recursionLimit
  | repetitionLimit
  | problem (path : Path) (problem : Problem)
  deriving DecidableEq, Repr

namespace Error

def message : Error → String
  | badSyntax => "yaml syntax error"
  | noDocument => "EOF while parsing a value"
  | manyDocuments => "deserializing from YAML containing more than one document is not supported"
  | recursionLimit => "recursion limit exceeded"
  | repetitionLimit => "repetition limit exceeded"
  | problem path p =>
    if path.render = "." then p.message else path.render ++ ": " ++ p.message

end Error

end MeshProbe.Yaml
