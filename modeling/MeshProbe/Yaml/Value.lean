import MeshProbe.Yaml.Resolve
/-!
YAML documents as values. Aliases are put in for what they stand for, up to a limit that keeps a
text from growing without bound, and of entries with equal keys the last one's value takes the
place of the first.
-/

namespace MeshProbe.Yaml

inductive Value
  | null
  | bool (b : Bool)
  | integer (n : Int)
  | real (x : Real)
  | string (s : String)
  | sequence (items : List Value)
  | mapping (entries : List (Value × Value))
  deriving Repr, Inhabited

namespace Value

mutual

/-- Equality as keys have it. -/
def isSame : Value → Value → Bool
  | null, null => true
  | bool a, bool b => a == b
  | integer a, integer b => a == b
  | real a, real b => a.isSame b
  | string a, string b => a == b
  | sequence a, sequence b => areSame a b
  | mapping a, mapping b => haveSame a b
  | _, _ => false

def areSame : List Value → List Value → Bool
  | [], [] => true
  | a :: as, b :: bs => isSame a b && areSame as bs
  | _, _ => false

def haveSame : List (Value × Value) → List (Value × Value) → Bool
  | [], [] => true
  | (k, v) :: as, (k', v') :: bs => isSame k k' && isSame v v' && haveSame as bs
  | _, _ => false

end

/-- Puts an entry behind the others, or its value in the place of an equal key's. -/
def putEntry (key value : Value) : List (Value × Value) → List (Value × Value)
  | [] => [(key, value)]
  | (k, v) :: rest =>
    if k.isSame key then (k, value) :: rest else (k, v) :: putEntry key value rest

def ofEntries (entries : List (Value × Value)) : Value :=
  mapping (entries.foldl (fun acc (k, v) => putEntry k v acc) [])

def ofScalar (path : Path) : Scalar → Except Error Value
  | .null => .ok null
  | .bool b => .ok (bool b)
  | .integer n => .ok (integer n)
  | .wide n => .error (.problem path (.wrongType (.wide n) "any YAML value"))
  | .real x => .ok (real x)
  | .string s => .ok (string s)

/-- How deep collections may nest. -/
def maxDepth : Nat := 128

/-- What is known of the text around a node. -/
structure Setting where
  anchored : List (Nat × Node)
  /-- How many aliases may be put in. -/
  maxJumps : Nat

/-- The node an alias stands for, counted as one more alias put in. -/
def follow (setting : Setting) (path : Path) (node : Node) :
    StateT Nat (Except Error) (Path × Node) := do
  match node with
  | .alias n =>
    let jumps := (← get) + 1
    set jumps
    if setting.maxJumps < jumps then throw .repetitionLimit
    return (.target path, (setting.anchored.lookup n).getD Node.missing)
  | node => return (path, node)

/-- Where the value of an entry stands. -/
def entryPath (path : Path) (key : Node) : Path :=
  match key with
  | .scalar _ _ text => .entry path text
  | _ => .unnamed path

/-- The value of a node whose collections are read by `inner`; without it none is allowed. -/
def ofNodeWith (setting : Setting)
    (inner : Option (Path → Node → StateT Nat (Except Error) Value)) (path : Path) (node : Node) :
    StateT Nat (Except Error) Value := do
  let (path, node) ← follow setting path node
  match node, inner with
  | .scalar isPlain tag text, _ =>
    match resolve isPlain tag text with
    | .ok s => ofScalar path s
    | .error p => throw (.problem path p)
  | .sequence items, some inner =>
    let items ← items.zipIdx.mapM fun (item, i) => inner (.item path i) item
    return sequence items
  | .mapping entries, some inner =>
    let entries ← entries.mapM fun (k, v) => do
      let key ← inner path k
      let value ← inner (entryPath path k) v
      return (key, value)
    return ofEntries entries
  | _, _ => throw .recursionLimit

def ofNode (setting : Setting) : Nat → Path → Node → StateT Nat (Except Error) Value
  | 0 => ofNodeWith setting none
  | depth + 1 => ofNodeWith setting (some (ofNode setting depth))

/-- Reads a text with exactly one document. -/
def parse (text : String) : Except Error Value := do
  match Stream.parse? text with
  | none => throw .badSyntax
  | some stream =>
    match stream.documents with
    | [] => throw .noDocument
    | node :: others =>
      let setting : Setting := ⟨stream.anchored, stream.events * 100⟩
      let (value, _) ← (ofNode setting maxDepth .root node).run 0
      if others.isEmpty then return value else throw .manyDocuments

end Value

end MeshProbe.Yaml
