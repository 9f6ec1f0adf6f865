import MeshProbe.Yaml.Scanner
/-!
The documents of a YAML text as trees. An anchored node is kept beside the tree under a number,
and an alias refers to that number, so a node may refer to itself.
-/

namespace MeshProbe.Yaml

inductive Node
  | scalar (isPlain : Bool) (tag : Option Tag) (text : String)
  | sequence (items : List Node)
  | mapping (entries : List (Node × Node))
  | alias (anchor : Nat)
  deriving Repr, Inhabited

structure Stream where
  documents : List Node
  /-- The anchored nodes, each under its number. -/
  anchored : List (Nat × Node)
  /-- How many scalars, aliases, and starts and ends of collections the text has. -/
  events : Nat

namespace Node

/-- Stands where a node is missing. -/
def missing : Node := scalar true none "~"

end Node

namespace Compose

/-- How far the tokens of a text have been put together. -/
structure State where
  tokens : List Token
  /-- The anchors of the document so far, the latest first. -/
  names : List (String × Nat)
  anchors : Nat
  anchored : List (Nat × Node)
  events : Nat

abbrev Step := StateT State Option

def peek : Step (Option Token) := return (← get).tokens.head?

def skip : Step Unit := modify fun s => { s with tokens := s.tokens.drop 1 }

def fail {α : Type} : Step α := fun _ => none

def count (events : Nat) : Step Unit := modify fun s => { s with events := s.events + events }

/-- A node that is missing counts like any other. -/
def missing : Step Node := do
  count 1
  return Node.missing

/-- Gives a name to the node that comes next. -/
def nameAnchor (name : String) : Step Nat := do
  let s ← get
  set { s with names := (name, s.anchors) :: s.names, anchors := s.anchors + 1 }
  return s.anchors

def keepAnchored (anchor : Option Nat) (node : Node) : Step Node := do
  match anchor with
  | some n => modify fun s => { s with anchored := (n, node) :: s.anchored }
  | none => pure ()
  return node

/-- The anchor and the tag in front of a node, in either order. -/
def properties : Step (Option Nat × Option Tag) := do
  match ← peek with
  | some (.anchor name) =>
    skip
    let n ← nameAnchor name
    match ← peek with
    | some (.tag tag) =>
      skip
      return (some n, some tag)
    | _ => return (some n, none)
  | some (.tag tag) =>
    skip
    match ← peek with
    | some (.anchor name) =>
      skip
      let n ← nameAnchor name
      return (some n, some tag)
    | _ => return (none, some tag)
  | _ => return (none, none)

/-- A node of which nothing stands but an anchor or a tag. -/
def emptyNode (anchor : Option Nat) (tag : Option Tag) : Step Node := do
  if anchor.isNone && tag.isNone then fail
  else
    count 1
    keepAnchored anchor (.scalar true tag "")

mutual

/-- A node. In a block it may be a block collection, and as the value of a mapping also a
sequence that is not indented. Each call takes one unit of fuel. -/
def node (inBlock unindented : Bool) : Nat → Step Node
  | 0 => fail
  | fuel + 1 => do
    match ← peek with
    | some (.alias name) =>
      skip
      match (← get).names.lookup name with
      | some n =>
        count 1
        return .alias n
      | none => fail
    | _ =>
      let (anchor, tag) ← properties
      match ← peek with
      | some (.scalar isPlain text) =>
        skip
        count 1
        keepAnchored anchor (.scalar isPlain tag text)
      | some .blockEntry =>
        if unindented then
          count 2
          let items ← unindentedItems fuel
          keepAnchored anchor (.sequence items)
        else emptyNode anchor tag
      | some .flowSequenceStart =>
        skip
        count 2
        let items ← flowItems true fuel
        keepAnchored anchor (.sequence items)
      | some .flowMappingStart =>
        skip
        count 2
        let entries ← flowEntries true fuel
        keepAnchored anchor (.mapping entries)
      | some .blockSequenceStart =>
        if inBlock then
          skip
          count 2
          let items ← blockItems fuel
          keepAnchored anchor (.sequence items)
        else emptyNode anchor tag
      | some .blockMappingStart =>
        if inBlock then
          skip
          count 2
          let entries ← blockEntries fuel
          keepAnchored anchor (.mapping entries)
        else emptyNode anchor tag
      | _ => emptyNode anchor tag

/-- The items of a block sequence, each behind a hyphen. -/
def blockItems : Nat → Step (List Node)
  | 0 => fail
  | fuel + 1 => do
    match ← peek with
    | some .blockEnd =>
      skip
      return []
    | some .blockEntry =>
      skip
      let item ← match ← peek with
        | some .blockEntry | some .blockEnd => missing
        | _ => node true false fuel
      return item :: (← blockItems fuel)
    | _ => fail

/-- The items of a sequence that lies as deep as the mapping around it. -/
def unindentedItems : Nat → Step (List Node)
  | 0 => fail
  | fuel + 1 => do
    match ← peek with
    | some .blockEntry =>
      skip
      let item ← match ← peek with
        | some .blockEntry | some .key | some .value | some .blockEnd => missing
        | _ => node true false fuel
      return item :: (← unindentedItems fuel)
    | _ => return []

/-- The entries of a block mapping; a key and a value may be missing. -/
def blockEntries : Nat → Step (List (Node × Node))
  | 0 => fail
  | fuel + 1 => do
    let isOver (t : Option Token) : Bool := t matches some .key | some .value | some .blockEnd
    match ← peek with
    | some .blockEnd =>
      skip
      return []
    | some .key | some .value =>
      let key ← match ← peek with
        | some .key =>
          skip
          if isOver (← peek) then missing else node true true fuel
        | _ => missing
      let value ← match ← peek with
        | some .value =>
          skip
          if isOver (← peek) then missing else node true true fuel
        | _ => missing
      return (key, value) :: (← blockEntries fuel)
    | _ => fail

/-- The items of a flow sequence, parted by commas. An item with a colon is a mapping of one
entry. -/
def flowItems (isFirst : Bool) : Nat → Step (List Node)
  | 0 => fail
  | fuel + 1 => do
    match ← peek with
    | some .flowSequenceEnd =>
      skip
      return []
    | some .flowEntry => if isFirst then pure () else skip
    | _ => if isFirst then pure () else fail
    match ← peek with
    | some .flowSequenceEnd =>
      skip
      return []
    | some .key =>
      skip
      count 2
      let entry ← singleEntry fuel
      return .mapping [entry] :: (← flowItems false fuel)
    | _ =>
      let item ← node false false fuel
      return item :: (← flowItems false fuel)

/-- The entry of a mapping that stands as an item of a flow sequence. -/
def singleEntry : Nat → Step (Node × Node)
  | 0 => fail
  | fuel + 1 => do
    let key ← match ← peek with
      | some .value | some .flowEntry | some .flowSequenceEnd =>
        skip
        missing
      | _ => node false false fuel
    let value ← match ← peek with
      | some .value =>
        skip
        match ← peek with
        | some .flowEntry | some .flowSequenceEnd => missing
        | _ => node false false fuel
      | _ => missing
    return (key, value)

/-- The entries of a flow mapping, parted by commas; a key without colon has no value. -/
def flowEntries (isFirst : Bool) : Nat → Step (List (Node × Node))
  | 0 => fail
  | fuel + 1 => do
    match ← peek with
    | some .flowMappingEnd =>
      skip
      return []
    | some .flowEntry => if isFirst then pure () else skip
    | _ => if isFirst then pure () else fail
    match ← peek with
    | some .flowMappingEnd =>
      skip
      return []
    | some .key =>
      skip
      let key ← match ← peek with
        | some .value | some .flowEntry | some .flowMappingEnd => missing
        | _ => node false false fuel
      let value ← flowValue fuel
      return (key, value) :: (← flowEntries false fuel)
    | some .value =>
      let key ← missing
      let value ← flowValue fuel
      return (key, value) :: (← flowEntries false fuel)
    | _ =>
      let key ← node false false fuel
      let value ← missing
      return (key, value) :: (← flowEntries false fuel)

/-- The value of an entry of a flow mapping. -/
def flowValue : Nat → Step Node
  | 0 => fail
  | fuel + 1 => do
    match ← peek with
    | some .value =>
      skip
      match ← peek with
      | some .flowEntry | some .flowMappingEnd => missing
      | _ => node false false fuel
    | _ => missing

end

def skipDirectives : List Token → List Token
  | .versionDirective :: rest | .tagDirective :: rest => skipDirectives rest
  | tokens => tokens

/-- One document. Only the first one may begin without its mark, and then without being empty. -/
def document (isFirst : Bool) (fuel : Nat) : Step Node := do
  modify fun s => { s with names := [] }
  let start ← peek
  modify fun s => { s with tokens := skipDirectives s.tokens }
  let isMarked : Bool := start matches
    some .versionDirective | some .tagDirective | some .documentStart
  if isFirst && !isMarked then node true false fuel
  else
    match ← peek with
    | some .documentStart =>
      skip
      match ← peek with
      | none | some .versionDirective | some .tagDirective | some .documentStart
      | some .documentEnd => missing
      | _ => node true false fuel
    | _ => fail

/-- All documents up to the end of the tokens. -/
def documents (isFirst : Bool) : Nat → Step (List Node)
  | 0 => fail
  | fuel + 1 => do
    unless isFirst do
      modify fun s => { s with tokens := s.tokens.dropWhile (· = .documentEnd) }
    match ← peek with
    | none => return []
    | some _ =>
      let node ← document isFirst fuel
      if (← peek) = some .documentEnd then skip
      return node :: (← documents false fuel)

end Compose

/-- The documents of a text, if it follows the rules. -/
def Stream.parse? (text : String) : Option Stream := do
  let tokens ← tokens? text
  let start : Compose.State := ⟨tokens, [], 1, [], 0⟩
  let (documents, s) ← (Compose.documents true (2 * tokens.length + 4)).run start
  return { documents, anchored := s.anchored, events := s.events }

end MeshProbe.Yaml
