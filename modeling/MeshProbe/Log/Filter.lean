import MeshProbe.Log
import MeshProbe.Text.Blank
import MeshProbe.Text.Search
/-!
Which records are shown. A list of directives sets thresholds for parts of the program; for a
record the directive decides that names the longest beginning of the record's source, of several
the last.
-/

namespace MeshProbe

/-- Up to which level records pass. -/
inductive Threshold
  | off
  | upTo (level : Level)
  deriving DecidableEq, Repr

namespace Threshold

def all : List Threshold :=
  [off, upTo .error, upTo .warn, upTo .info, upTo .debug, upTo .trace]

/-- The name in lower case. -/
def name : Threshold → String
  | off => "off"
  | upTo level => level.label.toLower

/-- The threshold of a name in any case. -/
def ofName? (text : String) : Option Threshold :=
  all.find? (·.name == text.toLower)

def passes (t : Threshold) (level : Level) : Bool :=
  match t with
  | off => false
  | upTo limit => level.rank ≤ limit.rank

end Threshold

structure LogDirective where
  /-- The beginning of the sources that it is about; without one it is about all. -/
  source : Option String
  threshold : Threshold
  deriving DecidableEq, Repr

namespace LogDirective

def weight (d : LogDirective) : Nat := (d.source.getD "").utf8ByteSize

def concerns (d : LogDirective) (source : String) : Bool :=
  (d.source.getD "").toList.isPrefixOf source.toList

/-- Adds a directive, in the place of one for the same sources. -/
def put (d : LogDirective) : List LogDirective → List LogDirective
  | [] => [d]
  | other :: rest => if other.source = d.source then d :: rest else other :: put d rest

/-- What decides for a source: the heaviest directive about it, of several the last. -/
def deciding? (source : String) (directives : List LogDirective) : Option LogDirective :=
  (directives.filter (·.concerns source)).foldl
    (fun best d =>
      match best with
      | some b => if b.weight ≤ d.weight then some d else some b
      | none => some d) none

end LogDirective

structure LogFilter where
  directives : List LogDirective
  /-- A text that a message has to contain. -/
  wanted : String
  deriving DecidableEq, Repr

namespace LogFilter

/-- Lets records up to a level pass for some parts of the program. -/
def ofThreshold (sources : List String) (threshold : Threshold) : LogFilter :=
  ⟨sources.map fun source => ⟨some source, threshold⟩, ""⟩

def complaint (text : String) : String :=
  "warning: invalid logging spec '" ++ text ++ "', ignoring it"

/-- Reads one directive: a threshold, a source, or a source and a threshold around an equals sign.
A source without threshold lets all records pass. -/
def readDirective (text : String) : Except String LogDirective :=
  match text.splitOn "=" with
  | [only] =>
    match Threshold.ofName? only with
    | some threshold => .ok ⟨none, threshold⟩
    | none => .ok ⟨some only, .upTo .trace⟩
  | [source, threshold] =>
    let level := Text.trim threshold
    if level = "" then .ok ⟨some source, .upTo .trace⟩
    else
      match Threshold.ofName? level with
      | some threshold => .ok ⟨some source, threshold⟩
      | none => .error (complaint level)
  | _ => .error (complaint text)

/-- Reads directives behind others, and complaints behind others. -/
def readDirectives : List String → List LogDirective × List String →
    List LogDirective × List String
  | [], read => read
  | text :: rest, (directives, complaints) =>
    let text := Text.trim text
    if text = "" then readDirectives rest (directives, complaints)
    else
      match readDirective text with
      | .ok d => readDirectives rest (d.put directives, complaints)
      | .error complaint => readDirectives rest (directives, complaints ++ [complaint])

/-- Where no directive is given, errors pass. -/
def orErrors (directives : List LogDirective) : List LogDirective :=
  if directives = [] then [⟨none, .upTo .error⟩] else directives

/-- Reads a list of directives, with complaints of those that make no sense. A message filter
stands behind a slash. -/
def parse (text : String) : LogFilter × List String :=
  let ofParts (directives wanted : String) : LogFilter × List String :=
    let (directives, complaints) := readDirectives (directives.splitOn ",") ([], [])
    (⟨orErrors directives, wanted⟩, complaints)
  match text.splitOn "/" with
  | [directives] => ofParts directives ""
  | [directives, wanted] => ofParts directives wanted
  | _ => (⟨orErrors [], ""⟩, [complaint text ++ " (too many '/'s)"])

def shows (filter : LogFilter) (r : Record) : Bool :=
  match LogDirective.deciding? r.source filter.directives with
  | some d => d.threshold.passes r.level && Text.occurs filter.wanted.toList r.message.toList
  | none => false

end LogFilter

end MeshProbe
