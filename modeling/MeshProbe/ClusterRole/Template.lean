import MeshProbe.Text.Choice
/-!
Templates of cluster roles. In the mesh's own role some labels carry markers in double braces;
the markers are put aside by a fixed sequence of replacements. In the console's roles only
the version label is filled in.
-/

namespace MeshProbe

/-- The platform that a role of the console is written for. -/
inductive Platform
  | openshift
  | kubernetes
  deriving DecidableEq, Repr

namespace Platform

def all : List Platform := [openshift, kubernetes]

def name : Platform → String
  | openshift => "openshift"
  | kubernetes => "kubernetes"

def ofName (text : String) : Except UnknownName Platform := choose name all text

end Platform

namespace Template

/-- Puts a text in place of every match, from left to right; `skip` characters still belong to
the match before. -/
def replaceMatches (matchLength : List Char → Option Nat) (replacement : List Char) :
    Nat → List Char → List Char
  | _, [] => []
  | skip + 1, _ :: rest => replaceMatches matchLength replacement skip rest
  | 0, c :: rest =>
    match matchLength (c :: rest) with
    | some n => replacement ++ replaceMatches matchLength replacement (n - 1) rest
    | none => c :: replaceMatches matchLength replacement 0 rest

/-- How many characters of a line end with its last two closing braces. -/
def lastClose : List Char → Option Nat
  | [] => none
  | c :: rest =>
    match lastClose rest with
    | some n => some (n + 1)
    | none => if c = '\x7d' ∧ rest.head? = some '\x7d' then some 2 else none

/-- A label whose value is a marker in double braces. -/
structure Marker where
  label : String
  /-- Whether the marker has to end its line, and the line break goes with it. -/
  endsLine : Bool
  replacement : String
  deriving DecidableEq, Repr

namespace Marker

def opening (m : Marker) : List Char :=
  m.label.toList ++ [':', ' ', '\x7b', '\x7b']

/-- The length of the marker at the start of a text: up to the last closing braces of the line,
with at least one character between the braces. -/
def matchLength (m : Marker) (text : List Char) : Option Nat :=
  if m.opening.isPrefixOf text then
    let rest := text.drop m.opening.length
    match rest.takeWhile (· ≠ '\n') with
    | [] => none
    | _ :: line =>
      match lastClose line with
      | none => none
      | some n =>
        if !m.endsLine then some (m.opening.length + 1 + n)
        else if (rest.drop (1 + n)).head? = some '\n' then some (m.opening.length + 1 + n + 1)
        else none
  else none

/-- Puts the replacement in place of every marker of the kind. -/
def put (m : Marker) (text : List Char) : List Char :=
  replaceMatches m.matchLength m.replacement.toList 0 text

end Marker

/-- The account that the console runs under. -/
def accountName : String := "kiali"

/-- The version that takes the place of version labels. -/
def versionLabel : String := "0.10"

/-- The markers of the mesh's role, in the order in which they are replaced. -/
def istioMarkers : List Marker :=
  [⟨"app", false, "app: " ++ accountName⟩,
    ⟨"chart", false, "version: " ++ versionLabel ++ " "⟩,
    ⟨"heritage", true, ""⟩,
    ⟨"release", false, ""⟩]

def renderIstioChars (template : List Char) : List Char :=
  istioMarkers.foldl (fun text m => m.put text) template

def renderIstio (template : String) : String :=
  String.ofList (renderIstioChars template.toList)

def versionPlaceholder : List Char := "$\x7bVERSION_LABEL\x7d".toList

def renderKialiChars (template : List Char) : List Char :=
  replaceMatches
    (fun text =>
      if versionPlaceholder.isPrefixOf text then some versionPlaceholder.length else none)
    versionLabel.toList 0 template

def renderKiali (template : String) : String :=
  String.ofList (renderKialiChars template.toList)

end Template

end MeshProbe
