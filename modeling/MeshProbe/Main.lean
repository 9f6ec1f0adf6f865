import MeshProbe.CommandLine.Program
/-!
The program run on the files at hand. It has no route to a network and no commands to run, so that
a command which asks for either reports that it is out of reach. Of domain names it knows those of
ASCII alone.
-/

namespace MeshProbe.Main

open CommandLine

/-- The files that a command line names. -/
def namedFiles (words : List String) : List String :=
  match Arguments.parse words with
  | .error _ => []
  | .ok a =>
    a.environmentFile ::
      match a.command with
      | .apply file _ | .delete file _ => [file]
      | _ => []

/-- Adds a file, if it can be read. -/
def load (files : Files) (path : String) : IO Files := do
  match ← (IO.FS.readFile path).toBaseIO with
  | .ok text =>
    let names := (FilePath.names path).filter fun name => name ≠ "" && name ≠ "."
    return files.add (Files.startOf files.workingDirectory path ++ names) (.file text)
  | .error _ => return files

def world (files : Files) : World where
  now := 0
  network := .ofReplies fun _ _ => ⟨0, .error .unreachable⟩
  files := files
  commands := { onPath := [], answer := fun _ _ => ⟨[], []⟩, calls := [] }
  records := []
  printed := []

def showRecord (r : Record) : String :=
  "[" ++ r.level.label ++ " " ++ r.source ++ "] " ++ r.message

end MeshProbe.Main

open MeshProbe MeshProbe.Main in
def main (words : List String) : IO UInt32 := do
  let here := (FilePath.names (← IO.currentDir).toString).filter (· ≠ "")
  let files ← (namedFiles words).foldlM load (⟨[(here, .directory)], here⟩ : Files)
  let _ := DomainNames.plain
  let (outcome, after) := CommandLine.Program.run words (← IO.getEnv "RUST_LOG") (world files)
  for record in after.records.reverse do
    if outcome.filter.shows record then IO.eprintln (showRecord record)
  for text in after.printed.reverse do IO.println text
  for line in outcome.complaints do IO.eprintln line
  return UInt32.ofNat outcome.exitCode
