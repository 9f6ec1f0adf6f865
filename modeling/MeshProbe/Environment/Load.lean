import MeshProbe.Environment.Reader
import MeshProbe.Error
import MeshProbe.World
/-!
Where an environment comes from: a text, or a file that holds one.
-/

namespace MeshProbe.Environment

def ofYaml (text : String) : Except Error Environment :=
  match parse text with
  | .ok env => .ok env
  | .error e => .error (.environmentText e)

/-- What a text stands for where an environment is asked for. -/
def ofString (text : String) : Except Error Environment :=
  ofYaml text

def ofFile (files : Files) (path : String) : Except Error Environment :=
  match files.read path with
  | .error e => .error (.environmentRead path e)
  | .ok text =>
    match parse text with
    | .ok env => .ok env
    | .error e => .error (.environmentParse path e)

/-- Reads the environment from a file of the world. -/
def load (path : String) : Action World Error Environment :=
  World.files? (ofFile · path)

end MeshProbe.Environment
