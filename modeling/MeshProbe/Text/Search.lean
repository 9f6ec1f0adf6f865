/-!
Finding a text within another.
-/

namespace MeshProbe.Text

/-- Whether the first text stands somewhere in the second. -/
def occurs (needle : List Char) : List Char → Bool
  | [] => needle.isEmpty
  | c :: rest => needle.isPrefixOf (c :: rest) || occurs needle rest

end MeshProbe.Text
