/-!
Reading one of several names. A text that is none of them is refused by listing them all.
-/

namespace MeshProbe

/-- A text where one of the names was wanted. -/
structure UnknownName where
  text : String
  choices : List String
  deriving DecidableEq, Repr

namespace UnknownName

def ticked (name : String) : String := "`" ++ name ++ "`"

def choiceList : List String → String
  | [] => "there are no variants"
  | [one] => "expected " ++ ticked one
  | [one, other] => "expected " ++ ticked one ++ " or " ++ ticked other
  | names => "expected one of " ++ ", ".intercalate (names.map ticked)

def message (e : UnknownName) : String :=
  "Parse error: unknown variant " ++ ticked e.text ++ ", " ++ choiceList e.choices

end UnknownName

/-- The member of a list with a given name. -/
def choose {α : Type} (name : α → String) (all : List α) (text : String) :
    Except UnknownName α :=
  match all.find? (name · == text) with
  | some x => .ok x
  | none => .error ⟨text, all.map name⟩

end MeshProbe
