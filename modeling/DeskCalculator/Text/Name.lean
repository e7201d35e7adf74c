set_option autoImplicit false

namespace DeskCalculator.Text

def isNameStart (c : Char) : Bool :=
  c.isAlpha || c == '_'

def isNameChar (c : Char) : Bool :=
  c.isAlphanum || c == '_'

/-- The name in small letters. Characters outside ASCII stay as they are. -/
def foldCase (s : String) : String :=
  String.ofList (s.toList.map Char.toLower)

end DeskCalculator.Text
