import RuleTable.Text.Blank

/-!
# Elements

What reading a document gives: a tree of elements. An element has a name, attributes, the text
that stands directly in it and child elements.
-/

set_option autoImplicit false

namespace RuleTable

open Text

/-- **An element**. `text` is all the character data directly inside it, in one piece. -/
inductive Element
  | mk (name : Text) (attributes : List (Text × Text)) (text : Text) (children : List Element)

namespace Element

/-- The name of an element. -/
def name : Element → Text
  | mk name _ _ _ => name

/-- The attributes of an element, in the order they are written. -/
def attributes : Element → List (Text × Text)
  | mk _ attributes _ _ => attributes

/-- The character data directly inside an element, without blanks at its ends. -/
def text : Element → Text
  | mk _ _ text _ => trim text

/-- The child elements, in order. -/
def children : Element → List Element
  | mk _ _ _ children => children

/-- The value of an attribute; of the first, should several have the name. -/
def attribute? (element : Element) (key : Text) : Option Text :=
  (element.attributes.find? (·.1 == key)).map (·.2)

/-- The children of a name. -/
def childrenNamed (element : Element) (key : Text) : List Element :=
  element.children.filter (·.name == key)

mutual

/-- **All elements of a tree**, in the order of their start tags. -/
def all : Element → List Element
  | mk name attributes text children => mk name attributes text children :: allOf children

/-- All elements of several trees. -/
def allOf : List Element → List Element
  | [] => []
  | element :: elements => all element ++ allOf elements

end

/-- All elements of a name in a tree. -/
def allNamed (element : Element) (key : Text) : List Element :=
  element.all.filter (·.name == key)

end Element

end RuleTable
