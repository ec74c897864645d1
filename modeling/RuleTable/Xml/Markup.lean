import RuleTable.Xml.Reference

/-!
# Markup

The pieces that documents are written from: attributes and tags. Whatever is written between
quotes or between tags is escaped, so that it can be any text.
-/

set_option autoImplicit false

namespace RuleTable

namespace Markup

/-- An attribute, with the gap before it. -/
def field (gap key value : Text) : Text :=
  gap ++ key ++ "=\"".toList ++ writeEscaped value ++ ['"']

/-- An attribute after a space. -/
def spacedField (key value : Text) : Text := field [' '] key value

/-- A start tag with attributes, which bring their gaps. -/
def startTag (name : Text) (attributes : List Text) : Text :=
  ['<'] ++ name ++ attributes.flatten ++ ['>']

/-- The tag of an element with nothing in it. -/
def emptyTag (name : Text) (attributes : List Text) : Text :=
  ['<'] ++ name ++ attributes.flatten ++ " />".toList

/-- An end tag. -/
def endTag (name : Text) : Text := "</".toList ++ name ++ ['>']

/-- An element with nothing but text in it. -/
def textElement (name text : Text) : Text :=
  startTag name [] ++ writeEscaped text ++ endTag name

/-- A line of a document, indented. -/
def line (indent : Nat) (content : Text) : Text :=
  Text.spaces indent ++ content ++ ['\n']

end Markup

end RuleTable
