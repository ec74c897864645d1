import RuleTable.Text.Basic

/-!
# Faults

Where and why reading a document stops. A **fault** has a cause and the text that was left where
reading stopped; from the document and that text follows the place. The report of a fault shows
the place under the line it lies in, and what was expected there.
-/

set_option autoImplicit false

namespace RuleTable

open Text

/-! ## Causes -/

/-- **Why reading stops.** -/
inductive FaultCause
  /-- No element where the root element should be. -/
  | noRoot
  /-- No `=` after the name of an attribute. -/
  | noEqualsSign
  /-- No quoted value of an attribute, or a value with a reference to nothing. -/
  | noValue
  /-- A tag that is not closed. -/
  | openTag
  /-- Character data with a reference to nothing. -/
  | badCharacterData
  /-- No end tag where the content of an element ends. -/
  | noEndTag
  /-- An end tag of another name. -/
  | otherEndTag
  /-- A comment inside the root element that is not closed. -/
  | openComment
  /-- A comment or a processing instruction outside the root element that is not closed. -/
  | openMisc
  /-- Something else after the root element. -/
  | afterRoot
deriving DecidableEq

/-- What a report says about a cause: what could not be read, then what was expected. -/
def FaultCause.notes : FaultCause → List Text
  | noRoot => ["invalid root element".toList]
  | noEqualsSign => ["invalid root element".toList, "expected `=`".toList]
  | noValue => ["invalid root element".toList, "expected quoted attribute value".toList]
  | openTag => ["invalid root element".toList, "expected `>`".toList]
  | badCharacterData => ["invalid character data".toList]
  | noEndTag => ["invalid root element".toList, "expected `</`".toList]
  | otherEndTag => ["invalid matching end tag".toList]
  | openComment => ["invalid root element".toList]
  | openMisc => []
  | afterRoot => []

/-- **A fault**: its cause and the text left where reading stopped. -/
structure Fault where
  cause : FaultCause
  rest : Text
deriving DecidableEq

/-! ## Positions -/

/-- **A position in a document**: how many line feeds stand before it, and how far along its line it
is. -/
structure Position where
  line : Nat
  column : Nat
deriving DecidableEq

/-- The part of a text after its last line feed. -/
def lastLine (text : Text) : Text := (text.reverse.takeWhile (· != '\n')).reverse

/-- **The position of what follows** `before` in a document. A column counts characters; when the
character at the position takes several bytes in UTF-8, it counts bytes. The end of a document lies
one column after its last character, and a line feed there is part of the line it ends. -/
def positionAfter (before rest : Text) : Position :=
  match rest with
  | [] =>
      let inner := before.dropLast
      ⟨inner.count '\n', (lastLine inner).length + (before.length - inner.length)⟩
  | c :: _ =>
      let line := lastLine before
      ⟨before.count '\n', if c.utf8Size = 1 then line.length else utf8Size line⟩

/-! ## Reports -/

namespace Fault

/-- The part of the document before a fault. -/
def before (document : Text) (fault : Fault) : Text :=
  document.take (document.length - fault.rest.length)

/-- The document with a mark under the place, counted in bytes. -/
def inline (document : Text) (fault : Fault) : Text :=
  document ++ ['\n'] ++ spaces (utf8Size (fault.before document)) ++ "^\n".toList

/-- The line of the place with a mark under the place. -/
def underLine (document : Text) (fault : Fault) : Text :=
  let position := positionAfter (fault.before document) fault.rest
  let number := ofNat (position.line + 1)
  let gutter := spaces number.length
  let line := ((splitOn '\n' document)[position.line]?).getD []
  "parse error at line ".toList ++ number ++ ", column ".toList ++ ofNat (position.column + 1)
    ++ ['\n']
    ++ gutter ++ " |\n".toList
    ++ number ++ " | ".toList ++ line ++ ['\n']
    ++ gutter ++ " | ".toList ++ spaces position.column ++ "^\n".toList

/-- **The report of a fault** in a document. A document of one line is shown whole. -/
def report (document : Text) (fault : Fault) : Text :=
  (if document.contains '\n' then fault.underLine document else fault.inline document)
    ++ join ['\n'] fault.cause.notes

/-- The wording of a fault as an error. -/
def message (document : Text) (fault : Fault) : Text :=
  "malformed XML: ".toList ++ fault.report document

end Fault

end RuleTable
