import RuleTable.Proofs.Xml.References
import RuleTable.Text.Blank
import RuleTable.Xml.Element
import RuleTable.Xml.Name

/-!
# The grammar of documents

A **form** is a derivation of the grammar: a choice of everything that a document, or a part of one,
leaves open. Each form is `written` as one text, and the form of an element or a document has the
`tree` that it stands for. What the grammar demands is carried by the forms themselves, so every
form is that of a part of a well-formed document.

    document  = misc* element misc*
    misc      = ASCII blank | `<!--` up to the first `-->` | `<?` up to the first `?>`
    element   = `<` name attribute* blank* ( `/>` | `>` content* `</` name blank* `>` )
    attribute = blank+ name blank* `=` blank* value
    value     = `"` ... `"` | `'` ... `'`
    content   = comment | element | run of character data

A run of character data goes on up to the next `<`. Character data and values consist of symbols,
and the two names of an element are the same.
-/

set_option autoImplicit false

namespace RuleTable

open Text

namespace Xml

/-! ## Names and blanks -/

/-- **A name**: a character that may start one, and characters that may follow. -/
@[ext]
structure NameForm where
  first : Char
  more : Run isNameChar
  starts : isNameStart first = true

def NameForm.text (name : NameForm) : Text := name.first :: name.more.text

/-- **Blanks**, of which there may be none. -/
abbrev Blanks := Run isAsciiBlank

/-- **A gap**: one or more blanks. -/
@[ext]
structure Gap extends Run isAsciiBlank where
  nonempty : text ≠ []

/-! ## Symbols in a row -/

/-- **A raw text**: symbols that are written in characters of one class. -/
@[ext]
structure Raw (p : Char → Bool) where
  symbols : List Symbol
  all : ∀ c ∈ Symbol.writtenAll symbols, p c = true

namespace Raw

variable {p : Char → Bool}

def written (raw : Raw p) : Text := Symbol.writtenAll raw.symbols

/-- What the symbols denote. -/
def value (raw : Raw p) : Text := raw.symbols.map Symbol.denoted

/-- A raw text as a run of its class. -/
def run (raw : Raw p) : Run p := ⟨raw.written, raw.all⟩

end Raw

/-- **Character data**: symbols without `<`. -/
abbrev DataForm := Raw (· != '<')

/-! ## Tags -/

/-- **The value of an attribute**: symbols in quotes, without the quote itself and without `<`. -/
structure ValueForm where
  quote : Char
  isQuote : quote = '"' ∨ quote = '\''
  raw : Raw fun c => c != quote && c != '<'

def ValueForm.written (value : ValueForm) : Text :=
  value.quote :: (value.raw.written ++ [value.quote])

/-- **An attribute** with the gap before it. -/
structure AttributeForm where
  gap : Gap
  key : NameForm
  beforeSign : Blanks
  afterSign : Blanks
  value : ValueForm

namespace AttributeForm

def written (form : AttributeForm) : Text :=
  form.gap.text ++ form.key.text ++ form.beforeSign.text ++ ['='] ++ form.afterSign.text ++
    form.value.written

/-- The key and the decoded value. -/
def pair (form : AttributeForm) : Text × Text := (form.key.text, form.value.raw.value)

end AttributeForm

/-- **A start tag** without the brackets: a name, attributes in a row and blanks. -/
@[ext]
structure TagForm where
  name : NameForm
  attributes : List AttributeForm
  blanks : Blanks

namespace TagForm

/-- What stands between the name of a tag and its closing bracket. -/
def afterName (tag : TagForm) : Text :=
  tag.attributes.flatMap AttributeForm.written ++ tag.blanks.text

/-- The element that a tag starts. -/
def element (tag : TagForm) (data : Text) (children : List Element) : Element :=
  .mk tag.name.text (tag.attributes.map AttributeForm.pair) data children

end TagForm

/-- What closes a start tag, which may be a whole element. -/
def closing : Bool → Text
  | true => ['/', '>']
  | false => ['>']

/-! ## Elements and content -/

/-- **A comment** after `<!--`. -/
abbrev CommentForm := Marked "-->".toList

/-- **A processing instruction** after `<?`. -/
abbrev InstructionForm := Marked "?>".toList

mutual

/-- **An element**: a tag that is a whole element, or content between two tags. The end tag repeats
the name of the start tag, and blanks may follow it there. -/
inductive ElementForm
  | whole (tag : TagForm)
  | enclosing (tag : TagForm) (content : ContentForm) (blanks : Blanks)

/-- **Content**: comments and elements with character data before each of them and at the end.
Character data without symbols is none at all. So no two runs of it are neighbours, and each is as
long as it can be. -/
inductive ContentForm
  | last (data : DataForm)
  | comment (data : DataForm) (comment : CommentForm) (content : ContentForm)
  | child (data : DataForm) (element : ElementForm) (content : ContentForm)

end

/-- The tag that an element starts with. -/
def ElementForm.tag : ElementForm → TagForm
  | whole tag => tag
  | enclosing tag _ _ => tag

mutual

def ElementForm.written : ElementForm → Text
  | .whole tag => '<' :: (tag.name.text ++ tag.afterName ++ closing true)
  | .enclosing tag content blanks =>
      '<' :: (tag.name.text ++ tag.afterName ++ closing false ++ content.written ++
        '<' :: '/' :: (tag.name.text ++ blanks.text ++ ['>']))

def ContentForm.written : ContentForm → Text
  | .last data => data.written
  | .comment data comment content =>
      data.written ++ '<' :: '!' :: '-' :: '-' :: (comment.text ++ content.written)
  | .child data element content => data.written ++ (element.written ++ content.written)

end

/-- All the character data directly in content, decoded and in one piece. -/
def ContentForm.data : ContentForm → Text
  | last data => data.value
  | comment data _ content => data.value ++ content.data
  | child data _ content => data.value ++ content.data

mutual

/-- **The tree of an element.** -/
def ElementForm.tree : ElementForm → Element
  | .whole tag => tag.element [] []
  | .enclosing tag content _ => tag.element content.data content.children

/-- The trees of the elements directly in content, in order. -/
def ContentForm.children : ContentForm → List Element
  | .last _ => []
  | .comment _ _ content => content.children
  | .child _ element content => element.tree :: content.children

end

/-! ## Documents -/

/-- **What may stand around the root element.** -/
inductive MiscForm
  | blank (c : Char) (h : isAsciiBlank c = true)
  | comment (form : CommentForm)
  | instruction (form : InstructionForm)

def MiscForm.written : MiscForm → Text
  | blank c _ => [c]
  | comment form => '<' :: '!' :: '-' :: '-' :: form.text
  | instruction form => '<' :: '?' :: form.text

/-- **A document**: one element with blanks, comments and processing instructions around it. -/
@[ext]
structure DocumentForm where
  front : List MiscForm
  root : ElementForm
  back : List MiscForm

namespace DocumentForm

def written (document : DocumentForm) : Text :=
  document.front.flatMap MiscForm.written ++
    (document.root.written ++ document.back.flatMap MiscForm.written)

/-- **The tree of a document.** -/
def tree (document : DocumentForm) : Element := document.root.tree

end DocumentForm

end Xml

end RuleTable
