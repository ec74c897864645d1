import RuleTable.Xml.Element
import RuleTable.Xml.StartTag

/-!
# Content

Between the start tag and the end tag of an element stand character data, comments and child
elements. Once the name in a start tag has been read there is no going back, so the first fault
in a text is the one that is reported.
-/

set_option autoImplicit false

namespace RuleTable

open Text

namespace Xml

/-! ## End tags -/

/-- What follows the end tag of a name. -/
def readEndTag (name : Text) : Text → Except Fault Text
  | '<' :: '/' :: text =>
      match name? text with
      | some (other, rest) =>
          if other = name then
            match skipBlanks rest with
            | '>' :: rest => .ok rest
            | rest => .error ⟨.openTag, rest⟩
          else .error ⟨.otherEndTag, text⟩
      | none => .error ⟨.otherEndTag, text⟩
  | text => .error ⟨.noEndTag, text⟩

/-- What follows an end tag is shorter than the text. -/
theorem length_of_readEndTag {name text rest : Text} (h : readEndTag name text = .ok rest) :
    rest.length < text.length := by
  rw [readEndTag.eq_def] at h
  split at h
  · next text =>
      split at h
      · next other afterName hn =>
          split at h
          · split at h
            · next hs =>
                have h₁ := length_of_name? hn
                have h₂ := length_skipBlanks_le afterName
                simp only [Except.ok.injEq] at h
                rw [hs, List.length_cons, h] at h₂
                simp only [List.length_cons]
                omega
            · simp at h
          · simp at h
      · simp at h
  · simp at h

/-! ## Content -/

/-- **A piece of content**: character data or a child element. -/
inductive Piece
  | data (text : Text)
  | child (element : Element)

/-- The character data of a piece. -/
def Piece.data? : Piece → Option Text
  | data text => some text
  | child _ => none

/-- The child element of a piece. -/
def Piece.child? : Piece → Option Element
  | data _ => none
  | child element => some element

/-- The element of a start tag with the content that follows it. -/
def StartTag.element (tag : StartTag) (content : List Piece) : Element :=
  .mk tag.name tag.attributes (content.filterMap Piece.data?).flatten
    (content.filterMap Piece.child?)

/-- **Content read** from a text: its pieces and what follows them. -/
structure ContentRead (text : Text) where
  pieces : List Piece
  rest : Text
  length_le : rest.length ≤ text.length

/-- What follows a comment is shorter than the text. -/
theorem length_lt_of_comment {inner rest : Text} (h : after? "-->".toList inner = some rest) :
    rest.length < ('<' :: '!' :: '-' :: '-' :: inner).length := by
  have := length_of_after? h
  simp only [List.length_cons]
  omega

/-- What follows a start tag is shorter than the text. -/
theorem length_lt_of_startTag {inner name afterName afterTag : Text} {tag : StartTag}
    (hn : name? inner = some (name, afterName))
    (ht : readStartTag name afterName = .ok (tag, afterTag)) :
    afterTag.length < ('<' :: inner).length := by
  have h₁ := length_of_name? hn
  have h₂ := length_of_readStartTag ht
  simp only [List.length_cons]
  omega

/-- What follows an end tag is shorter than the text that starts with the start tag. -/
theorem length_lt_of_endTag {inner name afterName afterTag afterContent afterEnd : Text}
    {tag : StartTag} (hn : name? inner = some (name, afterName))
    (ht : readStartTag name afterName = .ok (tag, afterTag))
    (hle : afterContent.length ≤ afterTag.length)
    (he : readEndTag name afterContent = .ok afterEnd) :
    afterEnd.length < ('<' :: inner).length := by
  have h₁ := length_lt_of_startTag hn ht
  have h₂ := length_of_readEndTag he
  omega

/-- What follows a run of character data is shorter than the text. -/
theorem length_lt_of_data (c : Char) (inner : Text) :
    (inner.dropWhile (· != '<')).length < (c :: inner).length :=
  Nat.lt_succ_of_le (length_dropWhile_le (· != '<') inner)

/-- The content at the start of a text. It ends where neither character data nor a comment nor a
start tag follows. -/
def readContent (text : Text) : Except Fault (ContentRead text) :=
  match text with
  | [] => .ok ⟨[], [], Nat.le_refl _⟩
  | '<' :: '!' :: '-' :: '-' :: inner =>
      match hc : after? "-->".toList inner with
      | none => .error ⟨.openComment, inner⟩
      | some rest =>
          match readContent rest with
          | .error fault => .error fault
          | .ok ⟨pieces, rest', hle⟩ =>
              .ok ⟨pieces, rest', Nat.le_trans hle (Nat.le_of_lt (length_lt_of_comment hc))⟩
  | '<' :: inner =>
      match hn : name? inner with
      | none => .ok ⟨[], '<' :: inner, Nat.le_refl _⟩
      | some (name, afterName) =>
          match ht : readStartTag name afterName with
          | .error fault => .error fault
          | .ok (tag, afterTag) =>
              if tag.isWhole then
                match readContent afterTag with
                | .error fault => .error fault
                | .ok ⟨pieces, rest, hle⟩ =>
                    .ok ⟨.child (tag.element []) :: pieces, rest,
                      Nat.le_trans hle (Nat.le_of_lt (length_lt_of_startTag hn ht))⟩
              else
                match readContent afterTag with
                | .error fault => .error fault
                | .ok ⟨content, afterContent, hle⟩ =>
                    match he : readEndTag name afterContent with
                    | .error fault => .error fault
                    | .ok afterEnd =>
                        match readContent afterEnd with
                        | .error fault => .error fault
                        | .ok ⟨pieces, rest, hle'⟩ =>
                            .ok ⟨.child (tag.element content) :: pieces, rest,
                              Nat.le_trans hle' (Nat.le_of_lt (length_lt_of_endTag hn ht hle he))⟩
  | c :: inner =>
      match decode ((c :: inner).takeWhile (· != '<')) with
      | none => .error ⟨.badCharacterData, (c :: inner).dropWhile (· != '<')⟩
      | some data =>
          match readContent (inner.dropWhile (· != '<')) with
          | .error fault => .error fault
          | .ok ⟨pieces, rest, hle⟩ =>
              .ok ⟨.data data :: pieces, rest,
                Nat.le_trans hle (Nat.le_of_lt (length_lt_of_data c inner))⟩
termination_by text.length
decreasing_by
  · exact length_lt_of_comment hc
  · exact length_lt_of_startTag hn ht
  · exact length_lt_of_startTag hn ht
  · exact length_lt_of_endTag hn ht hle he
  · exact length_lt_of_data c inner

/-! ## Elements -/

/-- The element of a name, from what follows the name, and what follows the element. -/
def readElement (name text : Text) : Except Fault (Element × Text) := do
  let (tag, afterTag) ← readStartTag name text
  if tag.isWhole then
    return (tag.element [], afterTag)
  let content ← readContent afterTag
  let afterEnd ← readEndTag name content.rest
  return (tag.element content.pieces, afterEnd)

end Xml

end RuleTable
