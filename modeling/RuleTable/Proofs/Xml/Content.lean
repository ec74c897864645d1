import RuleTable.Proofs.Xml.Tags
import RuleTable.Xml.Content

/-!
# The recursion of content

The reader of content carries along that what is left is no longer than the text, since this is why
it ends. **`contentOf`** is the reader without that bound, and the equations here are its recursion,
one for each way in which content can go on: with a comment, with an element, with character data,
or not at all. An element inside content is read just like the root element of a document.
-/

set_option autoImplicit false

namespace RuleTable

open Text Markup

namespace Xml

/-! ## Content without its bound -/

/-- The pieces of the content of a text, and what is left. -/
def contentOf (text : Text) : Except Fault (List Piece × Text) :=
  (readContent text).map fun read => (read.pieces, read.rest)

/-- A piece in front of the content that was read. -/
def consPiece (piece : Piece) (read : List Piece × Text) : List Piece × Text :=
  (piece :: read.1, read.2)

@[simp] theorem contentOf_nil : contentOf [] = .ok ([], []) := by
  rw [contentOf, readContent]
  rfl

/-! ## What comes next -/

/-- A comment adds nothing. -/
theorem contentOf_comment (inner : Text) :
    contentOf ('<' :: '!' :: '-' :: '-' :: inner)
      = match after? "-->".toList inner with
        | none => .error ⟨.openComment, inner⟩
        | some rest => contentOf rest := by
  rw [contentOf, readContent.eq_2]
  split
  · next h => simp only [h]; rfl
  · next rest h =>
      simp only [h, contentOf]
      cases readContent rest <;> rfl

/-- Where no name follows `<`, content ends. -/
theorem contentOf_stop {inner : Text} (hc : ∀ text, inner = '!' :: '-' :: '-' :: text → False)
    (hn : name? inner = none) : contentOf ('<' :: inner) = .ok ([], '<' :: inner) := by
  rw [contentOf, readContent.eq_3 _ hc]
  split
  · rfl
  · next h => simp [hn] at h

/-- A tag that is a whole element is read as an element. -/
theorem readElement_whole {name text afterTag : Text} {tag : StartTag}
    (ht : readStartTag name text = .ok (tag, afterTag)) (hw : tag.isWhole = true) :
    readElement name text = .ok (tag.element [], afterTag) := by
  rw [readElement, ht]
  show (if tag.isWhole = true then _ else _) = _
  rw [if_pos hw]
  rfl

/-- After another start tag the content is read, and then the end tag. -/
theorem readElement_open {name text afterTag : Text} {tag : StartTag}
    (ht : readStartTag name text = .ok (tag, afterTag)) (hw : tag.isWhole ≠ true) :
    readElement name text
      = (contentOf afterTag).bind fun read =>
          (readEndTag name read.2).map fun rest => (tag.element read.1, rest) := by
  rw [readElement, ht]
  show (if tag.isWhole = true then _ else _) = _
  rw [if_neg hw, contentOf]
  cases readContent afterTag with
  | error fault => rfl
  | ok content =>
      show (readEndTag name content.rest).bind _ = (readEndTag name content.rest).map _
      cases readEndTag name content.rest <;> rfl

/-- **Where a name follows `<`, an element is read**, and then the content after it. -/
theorem contentOf_element {inner name afterName : Text} (hn : name? inner = some (name, afterName)) :
    contentOf ('<' :: inner)
      = (readElement name afterName).bind fun read =>
          (contentOf read.2).map (consPiece (.child read.1)) := by
  have hc : ∀ text, inner = '!' :: '-' :: '-' :: text → False := by
    rintro text rfl
    rw [name?_cons_eq_none _ (by decide)] at hn
    simp at hn
  -- The reader of content opens the element itself, step by step as `readElement` does.
  rw [contentOf, readContent.eq_3 _ hc]
  split
  · next h => simp [hn] at h
  · next name' afterName' h =>
      obtain ⟨rfl, rfl⟩ : name = name' ∧ afterName = afterName' := by simpa [hn] using h
      split
      · next h =>
          rw [readElement, h]
          rfl
      · next tag afterTag h =>
          by_cases hw : tag.isWhole = true
          · rw [readElement_whole h hw, if_pos hw]
            show _ = (contentOf afterTag).map _
            rw [contentOf]
            cases readContent afterTag <;> rfl
          · rw [readElement_open h hw, if_neg hw, contentOf]
            cases readContent afterTag with
            | error fault => rfl
            | ok content =>
                show _ = ((readEndTag name content.rest).map _).bind _
                simp only
                split
                · next h =>
                    rw [h]
                    rfl
                · next afterEnd h =>
                    simp only [h]
                    show _ = (contentOf afterEnd).map _
                    rw [contentOf]
                    cases readContent afterEnd <;> rfl

/-- **Elsewhere a run of character data is read**, up to the next `<`. -/
theorem contentOf_data {c : Char} (inner : Text) (hc : c ≠ '<') :
    contentOf (c :: inner)
      = match decode ((c :: inner).takeWhile (· != '<')) with
        | none => .error ⟨.badCharacterData, (c :: inner).dropWhile (· != '<')⟩
        | some data =>
            (contentOf (inner.dropWhile (· != '<'))).map (consPiece (.data data)) := by
  rw [contentOf, readContent.eq_4 _ _ (fun _ h _ => hc h) hc]
  cases decode ((c :: inner).takeWhile (· != '<')) with
  | none => rfl
  | some data =>
      simp only [contentOf]
      cases readContent (inner.dropWhile (· != '<')) <;> rfl

end Xml

end RuleTable
