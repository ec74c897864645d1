import RuleTable.Proofs.Xml.Content

/-!
# Content is read as it is written

Reading content gives runs of character data and child elements. What an element keeps of them is
all the data in one piece and the list of the children, and **`Reads`** states just that much of a
reading. It does not say how the data falls into runs, so two pieces of data that are written one
after the other may be read as one run.

**`IsContent`** then says of a written text what it adds to the content it is put in front of. It
holds of nothing, of data, of whole elements and of everything put together from these, which is
how a document of any size is read.
-/

set_option autoImplicit false

namespace RuleTable

open Text Markup

namespace Xml

/-! ## What a reading of content gives -/

/-- The character data of some pieces, in one piece. -/
def dataOf (pieces : List Piece) : Text := (pieces.filterMap Piece.data?).flatten

/-- The child elements among some pieces. -/
def childrenOf (pieces : List Piece) : List Element := pieces.filterMap Piece.child?

/-- **Content is read from a text**: its character data in one piece, its child elements, and what
is left. -/
def Reads (text data : Text) (children : List Element) (rest : Text) : Prop :=
  ∃ pieces, contentOf text = .ok (pieces, rest) ∧ dataOf pieces = data ∧
    childrenOf pieces = children

/-- Content ends at an end tag. -/
theorem reads_endTag (text : Text) : Reads ('<' :: '/' :: text) [] [] ('<' :: '/' :: text) :=
  ⟨[], contentOf_stop (by simp) (name?_cons_eq_none _ (by decide)), rfl, rfl⟩

/-- **The data of content comes from the run it starts with and from what follows the run.** The
run may be empty. -/
theorem reads_iff_run {text data rest : Text} {children : List Element} :
    Reads text data children rest ↔
      ∃ run later, decode (text.takeWhile (· != '<')) = some run ∧
        Reads (text.dropWhile (· != '<')) later children rest ∧ data = run ++ later := by
  cases text with
  | nil =>
      constructor
      · intro h
        exact ⟨[], data, rfl, h, rfl⟩
      · rintro ⟨run, later, hd, h, rfl⟩
        obtain rfl : [] = run := by simpa [decode, decodeFrom] using hd
        exact h
  | cons c inner =>
      by_cases hc : c = '<'
      · -- At markup the run is empty, and the text after it is the text itself.
        subst hc
        constructor
        · intro h
          exact ⟨[], data, rfl, h, rfl⟩
        · rintro ⟨run, later, hd, h, rfl⟩
          obtain rfl : [] = run := by simpa [decode, decodeFrom] using hd
          exact h
      · have hdrop : (c :: inner).dropWhile (· != '<') = inner.dropWhile (· != '<') := by simp [hc]
        rw [hdrop]
        constructor
        · rintro ⟨pieces, h, rfl, rfl⟩
          rw [contentOf_data _ hc] at h
          cases hd : decode ((c :: inner).takeWhile (· != '<')) with
          | none => simp [hd] at h
          | some run =>
              simp only [hd] at h
              cases hl : contentOf (inner.dropWhile (· != '<')) with
              | error fault => simp [hl, Except.map] at h
              | ok read =>
                  obtain ⟨rfl, rfl⟩ : .data run :: read.1 = pieces ∧ read.2 = rest := by
                    simpa [hl, Except.map, consPiece] using h
                  exact ⟨run, dataOf read.1, rfl, ⟨read.1, hl, rfl, rfl⟩, rfl⟩
        · rintro ⟨run, later, hd, ⟨pieces, hl, rfl, rfl⟩, rfl⟩
          refine ⟨.data run :: pieces, ?_, rfl, rfl⟩
          rw [contentOf_data _ hc, hd, hl]
          rfl

/-- **Character data in front of content** is added to its data. -/
theorem Reads.data {raw run text data rest : Text} {children : List Element}
    (hraw : '<' ∉ raw) (hrun : decode raw = some run) (h : Reads text data children rest) :
    Reads (raw ++ text) (run ++ data) children rest := by
  obtain ⟨first, later, hd, hl, rfl⟩ := reads_iff_run.mp h
  have hne : ∀ c ∈ raw, (c != '<') = true := by
    intro c hc
    simpa using ne_of_mem_of_not_mem hc hraw
  rw [reads_iff_run, List.takeWhile_append_of_pos hne, List.dropWhile_append_of_pos hne]
  exact ⟨run ++ first, later, by rw [decode_append _ hrun, hd]; rfl, hl, by rw [List.append_assoc]⟩

/-- **An element in front of content** is added to its children. -/
theorem Reads.child {inner name afterName text data rest : Text} {children : List Element}
    {element : Element} (hn : name? inner = some (name, afterName))
    (he : readElement name afterName = .ok (element, text)) (h : Reads text data children rest) :
    Reads ('<' :: inner) data (element :: children) rest := by
  obtain ⟨pieces, hp, rfl, rfl⟩ := h
  refine ⟨.child element :: pieces, ?_, rfl, rfl⟩
  rw [contentOf_element hn, he]
  show (contentOf text).map _ = _
  rw [hp]
  rfl

/-- **Between its tags an element has the content that is read there.** -/
theorem readElement_of_reads {name text afterTag data afterContent rest : Text} {tag : StartTag}
    {children : List Element} (ht : readStartTag name text = .ok (tag, afterTag))
    (hw : tag.isWhole ≠ true) (hr : Reads afterTag data children afterContent)
    (he : readEndTag name afterContent = .ok rest) :
    readElement name text = .ok (.mk tag.name tag.attributes data children, rest) := by
  obtain ⟨pieces, hp, rfl, rfl⟩ := hr
  rw [readElement_open ht hw, hp]
  show (readEndTag name afterContent).map _ = _
  rw [he]
  rfl

/-- **An end tag that was written is read.** -/
theorem readEndTag_endTag {name : Text} (rest : Text) (hn : IsName name) :
    readEndTag name (endTag name ++ rest) = .ok rest := by
  have htext : endTag name ++ rest = '<' :: '/' :: (name ++ '>' :: rest) := by simp [endTag]
  have hname : name? (name ++ '>' :: rest) = some (name, '>' :: rest) := name?_append hn rfl
  have hskip : skipBlanks ('>' :: rest) = '>' :: rest := skipBlanks_cons _ (by decide)
  rw [htext, readEndTag, hname]
  simp only [if_true, hskip]

/-! ## Written content -/

/-- **A text is written content** when it adds its data and its children to the content that it is
put in front of. -/
def IsContent (written data : Text) (children : List Element) : Prop :=
  ∀ ⦃text later rest : Text⦄ ⦃more : List Element⦄, Reads text later more rest →
    Reads (written ++ text) (data ++ later) (children ++ more) rest

namespace IsContent

variable {written other data later : Text} {children more : List Element}

/-- Nothing adds nothing. -/
theorem nil : IsContent [] [] [] := fun _ _ _ _ h => h

/-- **Written content goes piece by piece.** -/
theorem append (h : IsContent written data children) (h' : IsContent other later more) :
    IsContent (written ++ other) (data ++ later) (children ++ more) := by
  intro text data' rest children' hr
  -- The second text is put in front of the content first, and then the first one.
  simp only [List.append_assoc]
  exact h (h' hr)

/-- Blanks are character data as they stand. -/
theorem blanks (gap : Text) (h : gap.all isAsciiBlank = true) : IsContent gap gap [] := by
  have hlt : '<' ∉ gap := fun hc => absurd (List.all_eq_true.mp h _ hc) (by decide)
  have hamp : '&' ∉ gap := fun hc => absurd (List.all_eq_true.mp h _ hc) (by decide)
  exact fun _ _ _ _ hr => hr.data hlt (decode_eq_self hamp)

/-- **An escaped text is the text as character data.** -/
theorem escaped (text : Text) : IsContent (writeEscaped text) text [] :=
  fun _ _ _ _ hr => hr.data (fun hc => (ne_of_mem_writeEscaped hc).1 rfl) (decode_writeEscaped text)

variable {name inner : Text} {texts : List Text} {attributes : List (Text × Text)}

/-- **An element that was written is read**, from what follows its name on. -/
theorem readElement_eq (rest : Text) (hn : IsName name) (hf : Fields texts attributes)
    (hc : IsContent inner data children) :
    readElement name (texts.flatten ++ '>' :: (inner ++ (endTag name ++ rest)))
      = .ok (.mk name attributes data children, rest) := by
  have hend : Reads (endTag name ++ rest) [] [] (endTag name ++ rest) := by
    simpa [endTag] using reads_endTag (name ++ '>' :: rest)
  have hin : Reads (inner ++ (endTag name ++ rest)) data children (endTag name ++ rest) := by
    simpa using hc hend
  exact readElement_of_reads (readStartTag_open name _ hf) (by simp) hin
    (readEndTag_endTag rest hn)

/-- **An element that was written is one child.** -/
theorem element (hn : IsName name) (hf : Fields texts attributes)
    (hc : IsContent inner data children) :
    IsContent (startTag name texts ++ inner ++ endTag name) []
      [.mk name attributes data children] := by
  intro text later rest more hr
  have htext : startTag name texts ++ inner ++ endTag name ++ text
      = '<' :: (name ++ (texts.flatten ++ '>' :: (inner ++ (endTag name ++ text)))) := by
    simp [startTag]
  rw [htext]
  exact hr.child (name?_append hn (hf.endsName_append rfl)) (readElement_eq text hn hf hc)

/-- **An empty element that was written is one child.** -/
theorem emptyElement (hn : IsName name) (hf : Fields texts attributes) :
    IsContent (emptyTag name texts) [] [.mk name attributes [] []] := by
  intro text later rest more hr
  have htext : emptyTag name texts ++ text
      = '<' :: (name ++ (texts.flatten ++ ' ' :: '/' :: '>' :: text)) := by
    simp [emptyTag]
  rw [htext]
  exact hr.child (name?_append hn (hf.endsName_append rfl))
    (readElement_whole (readStartTag_empty name text hf) rfl)

/-- An element with nothing but text in it. -/
theorem textElement (text : Text) (hn : IsName name) :
    IsContent (Markup.textElement name text) [] [.mk name [] text []] :=
  element hn .nil (escaped text)

end IsContent

/-! ## Content in lines

Documents are written in lines, the lines of an element's children indented by two more than its
own. The data of such an element is the line feeds and indents around its children. -/

/-- **An element laid out in lines**: its start tag, its children and its end tag on lines of their
own. -/
def laidOut (indent : Nat) (name : Text) (attributes : List (Text × Text))
    (children : List Element) : Element :=
  .mk name attributes
    (['\n'] ++ children.flatMap (fun _ => line (indent + 2) []) ++ spaces indent) children

/-- **Lines of children**: a text that writes each child on lines with an indent. -/
def IsLines (indent : Nat) (written : Text) (children : List Element) : Prop :=
  IsContent written (children.flatMap fun _ => line indent []) children

namespace IsLines

variable {indent : Nat} {written other : Text} {children more : List Element}

/-- Spaces are blanks. -/
theorem all_isAsciiBlank_spaces (n : Nat) : (spaces n).all isAsciiBlank = true := by
  rw [List.all_eq_true]
  intro c hc
  obtain rfl := List.eq_of_mem_replicate hc
  decide

/-- Lines after lines. -/
theorem append (h : IsLines indent written children) (h' : IsLines indent other more) :
    IsLines indent (written ++ other) (children ++ more) := by
  rw [IsLines, List.flatMap_append]
  exact IsContent.append h h'

/-- **Lines for each item of a list.** -/
theorem flatMap {α : Type} {items : List α} {write : α → Text} {tree : α → Element}
    (h : ∀ item ∈ items, IsLines indent (write item) [tree item]) :
    IsLines indent (items.flatMap write) (items.map tree) := by
  induction items with
  | nil => exact IsContent.nil
  | cons item items ih =>
      rw [List.flatMap_cons, List.map_cons, ← List.singleton_append]
      exact append (h item (by simp)) (ih fun item' h' => h item' (by simp [h']))

/-- One element on one line. -/
theorem single (indent : Nat) {element : Element} (h : IsContent written [] [element]) :
    IsLines indent (line indent written) [element] := by
  have hs := IsContent.blanks (spaces indent) (all_isAsciiBlank_spaces indent)
  have hn := IsContent.blanks ['\n'] (by decide)
  simpa [IsLines, line] using (hs.append h).append hn

/-- **An element with its tags on lines of their own** and the lines of its children between
them. -/
theorem block (indent : Nat) (name : Text) {texts : List Text} {attributes : List (Text × Text)}
    (hn : IsName name) (hf : Fields texts attributes) (h : IsLines (indent + 2) written children) :
    IsLines indent (line indent (startTag name texts) ++ written ++ line indent (endTag name))
      [laidOut indent name attributes children] := by
  have hs := IsContent.blanks (spaces indent) (all_isAsciiBlank_spaces indent)
  have hl := IsContent.blanks ['\n'] (by decide)
  -- The line feed after the start tag and the indent of the end tag belong to the element.
  have he := IsContent.element hn hf ((hl.append h).append hs)
  simpa [IsLines, line, laidOut] using (hs.append he).append hl

end IsLines

end Xml

end RuleTable
