import RuleTable.Proofs.Steps
import RuleTable.Proofs.Xml.Document
import RuleTable.Proofs.Xml.TagForms
import RuleTable.Proofs.Xml.Written

/-!
# The documents that are read

A document is read exactly when the grammar derives it, and the element that it is read as is the
tree of its one derivation.

That every form is read goes by the structure of the form: content adds its data and its children
to whatever it stands in front of. That whatever is read has a form goes by the length of the text:
content ends its runs where they have to end, and the content of an element is shorter than the
element.
-/

set_option autoImplicit false

namespace RuleTable

open Text

namespace Xml

variable {text rest : Text}

/-! ## Elements are read -/

theorem TagForm.name?_append (tag : TagForm) (whole : Bool) (rest : Text) :
    name? (tag.name.text ++ (tag.afterName ++ (closing whole ++ rest)))
      = some (tag.name.text, tag.afterName ++ (closing whole ++ rest)) :=
  name?_eq_some_iff.mpr ⟨tag.name, rfl, rfl, tag.stops_afterName whole rest⟩

theorem TagForm.readStartTag_append (tag : TagForm) (whole : Bool) (rest : Text) :
    readStartTag tag.name.text (tag.afterName ++ (closing whole ++ rest))
      = .ok (⟨tag.name.text, tag.attributes.map AttributeForm.pair, whole⟩, rest) :=
  readStartTag_eq_ok_iff.mpr ⟨tag.attributes, tag.blanks, rfl, by rw [afterName, List.append_assoc]⟩

/-- An element in front of content is added to its children. -/
theorem Reads.root {data later : Text} {children : List Element} {element : Element}
    (he : readRoot text = .ok (element, later)) (h : Reads later data children rest) :
    Reads text data (element :: children) rest := by
  obtain ⟨inner, name, afterName, rfl, hn, helement⟩ := readRoot_eq_ok_iff.mp he
  exact h.child hn helement

/-- A comment in front of content adds nothing. -/
theorem Reads.comment {data later : Text} {children : List Element} (comment : CommentForm)
    (h : Reads later data children rest) :
    Reads ('<' :: '!' :: '-' :: '-' :: (comment.text ++ later)) data children rest := by
  have hafter : after? "-->".toList (comment.text ++ later) = some later :=
    (Marked.after?_eq_some_iff (by decide)).mpr ⟨comment, rfl⟩
  obtain ⟨pieces, hp, hdata, hchildren⟩ := h
  refine ⟨pieces, ?_, hdata, hchildren⟩
  rw [contentOf_comment, hafter]
  exact hp

/-- Character data in front of content is added to its data. -/
theorem DataForm.reads (form : DataForm) {data later : Text} {children : List Element}
    (h : Reads later data children rest) :
    Reads (form.written ++ later) (form.value ++ data) children rest := by
  have hraw : '<' ∉ form.written := fun hc => absurd (form.all _ hc) (by decide)
  exact h.data hraw (Symbol.decode_writtenAll form.symbols)

mutual

/-- **An element that the grammar derives is read as its tree.** -/
theorem ElementForm.readRoot_append : ∀ (element : ElementForm) (rest : Text),
    readRoot (element.written ++ rest) = .ok (element.tree, rest)
  | .whole tag, rest => by
      rw [ElementForm.whole_append]
      exact readRoot_eq_ok_iff.mpr ⟨_, _, _, rfl, tag.name?_append true rest,
        readElement_whole (tag.readStartTag_append true rest) rfl⟩
  | .enclosing tag content blanks, rest => by
      -- Content stops at the end tag, so nothing follows what it adds.
      have hend : Reads ('<' :: '/' :: (tag.name.text ++ (blanks.text ++ '>' :: rest))) [] []
          ('<' :: '/' :: (tag.name.text ++ (blanks.text ++ '>' :: rest))) := reads_endTag _
      have hcontent := content.isContent hend
      rw [List.append_nil, List.append_nil] at hcontent
      rw [ElementForm.enclosing_append]
      exact readRoot_eq_ok_iff.mpr ⟨_, _, _, rfl, tag.name?_append false _,
        readElement_of_reads (tag.readStartTag_append false _) Bool.false_ne_true hcontent
          (readEndTag_eq_ok_iff.mpr ⟨tag.name, blanks, rfl, rfl⟩)⟩

/-- **Content that the grammar derives adds its data and its children.** -/
theorem ContentForm.isContent : ∀ content : ContentForm,
    IsContent content.written content.data content.children
  | .last data => fun _ _ _ _ h => data.reads h
  | .comment data comment content => by
      intro text later rest more h
      rw [ContentForm.comment_append, ContentForm.data, List.append_assoc]
      exact data.reads ((content.isContent h).comment comment)
  | .child data element content => by
      intro text later rest more h
      rw [ContentForm.child_append, ContentForm.data, List.append_assoc]
      exact data.reads ((content.isContent h).root (element.readRoot_append _))

end

/-! ## What is read has a form -/

/-- **What is read as the content of a text has a form.** -/
def ContentHasForm (text : Text) : Prop :=
  ∀ ⦃data : Text⦄ ⦃children : List Element⦄ ⦃rest : Text⦄, Reads text data children rest →
    ∃ form : ContentForm, form.data = data ∧ form.children = children ∧ form.written ++ rest = text

/-- The two ways to read an element. -/
theorem exists_of_readElement {name : Text} {element : Element}
    (h : readElement name text = .ok (element, rest)) :
    ∃ tag afterTag, readStartTag name text = .ok (tag, afterTag) ∧
      (tag.isWhole = true ∧ rest = afterTag ∧ element = .mk tag.name tag.attributes [] [] ∨
        tag.isWhole = false ∧ ∃ data children afterContent,
          Reads afterTag data children afterContent ∧ readEndTag name afterContent = .ok rest ∧
            element = .mk tag.name tag.attributes data children) := by
  cases ht : readStartTag name text with
  | error fault =>
      rw [readElement, ht] at h
      cases h
  | ok read =>
      obtain ⟨tag, afterTag⟩ := read
      refine ⟨tag, afterTag, rfl, ?_⟩
      by_cases hw : tag.isWhole = true
      · rw [readElement_whole ht hw, Except.ok.injEq, Prod.mk.injEq] at h
        exact .inl ⟨hw, h.2.symm, h.1.symm⟩
      · rw [readElement_open ht hw] at h
        obtain ⟨⟨pieces, afterContent⟩, hcontent, h⟩ := exists_of_bind_eq_ok h
        obtain ⟨rest', hend, hresult⟩ := exists_of_map_eq_ok h
        simp only [Prod.mk.injEq] at hresult
        obtain ⟨rfl, rfl⟩ := hresult
        exact .inr ⟨by simpa using hw, _, _, afterContent, ⟨pieces, hcontent, rfl, rfl⟩, hend, rfl⟩

/-- An element that is read has a form, if what is read as shorter content has. -/
theorem exists_of_readRoot {element : Element}
    (ih : ∀ inner : Text, inner.length < text.length → ContentHasForm inner)
    (h : readRoot text = .ok (element, rest)) :
    ∃ form : ElementForm, form.tree = element ∧ form.written ++ rest = text := by
  obtain ⟨inner, name, afterName, rfl, hn, he⟩ := readRoot_eq_ok_iff.mp h
  obtain ⟨⟨name', attributes, whole⟩, afterTag, ht, hcases⟩ := exists_of_readElement he
  have hlength := length_lt_of_startTag hn ht
  obtain ⟨nameForm, rfl, rfl, -⟩ := name?_eq_some_iff.mp hn
  obtain ⟨forms, blanks, htag, rfl⟩ := readStartTag_eq_ok_iff.mp ht
  obtain ⟨rfl, rfl, -⟩ := StartTag.mk.inj htag
  rcases hcases with ⟨rfl, rfl, rfl⟩ | ⟨rfl, data, children, afterContent, hr, hend, rfl⟩
  · refine ⟨.whole ⟨nameForm, forms, blanks⟩, rfl, ?_⟩
    rw [ElementForm.whole_append, TagForm.afterName, List.append_assoc]
  · obtain ⟨content, rfl, rfl, rfl⟩ := ih _ hlength hr
    obtain ⟨endName, endBlanks, hname, rfl⟩ := readEndTag_eq_ok_iff.mp hend
    refine ⟨.enclosing ⟨nameForm, forms, blanks⟩ content endBlanks, rfl, ?_⟩
    rw [ElementForm.enclosing_append, TagForm.afterName, List.append_assoc, hname]

/-- **What content does at a bracket**: it ends, or goes on with a comment or with an element. -/
theorem Reads.cases_bracket {inner data : Text} {children : List Element}
    (h : Reads ('<' :: inner) data children rest) :
    (data = [] ∧ children = [] ∧ rest = '<' :: inner) ∨
      (∃ (comment : CommentForm) (later : Text),
        '!' :: '-' :: '-' :: (comment.text ++ later) = inner ∧ Reads later data children rest) ∨
      ∃ element later more, readRoot ('<' :: inner) = .ok (element, later) ∧
        children = element :: more ∧ Reads later data more rest := by
  obtain ⟨pieces, hp, rfl, rfl⟩ := h
  -- A comment is looked for first; with `!` no name starts.
  by_cases hcomment : ∃ body, inner = '!' :: '-' :: '-' :: body
  · obtain ⟨body, rfl⟩ := hcomment
    rw [contentOf_comment] at hp
    split at hp
    · cases hp
    · next later hafter =>
        obtain ⟨comment, rfl⟩ := (Marked.after?_eq_some_iff (by decide)).mp hafter
        exact .inr (.inl ⟨comment, later, rfl, pieces, hp, rfl, rfl⟩)
  · cases hn : name? inner with
    | none =>
        rw [contentOf_stop (fun body hb => hcomment ⟨body, hb⟩) hn, Except.ok.injEq,
          Prod.mk.injEq] at hp
        obtain ⟨rfl, rfl⟩ := hp
        exact .inl ⟨rfl, rfl, rfl⟩
    | some name =>
        rw [contentOf_element hn] at hp
        obtain ⟨⟨element, later⟩, he, hp⟩ := exists_of_bind_eq_ok hp
        obtain ⟨⟨more, rest'⟩, hmore, hp⟩ := exists_of_map_eq_ok hp
        simp only [consPiece, Prod.mk.injEq] at hp
        obtain ⟨rfl, rfl⟩ := hp
        exact .inr (.inr ⟨element, later, _, readRoot_eq_ok_iff.mpr ⟨_, _, _, rfl, hn, he⟩, rfl,
          more, hmore, rfl, rfl⟩)

/-- A run of character data that is read has a form. -/
theorem exists_data {run : Text} (h : decode (text.takeWhile (· != '<')) = some run) :
    ∃ form : DataForm, form.value = run ∧ form.written ++ text.dropWhile (· != '<') = text := by
  obtain ⟨symbols, hw, hv⟩ := Symbol.decode_eq_some_iff.mp h
  refine ⟨⟨symbols, ?_⟩, hv, ?_⟩
  · rw [hw]
    exact (Run.first (· != '<') text).all
  · rw [Raw.written, hw]
    exact List.takeWhile_append_dropWhile

theorem ElementForm.length_lt (element : ElementForm) (rest : Text) :
    rest.length < (element.written ++ rest).length := by
  obtain ⟨text, ht⟩ := element.exists_written
  rw [ht, List.length_append, List.length_cons]
  omega

theorem contentHasForm (text : Text) : ContentHasForm text := by
  -- By the length of the text: behind a comment or an element there is less of it.
  induction hlength : text.length using Nat.strong_induction_on generalizing text with
  | _ n ih =>
      subst hlength
      intro data children rest h
      obtain ⟨run, later, hrun, hlater, rfl⟩ := reads_iff_run.mp h
      obtain ⟨form, rfl, htext⟩ := exists_data hrun
      have hle : (text.dropWhile (· != '<')).length ≤ text.length := length_dropWhile_le _ _
      have hstops : Stops (· != '<') (text.dropWhile (· != '<')) := stops_dropWhile text
      generalize text.dropWhile (· != '<') = bracket at hlater htext hle hstops
      cases bracket with
      | nil =>
          obtain ⟨pieces, hp, rfl, rfl⟩ := hlater
          rw [contentOf_nil, Except.ok.injEq, Prod.mk.injEq] at hp
          obtain ⟨rfl, rfl⟩ := hp
          exact ⟨.last form, (List.append_nil _).symm, rfl, htext⟩
      | cons c inner =>
          obtain rfl : c = '<' := by simpa using hstops
          rw [List.length_cons] at hle
          rcases hlater.cases_bracket with ⟨rfl, rfl, rfl⟩ | ⟨comment, later', rfl, hcontent⟩ |
            ⟨element, later', more, he, rfl, hcontent⟩
          · exact ⟨.last form, (List.append_nil _).symm, rfl, htext⟩
          · have hlt : later'.length < text.length := by
              simp only [List.length_cons, List.length_append] at hle
              omega
            obtain ⟨content, rfl, rfl, rfl⟩ := ih _ hlt later' rfl hcontent
            refine ⟨.comment form comment content, rfl, rfl, ?_⟩
            rw [ContentForm.comment_append, htext]
          · obtain ⟨elementForm, rfl, helement⟩ := exists_of_readRoot
              (fun inner' hlt => ih _ (by rw [List.length_cons] at hlt; omega) inner' rfl) he
            have hlt : later'.length < text.length := by
              have hlt' := elementForm.length_lt later'
              rw [helement, List.length_cons] at hlt'
              omega
            obtain ⟨content, rfl, rfl, rfl⟩ := ih _ hlt later' rfl hcontent
            refine ⟨.child form elementForm content, rfl, rfl, ?_⟩
            rw [ContentForm.child_append, helement, htext]

/-! ## Around the root element -/

theorem skipMisc_written_append (form : MiscForm) (rest : Text) :
    skipMisc (form.written ++ rest) = skipMisc rest := by
  cases form with
  | blank c hc => exact skipMisc_blank rest hc
  | comment form =>
      exact skipMisc_of_comment ((Marked.after?_eq_some_iff (by decide)).mpr ⟨form, rfl⟩)
  | instruction form =>
      exact skipMisc_of_instruction ((Marked.after?_eq_some_iff (by decide)).mpr ⟨form, rfl⟩)

theorem skipMisc_flatMap_append (forms : List MiscForm) (hr : skipMisc rest = .ok rest) :
    skipMisc (forms.flatMap MiscForm.written ++ rest) = .ok rest := by
  induction forms with
  | nil => exact hr
  | cons form forms ih => rw [List.flatMap_cons, List.append_assoc, skipMisc_written_append, ih]

theorem exists_of_skipMisc (h : skipMisc text = .ok rest) :
    ∃ forms : List MiscForm, forms.flatMap MiscForm.written ++ rest = text := by
  fun_induction skipMisc text generalizing rest with
  | case1 =>
      obtain rfl := Except.ok.inj h
      exact ⟨[], rfl⟩
  | case2 text later hafter ih =>
      obtain ⟨form, rfl⟩ := (Marked.after?_eq_some_iff (by decide)).mp hafter
      obtain ⟨forms, rfl⟩ := ih h
      exact ⟨.comment form :: forms, by simp [MiscForm.written]⟩
  | case3 => cases h
  | case4 text later hafter ih =>
      obtain ⟨form, rfl⟩ := (Marked.after?_eq_some_iff (by decide)).mp hafter
      obtain ⟨forms, rfl⟩ := ih h
      exact ⟨.instruction form :: forms, by simp [MiscForm.written]⟩
  | case5 => cases h
  | case6 c text _ _ hc ih =>
      obtain ⟨forms, rfl⟩ := ih h
      exact ⟨.blank c hc :: forms, rfl⟩
  | case7 c text _ _ hc =>
      obtain rfl := Except.ok.inj h
      exact ⟨[], rfl⟩

/-! ## Documents -/

theorem DocumentForm.readDocument_written (form : DocumentForm) :
    readDocument form.written = .ok form.tree := by
  obtain ⟨text, ht⟩ := form.root.exists_written
  have hroot : skipMisc (form.root.written ++ form.back.flatMap MiscForm.written)
      = .ok (form.root.written ++ form.back.flatMap MiscForm.written) := by
    rw [ht]
    exact skipMisc_start _ form.root.tag.name.starts
  have hback : skipMisc (form.back.flatMap MiscForm.written) = .ok [] := by
    rw [← List.append_nil (form.back.flatMap MiscForm.written)]
    exact skipMisc_flatMap_append form.back (by rw [skipMisc])
  exact readDocument_eq_ok_iff.mpr
    ⟨_, _, skipMisc_flatMap_append form.front hroot, form.root.readRoot_append _, hback⟩

/-- **A document is read exactly when the grammar derives it**, and as the tree of its derivation.
There is only one derivation of a document. -/
theorem readDocument_iff_form :
    (∀ (document : Text) (root : Element), readDocument document = .ok root ↔
      ∃ form : DocumentForm, form.written = document ∧ form.tree = root) ∧
    Function.Injective DocumentForm.written := by
  refine ⟨fun document root => ⟨fun h => ?_, ?_⟩, DocumentForm.written_injective⟩
  · obtain ⟨start, afterRoot, hfront, hroot, hback⟩ := readDocument_eq_ok_iff.mp h
    obtain ⟨front, rfl⟩ := exists_of_skipMisc hfront
    obtain ⟨element, rfl, rfl⟩ := exists_of_readRoot (fun inner _ => contentHasForm inner) hroot
    obtain ⟨back, rfl⟩ := exists_of_skipMisc hback
    refine ⟨⟨front, element, back⟩, ?_, rfl⟩
    rw [DocumentForm.written, List.append_nil]
  · rintro ⟨form, rfl, rfl⟩
    exact form.readDocument_written

/-- A reference is resolved, and a comment joins the data on its two sides. -/
example : readDocument "<a>1&lt;<!---->2</a>".toList = .ok (.mk ['a'] [] ['1', '<', '2'] []) := by
  cbv

end Xml

end RuleTable
