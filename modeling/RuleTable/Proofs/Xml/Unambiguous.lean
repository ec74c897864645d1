import RuleTable.Proofs.Xml.Grammar
import RuleTable.Proofs.Xml.Tags

/-!
# A document has one form

A text falls in one way only into a form and what follows the form. Most forms end by themselves,
as a tag does with its bracket. A name and a run of blanks or of character data end where a
character stands that does not belong to them, and that is what the grammar puts behind them.
-/

set_option autoImplicit false

namespace RuleTable

open Text

namespace Xml

variable {rest later : Text}

/-! ## Names, blanks and values -/

theorem NameForm.stops_isAsciiBlank (name : NameForm) (rest : Text) :
    Stops isAsciiBlank (name.text ++ rest) :=
  stops_cons.mpr (isAsciiBlank_of_isNameStart name.starts)

theorem NameForm.append_inj {name name' : NameForm} (hr : Stops isNameChar rest)
    (hl : Stops isNameChar later) (h : name.text ++ rest = name'.text ++ later) :
    name = name' ∧ rest = later := by
  obtain ⟨hfirst, hmore⟩ := List.cons.inj h
  obtain ⟨hmore, hrest⟩ := Run.append_inj hr hl hmore
  exact ⟨NameForm.ext hfirst hmore, hrest⟩

theorem Blanks.stops_isNameChar (blanks : Blanks) (hr : Stops isNameChar rest) :
    Stops isNameChar (blanks.text ++ rest) :=
  (blanks.stops fun _ => isNameChar_of_isAsciiBlank).append hr

theorem Gap.append_inj {gap gap' : Gap} (hr : Stops isAsciiBlank rest)
    (hl : Stops isAsciiBlank later) (h : gap.text ++ rest = gap'.text ++ later) :
    gap = gap' ∧ rest = later := by
  obtain ⟨hgap, hrest⟩ := Run.append_inj hr hl h
  exact ⟨Gap.ext (congrArg Run.text hgap), hrest⟩

theorem Raw.append_inj {p : Char → Bool} {raw raw' : Raw p} (hr : Stops p rest)
    (hl : Stops p later) (h : raw.written ++ rest = raw'.written ++ later) :
    raw = raw' ∧ rest = later := by
  obtain ⟨hrun, hrest⟩ := Run.append_inj (r := raw.run) (s := raw'.run) hr hl h
  exact ⟨Raw.ext (Symbol.writtenAll_injective (congrArg Run.text hrun)), hrest⟩

theorem ValueForm.stops_isAsciiBlank (value : ValueForm) (rest : Text) :
    Stops isAsciiBlank (value.written ++ rest) := by
  have hquote : isAsciiBlank value.quote = false := by
    rcases value.isQuote with h | h <;> rw [h] <;> decide
  exact stops_cons.mpr hquote

theorem ValueForm.append_inj {value value' : ValueForm}
    (h : value.written ++ rest = value'.written ++ later) : value = value' ∧ rest = later := by
  obtain ⟨quote, hq, raw⟩ := value
  obtain ⟨quote', hq', raw'⟩ := value'
  simp only [ValueForm.written, List.cons_append, List.append_assoc, List.nil_append] at h
  obtain ⟨rfl, htail⟩ := List.cons.inj h
  obtain ⟨rfl, hrest⟩ := Raw.append_inj (by simp) (by simp) htail
  exact ⟨rfl, (List.cons.inj hrest).2⟩

/-! ## Tags -/

namespace AttributeForm

theorem written_append (form : AttributeForm) (rest : Text) :
    form.written ++ rest = form.gap.text ++ (form.key.text ++ (form.beforeSign.text ++
      '=' :: (form.afterSign.text ++ (form.value.written ++ rest)))) := by
  simp [written]

theorem stops_isNameChar (form : AttributeForm) (rest : Text) :
    Stops isNameChar (form.written ++ rest) := by
  have hgap : Stops isNameChar form.gap.text := form.gap.stops fun _ => isNameChar_of_isAsciiBlank
  rw [written_append]
  exact hgap.append_of_ne_nil form.gap.nonempty _

theorem append_inj {form form' : AttributeForm}
    (h : form.written ++ rest = form'.written ++ later) : form = form' ∧ rest = later := by
  obtain ⟨gap, key, before, after, value⟩ := form
  obtain ⟨gap', key', before', after', value'⟩ := form'
  have hsign : ∀ text, Stops isAsciiBlank ('=' :: text) := fun _ => stops_cons.mpr (by decide)
  have hkey : ∀ (blanks : Blanks) (text : Text), Stops isNameChar (blanks.text ++ '=' :: text) :=
    fun blanks _ => blanks.stops_isNameChar (stops_cons.mpr (by decide))
  simp only [written_append] at h
  -- Each part is followed by what it cannot go on with.
  obtain ⟨rfl, h₁⟩ := Gap.append_inj (key.stops_isAsciiBlank _) (key'.stops_isAsciiBlank _) h
  obtain ⟨rfl, h₂⟩ := NameForm.append_inj (hkey _ _) (hkey _ _) h₁
  obtain ⟨rfl, h₃⟩ := Run.append_inj (hsign _) (hsign _) h₂
  obtain ⟨rfl, h₄⟩ := Run.append_inj (value.stops_isAsciiBlank _) (value'.stops_isAsciiBlank _)
    (List.cons.inj h₃).2
  obtain ⟨rfl, hrest⟩ := ValueForm.append_inj h₄
  exact ⟨rfl, hrest⟩

end AttributeForm

theorem closing_append_inj {whole whole' : Bool}
    (h : closing whole ++ rest = closing whole' ++ later) : whole = whole' ∧ rest = later := by
  cases whole <;> cases whole' <;> simp_all [closing]

theorem stops_closing {p : Char → Bool} (hslash : p '/' = false) (hbracket : p '>' = false)
    (whole : Bool) (rest : Text) : Stops p (closing whole ++ rest) := by
  cases whole <;> simpa [closing]

theorem stops_isAsciiBlank_closing (whole : Bool) (rest : Text) :
    Stops isAsciiBlank (closing whole ++ rest) :=
  stops_closing (by decide) (by decide) whole rest

/-- Where a tag is closed no attribute follows. -/
theorem closing_ne_attribute {blanks : Blanks} {whole : Bool} {form : AttributeForm} :
    blanks.text ++ (closing whole ++ rest) ≠ form.written ++ later := by
  intro h
  rw [AttributeForm.written_append] at h
  obtain ⟨-, h⟩ := Run.append_inj (stops_isAsciiBlank_closing whole rest)
    (form.key.stops_isAsciiBlank _) h
  -- The first character of the key would be that of the bracket.
  have hstart : Stops isNameStart (closing whole ++ rest) :=
    stops_closing (by decide) (by decide) whole rest
  rw [h, NameForm.text, List.cons_append, stops_cons, form.key.starts] at hstart
  cases hstart

namespace TagForm

theorem afterName_append_inj {forms forms' : List AttributeForm} {blanks blanks' : Blanks}
    {whole whole' : Bool}
    (h : forms.flatMap AttributeForm.written ++ (blanks.text ++ (closing whole ++ rest))
      = forms'.flatMap AttributeForm.written ++ (blanks'.text ++ (closing whole' ++ later))) :
    forms = forms' ∧ blanks = blanks' ∧ whole = whole' ∧ rest = later := by
  induction forms generalizing forms' with
  | nil =>
      cases forms' with
      | nil =>
          obtain ⟨rfl, hclosing⟩ := Run.append_inj (stops_isAsciiBlank_closing _ _)
            (stops_isAsciiBlank_closing _ _) h
          obtain ⟨rfl, rfl⟩ := closing_append_inj hclosing
          exact ⟨rfl, rfl, rfl, rfl⟩
      | cons form' forms' =>
          rw [List.flatMap_cons, List.append_assoc] at h
          exact absurd h closing_ne_attribute
  | cons form forms ih =>
      rw [List.flatMap_cons, List.append_assoc] at h
      cases forms' with
      | nil => exact absurd h.symm closing_ne_attribute
      | cons form' forms' =>
          rw [List.flatMap_cons, List.append_assoc] at h
          obtain ⟨rfl, hforms⟩ := AttributeForm.append_inj h
          obtain ⟨rfl, rfl, rfl, rfl⟩ := ih hforms
          exact ⟨rfl, rfl, rfl, rfl⟩

theorem stops_afterName (tag : TagForm) (whole : Bool) (rest : Text) :
    Stops isNameChar (tag.afterName ++ (closing whole ++ rest)) := by
  obtain ⟨name, attributes, blanks⟩ := tag
  rw [afterName, List.append_assoc]
  cases attributes with
  | nil => exact blanks.stops_isNameChar (stops_closing (by decide) (by decide) whole rest)
  | cons form forms =>
      rw [List.flatMap_cons, List.append_assoc]
      exact form.stops_isNameChar _

/-- **A tag ends at its bracket.** -/
theorem append_inj {tag tag' : TagForm} {whole whole' : Bool}
    (h : tag.name.text ++ (tag.afterName ++ (closing whole ++ rest))
      = tag'.name.text ++ (tag'.afterName ++ (closing whole' ++ later))) :
    tag = tag' ∧ whole = whole' ∧ rest = later := by
  obtain ⟨hname, h⟩ := NameForm.append_inj (tag.stops_afterName whole rest)
    (tag'.stops_afterName whole' later) h
  rw [afterName, afterName, List.append_assoc, List.append_assoc] at h
  obtain ⟨hforms, hblanks, hwhole, hrest⟩ := afterName_append_inj h
  exact ⟨TagForm.ext hname hforms hblanks, hwhole, hrest⟩

end TagForm

/-! ## Elements and content -/

/-- An element starts with `<` and the first character of its name. -/
theorem ElementForm.exists_written (element : ElementForm) :
    ∃ text, element.written = '<' :: element.tag.name.first :: text := by
  cases element with
  | whole tag => exact ⟨_, rfl⟩
  | enclosing tag content blanks => exact ⟨_, rfl⟩

theorem ElementForm.stops_data (element : ElementForm) (rest : Text) :
    Stops (· != '<') (element.written ++ rest) := by
  obtain ⟨text, ht⟩ := element.exists_written
  rw [ht]
  exact stops_cons.mpr (by decide)

theorem ElementForm.whole_append (tag : TagForm) (rest : Text) :
    (whole tag).written ++ rest
      = '<' :: (tag.name.text ++ (tag.afterName ++ (closing true ++ rest))) := by
  simp [written]

theorem ElementForm.enclosing_append (tag : TagForm) (content : ContentForm) (blanks : Blanks)
    (rest : Text) :
    (enclosing tag content blanks).written ++ rest
      = '<' :: (tag.name.text ++ (tag.afterName ++ (closing false ++ (content.written ++
        '<' :: '/' :: (tag.name.text ++ (blanks.text ++ '>' :: rest)))))) := by
  simp [written]

theorem ContentForm.comment_append (data : DataForm) (comment : CommentForm)
    (content : ContentForm) (rest : Text) :
    (ContentForm.comment data comment content).written ++ rest
      = data.written ++ '<' :: '!' :: '-' :: '-' :: (comment.text ++ (content.written ++ rest)) := by
  simp [written]

theorem ContentForm.child_append (data : DataForm) (element : ElementForm) (content : ContentForm)
    (rest : Text) :
    (child data element content).written ++ rest
      = data.written ++ (element.written ++ (content.written ++ rest)) := by
  simp [written]

/-- Character data ends at a bracket, and what it ends at is seen behind the bracket. -/
theorem DataForm.append_inj {data data' : DataForm} {c c' : Char}
    (h : data.written ++ '<' :: c :: rest = data'.written ++ '<' :: c' :: later) :
    data = data' ∧ c = c' ∧ rest = later := by
  obtain ⟨hdata, htail⟩ := Raw.append_inj (by simp) (by simp) h
  simp only [List.cons.injEq, true_and] at htail
  exact ⟨hdata, htail⟩

/-- Behind the bracket that ends character data an element shows the start of its name. -/
theorem ContentForm.child_append_ne {data data' : DataForm} {element : ElementForm}
    {content : ContentForm} {c : Char} (hc : isNameStart c = false) :
    (child data element content).written ++ rest ≠ data'.written ++ '<' :: c :: later := by
  intro h
  obtain ⟨text, ht⟩ := element.exists_written
  rw [child_append, ht] at h
  obtain ⟨-, rfl, -⟩ := DataForm.append_inj h
  rw [element.tag.name.starts] at hc
  cases hc

mutual

/-- **An element ends at its last bracket.** -/
theorem ElementForm.append_inj : ∀ (element element' : ElementForm) {rest later : Text},
    element.written ++ rest = element'.written ++ later → element = element' ∧ rest = later
  | .whole tag, .whole tag', rest, later, h => by
      rw [ElementForm.whole_append, ElementForm.whole_append] at h
      obtain ⟨rfl, -, hrest⟩ := TagForm.append_inj (List.cons.inj h).2
      exact ⟨rfl, hrest⟩
  | .whole tag, .enclosing tag' content' blanks', rest, later, h => by
      rw [ElementForm.whole_append, ElementForm.enclosing_append] at h
      cases (TagForm.append_inj (List.cons.inj h).2).2.1
  | .enclosing tag content blanks, .whole tag', rest, later, h => by
      rw [ElementForm.whole_append, ElementForm.enclosing_append] at h
      cases (TagForm.append_inj (List.cons.inj h).2).2.1
  | .enclosing tag content blanks, .enclosing tag' content' blanks', rest, later, h => by
      rw [ElementForm.enclosing_append, ElementForm.enclosing_append] at h
      obtain ⟨rfl, -, hcontent⟩ := TagForm.append_inj (List.cons.inj h).2
      obtain ⟨rfl, hend⟩ := content.append_inj content' hcontent
      have hbracket : ∀ text, Stops isAsciiBlank ('>' :: text) := fun _ => stops_cons.mpr (by decide)
      obtain ⟨rfl, hrest⟩ := Run.append_inj (hbracket _) (hbracket _) (List.append_cancel_left hend)
      exact ⟨rfl, (List.cons.inj hrest).2⟩

/-- **Content ends at an end tag.** -/
theorem ContentForm.append_inj : ∀ (content content' : ContentForm) {rest later : Text},
    content.written ++ '<' :: '/' :: rest = content'.written ++ '<' :: '/' :: later →
      content = content' ∧ rest = later
  | .last data, .last data', rest, later, h => by
      obtain ⟨rfl, -, hrest⟩ := DataForm.append_inj h
      exact ⟨rfl, hrest⟩
  | .comment data comment content, .comment data' comment' content', rest, later, h => by
      rw [ContentForm.comment_append, ContentForm.comment_append] at h
      obtain ⟨rfl, -, hcomment⟩ := DataForm.append_inj h
      simp only [List.cons.injEq, true_and] at hcomment
      obtain ⟨rfl, hcontent⟩ := Marked.append_inj hcomment
      obtain ⟨rfl, hrest⟩ := content.append_inj content' hcontent
      exact ⟨rfl, hrest⟩
  | .child data element content, .child data' element' content', rest, later, h => by
      rw [ContentForm.child_append, ContentForm.child_append] at h
      obtain ⟨rfl, helement⟩ := Raw.append_inj (element.stops_data _) (element'.stops_data _) h
      obtain ⟨rfl, hcontent⟩ := element.append_inj element' helement
      obtain ⟨rfl, hrest⟩ := content.append_inj content' hcontent
      exact ⟨rfl, hrest⟩
  -- Otherwise the two go on differently behind the first bracket.
  | .last data, .comment data' comment' content', rest, later, h => by
      rw [ContentForm.comment_append] at h
      exact absurd (DataForm.append_inj h).2.1 (by decide)
  | .comment data comment content, .last data', rest, later, h => by
      rw [ContentForm.comment_append] at h
      exact absurd (DataForm.append_inj h).2.1 (by decide)
  | .last data, .child data' element' content', rest, later, h =>
      absurd h.symm (ContentForm.child_append_ne (by decide))
  | .child data element content, .last data', rest, later, h =>
      absurd h (ContentForm.child_append_ne (by decide))
  | .comment data comment content, .child data' element' content', rest, later, h => by
      rw [ContentForm.comment_append] at h
      exact absurd h.symm (ContentForm.child_append_ne (by decide))
  | .child data element content, .comment data' comment' content', rest, later, h => by
      rw [ContentForm.comment_append] at h
      exact absurd h (ContentForm.child_append_ne (by decide))

end

/-! ## Documents -/

/-- **A text stops what may stand around the root** when none of it comes first. -/
def StopsMisc (text : Text) : Prop := ∀ (form : MiscForm) (rest : Text), text ≠ form.written ++ rest

theorem stopsMisc_nil : StopsMisc [] := by
  intro form rest h
  cases form <;> cases h

theorem stopsMisc_bracket {c : Char} (hbang : c ≠ '!') (hquestion : c ≠ '?') (text : Text) :
    StopsMisc ('<' :: c :: text) := by
  intro form rest h
  cases form with
  | blank d hd =>
      obtain rfl : '<' = d := (List.cons.inj h).1
      cases hd
  | comment form => exact hbang (List.cons.inj (List.cons.inj h).2).1
  | instruction form => exact hquestion (List.cons.inj (List.cons.inj h).2).1

theorem ElementForm.stopsMisc (element : ElementForm) (rest : Text) :
    StopsMisc (element.written ++ rest) := by
  obtain ⟨text, ht⟩ := element.exists_written
  have hne : ∀ c, isNameStart c = false → element.tag.name.first ≠ c := by
    rintro c hc rfl
    rw [element.tag.name.starts] at hc
    cases hc
  rw [ht]
  exact stopsMisc_bracket (hne _ (by decide)) (hne _ (by decide)) _

theorem MiscForm.append_inj {form form' : MiscForm}
    (h : form.written ++ rest = form'.written ++ later) : form = form' ∧ rest = later := by
  have hne : ∀ c, isAsciiBlank c = true → c ≠ '<' := by
    rintro c hc rfl
    cases hc
  cases form with
  | blank c hc =>
      cases form' with
      | blank c' hc' =>
          obtain ⟨rfl, hrest⟩ := List.cons.inj h
          exact ⟨rfl, hrest⟩
      | comment form' => exact absurd (List.cons.inj h).1 (hne c hc)
      | instruction form' => exact absurd (List.cons.inj h).1 (hne c hc)
  | comment form =>
      cases form' with
      | blank c' hc' => exact absurd (List.cons.inj h).1.symm (hne c' hc')
      | comment form' =>
          simp only [written, List.cons_append, List.cons.injEq, true_and] at h
          obtain ⟨rfl, hrest⟩ := Marked.append_inj h
          exact ⟨rfl, hrest⟩
      | instruction form' => cases h
  | instruction form =>
      cases form' with
      | blank c' hc' => exact absurd (List.cons.inj h).1.symm (hne c' hc')
      | comment form' => cases h
      | instruction form' =>
          simp only [written, List.cons_append, List.cons.injEq, true_and] at h
          obtain ⟨rfl, hrest⟩ := Marked.append_inj h
          exact ⟨rfl, hrest⟩

theorem MiscForm.flatMap_append_inj {forms forms' : List MiscForm} (hr : StopsMisc rest)
    (hl : StopsMisc later)
    (h : forms.flatMap written ++ rest = forms'.flatMap written ++ later) :
    forms = forms' ∧ rest = later := by
  induction forms generalizing forms' with
  | nil =>
      cases forms' with
      | nil => exact ⟨rfl, h⟩
      | cons form' forms' =>
          rw [List.flatMap_cons, List.append_assoc] at h
          exact absurd h (hr form' _)
  | cons form forms ih =>
      rw [List.flatMap_cons, List.append_assoc] at h
      cases forms' with
      | nil => exact absurd h.symm (hl form _)
      | cons form' forms' =>
          rw [List.flatMap_cons, List.append_assoc] at h
          obtain ⟨rfl, hforms⟩ := append_inj h
          obtain ⟨rfl, hrest⟩ := ih hforms
          exact ⟨rfl, hrest⟩

/-- **A document has one form at most.** -/
theorem DocumentForm.written_injective : Function.Injective DocumentForm.written := by
  intro form form' h
  obtain ⟨hfront, hroot⟩ := MiscForm.flatMap_append_inj (form.root.stopsMisc _)
    (form'.root.stopsMisc _) h
  obtain ⟨hroot, hback⟩ := form.root.append_inj form'.root hroot
  rw [← List.append_nil (form.back.flatMap _), ← List.append_nil (form'.back.flatMap _)] at hback
  exact DocumentForm.ext hfront hroot (MiscForm.flatMap_append_inj stopsMisc_nil stopsMisc_nil hback).1

end Xml

end RuleTable
