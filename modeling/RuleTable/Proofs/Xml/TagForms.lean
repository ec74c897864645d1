import RuleTable.Proofs.Text.Trim
import RuleTable.Proofs.Xml.Unambiguous
import RuleTable.Xml.Content

/-!
# The forms that readers of tags accept

The readers of names, of values, of attributes and of tags succeed exactly where the grammar has a
form, and they give what the form stands for and what follows it. Each is stated as one equivalence,
so that the readers built from it need not look inside.
-/

set_option autoImplicit false

namespace RuleTable

open Text

namespace Xml

variable {text rest : Text}

/-! ## Names and blanks -/

/-- **A name is read where a name stands**, to its end. -/
theorem name?_eq_some_iff {name : Text} :
    name? text = some (name, rest) ↔
      ∃ form : NameForm, form.text = name ∧ form.text ++ rest = text ∧ Stops isNameChar rest := by
  constructor
  · intro h
    cases text with
    | nil => cases h
    | cons c text =>
        rw [name?] at h
        split at h
        · next hc =>
            simp only [Option.some.injEq, Prod.mk.injEq] at h
            obtain ⟨rfl, rfl⟩ := h
            exact ⟨⟨c, Run.first isNameChar text, hc⟩, rfl,
              congrArg (c :: ·) (Run.first_append_dropWhile text), stops_dropWhile text⟩
        · cases h
  · rintro ⟨form, rfl, rfl, hr⟩
    show name? (form.first :: (form.more.text ++ rest)) = _
    rw [name?, if_pos form.starts, takeWhile_append_of_stops form.more.all hr,
      dropWhile_append_of_stops form.more.all hr]
    rfl

/-- What is skipped are blanks. -/
theorem exists_blanks (text : Text) : ∃ blanks : Blanks, blanks.text ++ skipBlanks text = text :=
  ⟨Run.first isAsciiBlank text, Run.first_append_dropWhile text⟩

/-- **All blanks are skipped** in front of what is none. -/
theorem Blanks.skipBlanks_append (blanks : Blanks) (hr : Stops isAsciiBlank rest) :
    skipBlanks (blanks.text ++ rest) = rest :=
  dropWhile_append_of_stops blanks.all hr

/-! ## Values -/

theorem quoted_eq_ok_iff {quote : Char} {raw : Text} :
    quoted quote text = .ok (raw, rest) ↔
      ∃ run : Run fun c => c != quote && c != '<', run.text = raw ∧
        run.text ++ quote :: rest = text := by
  constructor
  · intro h
    have htext := Run.first_append_dropWhile (p := fun c => c != quote && c != '<') text
    rw [quoted] at h
    split at h
    · cases h
    · next c rest' hd =>
        split at h
        · next hc =>
            simp only [Except.ok.injEq, Prod.mk.injEq] at h
            obtain ⟨rfl, rfl⟩ := h
            rw [hd, hc] at htext
            exact ⟨_, rfl, htext⟩
        · cases h
  · rintro ⟨run, rfl, rfl⟩
    refine quoted_append rest fun c hc => ?_
    simpa using run.all c hc

/-- **A value is read where a value stands.** -/
theorem readValue_eq_ok_iff {value : Text} :
    readValue text = .ok (value, rest) ↔
      ∃ form : ValueForm, form.raw.value = value ∧ form.written ++ rest = text := by
  constructor
  · intro h
    cases text with
    | nil => cases h
    | cons c text =>
        rw [readValue] at h
        split at h
        · next hc =>
            split at h
            · next raw rest' hq =>
                split at h
                · next value' hd =>
                    simp only [Except.ok.injEq, Prod.mk.injEq] at h
                    obtain ⟨rfl, rfl⟩ := h
                    obtain ⟨run, rfl, rfl⟩ := quoted_eq_ok_iff.mp hq
                    obtain ⟨symbols, hw, hv⟩ := Symbol.decode_eq_some_iff.mp hd
                    refine ⟨⟨c, hc, ⟨symbols, hw ▸ run.all⟩⟩, hv, ?_⟩
                    simp [ValueForm.written, Raw.written, hw]
                · cases h
            · cases h
        · cases h
  · rintro ⟨⟨quote, hq, raw⟩, rfl, rfl⟩
    have hquoted : quoted quote (raw.written ++ quote :: rest) = .ok (raw.written, rest) :=
      quoted_eq_ok_iff.mpr ⟨raw.run, rfl, rfl⟩
    have hdecode : decode raw.written = some raw.value := Symbol.decode_writtenAll raw.symbols
    have htext : (ValueForm.mk quote hq raw).written ++ rest
        = quote :: (raw.written ++ quote :: rest) := by
      simp [ValueForm.written]
    rw [htext, readValue, if_pos hq, hquoted]
    simp only [hdecode]

/-! ## Attributes -/

/-- **An attribute is read where one stands**, and the attributes after it as without it. -/
theorem readAttributes_written_append (form : AttributeForm) (rest : Text) :
    readAttributes (form.written ++ rest)
      = (readAttributes rest).map fun read => (form.pair :: read.1, read.2) := by
  obtain ⟨gap, key, before, after, value⟩ := form
  simp only [AttributeForm.written_append]
  have hname : name? (skipBlanks (gap.text ++ (key.text ++ (before.text ++
      '=' :: (after.text ++ (value.written ++ rest))))))
      = some (key.text, before.text ++ '=' :: (after.text ++ (value.written ++ rest))) := by
    rw [Blanks.skipBlanks_append gap.toRun (key.stops_isAsciiBlank _)]
    exact name?_eq_some_iff.mpr
      ⟨key, rfl, rfl, before.stops_isNameChar (stops_cons.mpr (by decide))⟩
  have hblank : startsBlank (gap.text ++ (key.text ++ (before.text ++
      '=' :: (after.text ++ (value.written ++ rest))))) = true := by
    obtain ⟨c, more, ht⟩ := List.exists_cons_of_ne_nil gap.nonempty
    have hc : isAsciiBlank c = true := gap.all c (ht ▸ List.mem_cons_self)
    exact startsBlank_iff.mpr ⟨c, _, by rw [ht]; rfl, hc⟩
  have hsign : skipBlanks (before.text ++ '=' :: (after.text ++ (value.written ++ rest)))
      = '=' :: (after.text ++ (value.written ++ rest)) :=
    before.skipBlanks_append (stops_cons.mpr (by decide))
  have hvalue : readValue (skipBlanks (after.text ++ (value.written ++ rest)))
      = .ok (value.raw.value, rest) := by
    rw [after.skipBlanks_append (value.stops_isAsciiBlank _)]
    exact readValue_eq_ok_iff.mpr ⟨value, rfl, rfl⟩
  exact readAttributes_eq_map hname hblank hsign hvalue

theorem readAttributes_flatMap_append (forms : List AttributeForm)
    (hr : readAttributes rest = .ok ([], rest)) :
    readAttributes (forms.flatMap AttributeForm.written ++ rest)
      = .ok (forms.map AttributeForm.pair, rest) := by
  induction forms with
  | nil => exact hr
  | cons form forms ih =>
      rw [List.flatMap_cons, List.append_assoc, readAttributes_written_append, ih]
      rfl

/-- **What is read as attributes are attributes.** -/
theorem exists_of_readAttributes {attributes : List (Text × Text)}
    (h : readAttributes text = .ok (attributes, rest)) :
    ∃ forms : List AttributeForm, forms.map AttributeForm.pair = attributes ∧
      forms.flatMap AttributeForm.written ++ rest = text := by
  fun_induction readAttributes text generalizing attributes rest with
  | case1 text hn =>
      obtain ⟨rfl, rfl⟩ : [] = attributes ∧ text = rest := by simpa using h
      exact ⟨[], rfl, rfl⟩
  | case2 text key afterKey hn hblank =>
      obtain ⟨rfl, rfl⟩ : [] = attributes ∧ text = rest := by simpa using h
      exact ⟨[], rfl, rfl⟩
  | case3 => cases h
  | case4 => cases h
  | case5 text key afterKey hn hblank afterSign hs value rest' hv attributes' rest'' hr ih =>
      obtain ⟨rfl, rfl⟩ : (key, value) :: attributes' = attributes ∧ rest'' = rest := by simpa using h
      -- The parts of the attribute, in the order in which they were read.
      obtain ⟨gap, hgap⟩ := exists_blanks text
      obtain ⟨name, rfl, hname, -⟩ := name?_eq_some_iff.mp hn
      obtain ⟨before, hbefore⟩ := exists_blanks afterKey
      obtain ⟨after, hafter⟩ := exists_blanks afterSign
      obtain ⟨form, rfl, hform⟩ := readValue_eq_ok_iff.mp hv
      obtain ⟨forms, rfl, rfl⟩ := ih hr
      have hne : gap.text ≠ [] := by
        intro hnil
        obtain ⟨c, more, rfl, hc⟩ := startsBlank_iff.mp (by simpa using hblank)
        have hstops : Stops isAsciiBlank (skipBlanks (c :: more)) := stops_dropWhile _
        rw [hnil, List.nil_append] at hgap
        rw [hgap, stops_cons, hc] at hstops
        cases hstops
      refine ⟨⟨⟨gap, hne⟩, name, before, after, form⟩ :: forms, rfl, ?_⟩
      rw [List.flatMap_cons, List.append_assoc, AttributeForm.written_append, hform, hafter, ← hs,
        hbefore, hname, hgap]
  | case6 => cases h

/-! ## Tags -/

/-- No attribute stands where a tag is closed. -/
theorem readAttributes_closing (blanks : Blanks) (whole : Bool) (rest : Text) :
    readAttributes (blanks.text ++ (closing whole ++ rest))
      = .ok ([], blanks.text ++ (closing whole ++ rest)) := by
  refine readAttributes_eq_nil ?_
  rw [blanks.skipBlanks_append (stops_isAsciiBlank_closing whole rest)]
  cases whole <;> exact name?_cons_eq_none _ (by decide)

/-- **A start tag is read where one stands**, up to its closing bracket. -/
theorem readStartTag_eq_ok_iff {name : Text} {tag : StartTag} :
    readStartTag name text = .ok (tag, rest) ↔
      ∃ (attributes : List AttributeForm) (blanks : Blanks),
        tag = ⟨name, attributes.map AttributeForm.pair, tag.isWhole⟩ ∧
        attributes.flatMap AttributeForm.written ++ (blanks.text ++ (closing tag.isWhole ++ rest))
          = text := by
  constructor
  · intro h
    rw [readStartTag] at h
    split at h
    · cases h
    · next attributes afterAttributes ha =>
        obtain ⟨forms, rfl, rfl⟩ := exists_of_readAttributes ha
        obtain ⟨blanks, hblanks⟩ := exists_blanks afterAttributes
        split at h
        · next hs =>
            simp only [Except.ok.injEq, Prod.mk.injEq] at h
            obtain ⟨rfl, rfl⟩ := h
            refine ⟨forms, blanks, rfl, ?_⟩
            rw [← hblanks, hs]
            rfl
        · next hs =>
            simp only [Except.ok.injEq, Prod.mk.injEq] at h
            obtain ⟨rfl, rfl⟩ := h
            refine ⟨forms, blanks, rfl, ?_⟩
            rw [← hblanks, hs]
            rfl
        · cases h
  · rintro ⟨forms, blanks, htag, rfl⟩
    rw [readStartTag, readAttributes_flatMap_append forms (readAttributes_closing blanks _ rest)]
    simp only [blanks.skipBlanks_append (stops_isAsciiBlank_closing tag.isWhole rest)]
    rw [htag]
    cases tag.isWhole <;> rfl

/-- **An end tag is read where one stands** that repeats the name. -/
theorem readEndTag_eq_ok_iff {name : Text} :
    readEndTag name text = .ok rest ↔
      ∃ (form : NameForm) (blanks : Blanks), form.text = name ∧
        '<' :: '/' :: (form.text ++ (blanks.text ++ '>' :: rest)) = text := by
  constructor
  · intro h
    rw [readEndTag.eq_def] at h
    split at h
    · next inner =>
        split at h
        · next other afterName hn =>
            obtain ⟨form, rfl, rfl, -⟩ := name?_eq_some_iff.mp hn
            obtain ⟨blanks, hblanks⟩ := exists_blanks afterName
            split at h
            · next hname =>
                split at h
                · next hs =>
                    obtain rfl := Except.ok.inj h
                    refine ⟨form, blanks, hname, ?_⟩
                    rw [← hs, hblanks]
                · cases h
            · cases h
        · cases h
    · cases h
  · rintro ⟨form, blanks, rfl, rfl⟩
    have hbracket : Stops isAsciiBlank ('>' :: rest) := stops_cons.mpr (by decide)
    have hname : name? (form.text ++ (blanks.text ++ '>' :: rest))
        = some (form.text, blanks.text ++ '>' :: rest) :=
      name?_eq_some_iff.mpr ⟨form, rfl, rfl, blanks.stops_isNameChar (stops_cons.mpr (by decide))⟩
    rw [readEndTag, hname]
    simp only [if_true, blanks.skipBlanks_append hbracket]

end Xml

end RuleTable
