import Mathlib.Data.List.TakeWhile
import Mathlib.Tactic.ByContra
import Mathlib.Tactic.Tauto
import RuleTable.Proofs.Text.Runs
import RuleTable.Proofs.Xml.Escaping
import RuleTable.Xml.Markup
import RuleTable.Xml.StartTag

/-!
# Tags are read as they are written

What the writer of markup puts into a start tag, the reader of start tags takes out of it: the
name, and each attribute with its key and its value. The attributes of a tag are related to the
texts that write them by **`Fields`**, so that a tag with any number of them is read in one step.
-/

set_option autoImplicit false

namespace RuleTable

open Text Markup

namespace Xml

/-! ## Names -/

/-- **A name**: a text that is read as one name to its end. -/
def IsName (name : Text) : Prop := name? name = some (name, [])

instance (name : Text) : Decidable (IsName name) :=
  inferInstanceAs (Decidable (name? name = some (name, [])))

/-- Whether a name that stands right before a text ends there. -/
def endsName (text : Text) : Bool := ! text.head?.any isNameChar

/-- A name has a first character, which may start a name, and characters that may follow it. -/
theorem IsName.exists_cons {name : Text} (h : IsName name) :
    ∃ c rest, name = c :: rest ∧ isNameStart c = true ∧ ∀ d ∈ rest, isNameChar d = true := by
  cases name with
  | nil => simp [IsName, name?] at h
  | cons c rest =>
      rw [IsName, name?] at h
      split at h
      · next hc =>
          simp only [Option.some.injEq, Prod.mk.injEq, List.dropWhile_eq_nil_iff] at h
          exact ⟨c, rest, rfl, hc, h.2⟩
      · simp at h

/-- **A name is read up to where it ends.** -/
theorem name?_append {name rest : Text} (hn : IsName name) (hr : endsName rest = true) :
    name? (name ++ rest) = some (name, rest) := by
  obtain ⟨c, tail, rfl, hc, htail⟩ := hn.exists_cons
  have hstops : Stops isNameChar rest := by
    cases rest <;> simp_all [Stops, endsName]
  rw [List.cons_append, name?, if_pos hc, takeWhile_append_of_stops htail hstops,
    dropWhile_append_of_stops htail hstops]

/-- No name starts with a character that may not start one. -/
theorem name?_cons_eq_none {c : Char} (text : Text) (h : isNameStart c = false) :
    name? (c :: text) = none := by
  rw [name?, if_neg (by simp [h])]

/-! ## Blanks -/

/-- **A gap**: one or more ASCII blanks. -/
def isGap (text : Text) : Bool := ! text.isEmpty && text.all isAsciiBlank

/-- Blanks in front of a text are skipped. -/
theorem skipBlanks_append {gap : Text} (text : Text) (h : gap.all isAsciiBlank = true) :
    skipBlanks (gap ++ text) = skipBlanks text :=
  List.dropWhile_append_of_pos (List.all_eq_true.mp h)

/-- Nothing is skipped in front of another character. -/
theorem skipBlanks_cons {c : Char} (text : Text) (h : isAsciiBlank c = false) :
    skipBlanks (c :: text) = c :: text := by
  simp [skipBlanks, h]

/-- A blank is no character of a name. -/
theorem isNameChar_of_isAsciiBlank {c : Char} (h : isAsciiBlank c = true) :
    isNameChar c = false := by
  simp only [isAsciiBlank, Bool.or_eq_true, beq_iff_eq] at h
  rcases h with (((rfl | rfl) | rfl) | rfl) | rfl <;> decide

/-- A character that may start a name may also follow its start. -/
theorem isNameChar_of_isNameStart {c : Char} (h : isNameStart c = true) : isNameChar c = true := by
  simp only [isNameStart, isNameChar, isAlphanumeric, Bool.or_eq_true] at h ⊢
  tauto

/-- A character that may start a name is no blank. -/
theorem isAsciiBlank_of_isNameStart {c : Char} (h : isNameStart c = true) :
    isAsciiBlank c = false := by
  by_contra hb
  have hn := isNameChar_of_isAsciiBlank (by simpa using hb)
  simp [isNameChar_of_isNameStart h] at hn

/-! ## Attributes -/

/-- What stands before a closing quote is read up to it. -/
theorem quoted_append {quote : Char} {raw : Text} (rest : Text)
    (h : ∀ c ∈ raw, c ≠ quote ∧ c ≠ '<') : quoted quote (raw ++ quote :: rest) = .ok (raw, rest) := by
  have hraw : ∀ c ∈ raw, (c != quote && c != '<') = true := by
    intro c hc
    simp [h c hc]
  have hquote : Stops (fun c => c != quote && c != '<') (quote :: rest) := by simp
  rw [quoted, dropWhile_append_of_stops hraw hquote, takeWhile_append_of_stops hraw hquote]
  exact if_pos rfl

/-- **A text in quotes is read as the value that it decodes to.** -/
theorem readValue_append {quote : Char} {raw value : Text} (hquote : quote = '"' ∨ quote = '\'')
    (hraw : ∀ c ∈ raw, c ≠ quote ∧ c ≠ '<') (hvalue : decode raw = some value) (rest : Text) :
    readValue (quote :: (raw ++ quote :: rest)) = .ok (value, rest) := by
  rw [readValue, if_pos hquote, quoted_append rest hraw]
  simp only [hvalue]

/-- **An escaped value in double quotes is read as the value.** -/
theorem readValue_writeEscaped (value rest : Text) :
    readValue ('"' :: (writeEscaped value ++ '"' :: rest)) = .ok (value, rest) :=
  readValue_append (.inl rfl)
    (fun _ hc => ⟨(ne_of_mem_writeEscaped hc).2.2.1, (ne_of_mem_writeEscaped hc).1⟩)
    (decode_writeEscaped value) rest

variable {text key afterKey afterSign value rest : Text}

/-- Where no name follows the blanks there is no attribute. -/
theorem readAttributes_eq_nil (hn : name? (skipBlanks text) = none) :
    readAttributes text = .ok ([], text) := by
  rw [readAttributes]
  split
  · rfl
  · next h => simp [hn] at h

/-- **An attribute is read** where a blank, a key, a sign and a value follow one another. -/
theorem readAttributes_eq_map (hn : name? (skipBlanks text) = some (key, afterKey))
    (hb : startsBlank text = true) (hs : skipBlanks afterKey = '=' :: afterSign)
    (hv : readValue (skipBlanks afterSign) = .ok (value, rest)) :
    readAttributes text = (readAttributes rest).map fun read => ((key, value) :: read.1, read.2) := by
  rw [readAttributes]
  split
  · next h => simp [hn] at h
  · next key' afterKey' h =>
      obtain ⟨rfl, rfl⟩ : key = key' ∧ afterKey = afterKey' := by simpa [hn] using h
      rw [if_neg (by simp [hb])]
      split
      · next afterSign' h =>
          obtain rfl : afterSign = afterSign' := by simpa [hs] using h
          split
          · next h => simp [hv] at h
          · next value' rest' h =>
              obtain ⟨rfl, rfl⟩ : value = value' ∧ rest = rest' := by simpa [hv] using h
              cases readAttributes rest <;> rfl
      · next h => exact absurd hs (h _)

/-- **An attribute that was written is read**, and the attributes after it as without it. -/
theorem readAttributes_field {gap key : Text} (value rest : Text) (hg : isGap gap = true)
    (hk : IsName key) :
    readAttributes (field gap key value ++ rest)
      = (readAttributes rest).map fun read => ((key, value) :: read.1, read.2) := by
  obtain ⟨hne, hgap⟩ : gap ≠ [] ∧ gap.all isAsciiBlank = true := by simpa [isGap] using hg
  obtain ⟨c, tail, rfl, hc, -⟩ := hk.exists_cons
  -- The text in the order in which it is read.
  have htext : field gap (c :: tail) value ++ rest
      = gap ++ ((c :: tail) ++ '=' :: '"' :: (writeEscaped value ++ '"' :: rest)) := by
    simp [field]
  have hskip : skipBlanks (field gap (c :: tail) value ++ rest)
      = (c :: tail) ++ '=' :: '"' :: (writeEscaped value ++ '"' :: rest) := by
    rw [htext, skipBlanks_append _ hgap, List.cons_append,
      skipBlanks_cons _ (isAsciiBlank_of_isNameStart hc)]
  have hname : name? (skipBlanks (field gap (c :: tail) value ++ rest))
      = some (c :: tail, '=' :: '"' :: (writeEscaped value ++ '"' :: rest)) := by
    rw [hskip]
    exact name?_append hk rfl
  have hblank : startsBlank (field gap (c :: tail) value ++ rest) = true := by
    rw [htext]
    cases gap with
    | nil => exact absurd rfl hne
    | cons b gap => simpa [startsBlank] using (Bool.and_eq_true_iff.mp hgap).1
  have hvalue : readValue (skipBlanks ('"' :: (writeEscaped value ++ '"' :: rest))) = .ok (value, rest) := by
    rw [skipBlanks_cons _ (by decide), readValue_writeEscaped]
  exact readAttributes_eq_map hname hblank (skipBlanks_cons _ (by decide)) hvalue

/-- **The attributes that texts write**, one text for each. -/
inductive Fields : List Text → List (Text × Text) → Prop
  | nil : Fields [] []
  | cons {gap key value : Text} {texts : List Text} {attributes : List (Text × Text)}
      (hg : isGap gap = true) (hk : IsName key) (h : Fields texts attributes) :
      Fields (field gap key value :: texts) ((key, value) :: attributes)

namespace Fields

variable {texts : List Text} {attributes : List (Text × Text)}

/-- An attribute after a space. -/
theorem spaced (key value : Text) (hk : IsName key) (h : Fields texts attributes) :
    Fields (spacedField key value :: texts) ((key, value) :: attributes) :=
  cons (by decide) hk h

/-- **Attributes that were written are read**, up to where no attribute follows. -/
theorem readAttributes_eq {rest : Text} (h : Fields texts attributes)
    (hr : readAttributes rest = .ok ([], rest)) :
    readAttributes (texts.flatten ++ rest) = .ok (attributes, rest) := by
  induction h with
  | nil => exact hr
  | cons hg hk _ ih =>
      rw [List.flatten_cons, List.append_assoc, readAttributes_field _ _ hg hk, ih]
      rfl

/-- The name of a tag ends where the attributes start. -/
theorem endsName_append {rest : Text} (h : Fields texts attributes) (hr : endsName rest = true) :
    endsName (texts.flatten ++ rest) = true := by
  cases h with
  | nil => exact hr
  | @cons gap key value texts attributes hg hk h =>
      cases gap with
      | nil => simp [isGap] at hg
      | cons b gap =>
          -- The first attribute starts with a blank, and no name goes on with one.
          obtain ⟨hb, -⟩ : isAsciiBlank b = true ∧ ∀ c ∈ gap, isAsciiBlank c = true := by
            simpa [isGap] using hg
          simpa [endsName, field] using isNameChar_of_isAsciiBlank hb

end Fields

/-! ## Start tags -/

/-- No attribute starts at the end of a tag. -/
theorem readAttributes_close (rest : Text) :
    readAttributes ('>' :: rest) = .ok ([], '>' :: rest) := by
  refine readAttributes_eq_nil ?_
  rw [skipBlanks_cons _ (by decide), name?_cons_eq_none _ (by decide)]

/-- No attribute starts at the end of the tag of an empty element. -/
theorem readAttributes_closeEmpty (rest : Text) :
    readAttributes (' ' :: '/' :: '>' :: rest) = .ok ([], ' ' :: '/' :: '>' :: rest) := by
  refine readAttributes_eq_nil ?_
  show name? (skipBlanks ([' '] ++ '/' :: '>' :: rest)) = none
  rw [skipBlanks_append _ (by decide), skipBlanks_cons _ (by decide),
    name?_cons_eq_none _ (by decide)]

variable {texts : List Text} {attributes : List (Text × Text)}

/-- **A start tag that was written is read.** -/
theorem readStartTag_open (name rest : Text) (h : Fields texts attributes) :
    readStartTag name (texts.flatten ++ '>' :: rest) = .ok (⟨name, attributes, false⟩, rest) := by
  have hs : skipBlanks ('>' :: rest) = '>' :: rest := skipBlanks_cons _ (by decide)
  rw [readStartTag, h.readAttributes_eq (readAttributes_close rest)]
  simp only [hs]

/-- **The tag of an empty element that was written is read.** -/
theorem readStartTag_empty (name rest : Text) (h : Fields texts attributes) :
    readStartTag name (texts.flatten ++ ' ' :: '/' :: '>' :: rest)
      = .ok (⟨name, attributes, true⟩, rest) := by
  have hs : skipBlanks (' ' :: '/' :: '>' :: rest) = '/' :: '>' :: rest := by
    show skipBlanks ([' '] ++ '/' :: '>' :: rest) = '/' :: '>' :: rest
    rw [skipBlanks_append _ (by decide), skipBlanks_cons _ (by decide)]
  rw [readStartTag, h.readAttributes_eq (readAttributes_closeEmpty rest)]
  simp only [hs]

end Xml

end RuleTable
