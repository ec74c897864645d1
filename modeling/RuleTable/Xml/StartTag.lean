import RuleTable.Text.Blank
import RuleTable.Xml.Fault
import RuleTable.Xml.Name
import RuleTable.Xml.Reference

/-!
# Start tags

A start tag is the name of an element with its attributes. A reader takes the text that is left
and returns what it read and what is left after it, or the fault that stops it. Once the name of
an attribute has been read there is no going back.
-/

set_option autoImplicit false

namespace RuleTable

open Text

namespace Xml

/-! ## Attributes -/

/-- What stands before a closing quote and what follows the quote; when `<` or the end comes
first, what is left there. -/
def quoted (quote : Char) (text : Text) : Except Text (Text × Text) :=
  match text.dropWhile fun c => c != quote && c != '<' with
  | [] => .error []
  | c :: rest =>
      if c = quote then .ok (text.takeWhile fun c => c != quote && c != '<', rest)
      else .error (c :: rest)

/-- What follows a closing quote is shorter than the text. -/
theorem length_of_quoted {quote : Char} {text raw rest : Text}
    (h : quoted quote text = .ok (raw, rest)) : rest.length < text.length := by
  have hle := length_dropWhile_le (fun c => c != quote && c != '<') text
  rw [quoted] at h
  split at h
  · simp at h
  · next hd =>
      split at h
      · simp only [Except.ok.injEq, Prod.mk.injEq] at h
        rw [hd, List.length_cons, h.2] at hle
        omega
      · simp at h

/-- **The value of an attribute**: a text in double or single quotes, without its own quote and
without `<`. A value in double quotes that is not closed is a fault where it starts, one in
single quotes where it stops. -/
def readValue : Text → Except Fault (Text × Text)
  | [] => .error ⟨.noValue, []⟩
  | c :: text =>
      if c = '"' ∨ c = '\'' then
        match quoted c text with
        | .ok (raw, rest) =>
            match decode raw with
            | some value => .ok (value, rest)
            | none => .error ⟨.noValue, rest⟩
        | .error rest => .error ⟨.noValue, if c = '"' then c :: text else rest⟩
      else .error ⟨.noValue, c :: text⟩

/-- What follows the value of an attribute is shorter than the text. -/
theorem length_of_readValue {text value rest : Text} (h : readValue text = .ok (value, rest)) :
    rest.length < text.length := by
  cases text with
  | nil => simp [readValue] at h
  | cons c text =>
      rw [readValue] at h
      split at h
      · split at h
        · next hq =>
            split at h
            · simp only [Except.ok.injEq, Prod.mk.injEq] at h
              have := length_of_quoted hq
              rw [h.2] at this
              simp only [List.length_cons]
              omega
            · simp at h
        · simp at h
      · simp at h

/-- The attributes of a start tag, and what follows them. Each has ASCII blanks before it. -/
def readAttributes (text : Text) : Except Fault (List (Text × Text) × Text) :=
  match _hn : name? (skipBlanks text) with
  | none => .ok ([], text)
  | some (key, afterKey) =>
      if ! startsBlank text then .ok ([], text)
      else match _hs : skipBlanks afterKey with
        | '=' :: afterSign =>
            match _hv : readValue (skipBlanks afterSign) with
            | .error fault => .error fault
            | .ok (value, rest) =>
                match readAttributes rest with
                | .error fault => .error fault
                | .ok (attributes, rest) => .ok ((key, value) :: attributes, rest)
        | rest => .error ⟨.noEqualsSign, rest⟩
termination_by text.length
decreasing_by
  have h₁ := length_of_name? (by assumption)
  have h₂ := length_of_readValue (by assumption)
  have h₃ := length_skipBlanks_le text
  have h₄ := length_skipBlanks_le afterKey
  have h₅ := length_skipBlanks_le afterSign
  rw [_hs, List.length_cons] at h₄
  omega

/-- What follows attributes is no longer than the text. -/
theorem length_of_readAttributes {text rest : Text} {attributes : List (Text × Text)}
    (h : readAttributes text = .ok (attributes, rest)) : rest.length ≤ text.length := by
  fun_induction readAttributes text generalizing attributes rest with
  | case1 => simp_all
  | case2 => simp_all
  | case3 => simp_all
  | case4 => simp_all
  | case5 text key afterKey hn _ afterSign hs value rest' hv attributes' rest'' hr ih =>
      simp only [Except.ok.injEq, Prod.mk.injEq] at h
      have h₁ := length_of_name? hn
      have h₂ := length_of_readValue hv
      have h₃ := length_skipBlanks_le text
      have h₄ := length_skipBlanks_le afterKey
      have h₅ := length_skipBlanks_le afterSign
      have h₆ := ih hr
      rw [hs, List.length_cons] at h₄
      rw [← h.2]
      omega
  | case6 => simp_all

/-! ## Tags -/

/-- **A start tag**: its name, its attributes, and whether it is the whole element. -/
structure StartTag where
  name : Text
  attributes : List (Text × Text)
  isWhole : Bool

/-- The start tag of a name, from what follows the name, and what follows the tag. -/
def readStartTag (name text : Text) : Except Fault (StartTag × Text) :=
  match readAttributes text with
  | .error fault => .error fault
  | .ok (attributes, rest) =>
      match skipBlanks rest with
      | '/' :: '>' :: rest => .ok (⟨name, attributes, true⟩, rest)
      | '>' :: rest => .ok (⟨name, attributes, false⟩, rest)
      | rest => .error ⟨.openTag, rest⟩

/-- What follows a start tag is shorter than the text. -/
theorem length_of_readStartTag {name text rest : Text} {tag : StartTag}
    (h : readStartTag name text = .ok (tag, rest)) : rest.length < text.length := by
  rw [readStartTag] at h
  split at h
  · simp at h
  · next attributes rest' ha =>
      have h₁ := length_of_readAttributes ha
      have h₂ := length_skipBlanks_le rest'
      split at h
      · next hs =>
          simp only [Except.ok.injEq, Prod.mk.injEq] at h
          rw [hs, List.length_cons, List.length_cons, h.2] at h₂
          omega
      · next hs =>
          simp only [Except.ok.injEq, Prod.mk.injEq] at h
          rw [hs, List.length_cons, h.2] at h₂
          omega
      · simp at h

end Xml

end RuleTable
