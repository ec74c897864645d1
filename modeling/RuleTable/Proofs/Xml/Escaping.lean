import Mathlib.Data.List.Basic
import RuleTable.Xml.Reference

/-!
# Escaping and decoding

A text that was escaped decodes to itself, and it holds no character that markup keeps for itself
but the `&` of its references. So an escaped text that stands between quotes is one value, and one
that stands between tags is one piece of character data. What decodes on its own decodes the same in
front of any other text, which is how the pieces of a document can be read one after the other.

The writer gathers the characters between two references in a run. **`escapeChar`** says what
becomes of each character on its own, and what the writer puts out is made up of that.
-/

set_option autoImplicit false

namespace RuleTable

/-! ## Decoding piece by piece -/

/-- What decodes to the end leaves no reference open, so decoding goes on as if it started
after it. -/
theorem decodeFrom_append {a d : Text} (b : Text) :
    ∀ {opened : Option Text}, decodeFrom opened a = some d →
      decodeFrom opened (a ++ b) = (decode b).map (d ++ ·) := by
  -- Inside a reference nothing is put out yet, so the statement is about every open reference.
  induction a generalizing d with
  | nil =>
      intro opened h
      cases opened with
      | none =>
          obtain rfl : [] = d := by simpa [decodeFrom] using h
          simp [decode]
      | some body => simp [decodeFrom] at h
  | cons c a ih =>
      intro opened h
      rw [List.cons_append]
      cases opened with
      | none =>
          rw [decodeFrom] at h ⊢
          by_cases hc : c = '&'
          · rw [if_pos hc] at h ⊢
            exact ih h
          · rw [if_neg hc] at h ⊢
            obtain ⟨d', hd, rfl⟩ := Option.map_eq_some_iff.mp h
            rw [ih hd, Option.map_map]
            rfl
      | some body =>
          rw [decodeFrom] at h ⊢
          by_cases hc : c = ';'
          · rw [if_pos hc] at h ⊢
            cases hr : referenced? body.reverse with
            | none => simp [hr] at h
            | some e =>
                simp only [hr] at h ⊢
                obtain ⟨d', hd, rfl⟩ := Option.map_eq_some_iff.mp h
                rw [ih hd, Option.map_map]
                rfl
          · rw [if_neg hc] at h ⊢
            exact ih h

/-- **Decoding goes piece by piece.** -/
theorem decode_append {a d : Text} (b : Text) (h : decode a = some d) :
    decode (a ++ b) = (decode b).map (d ++ ·) :=
  decodeFrom_append b h

/-- A text without `&` decodes to itself. -/
theorem decode_eq_self {text : Text} (h : '&' ∉ text) : decode text = some text := by
  induction text with
  | nil => rfl
  | cons c text ih =>
      simp only [List.mem_cons, not_or] at h
      have ht : decodeFrom none text = some text := ih h.2
      rw [decode, decodeFrom, if_neg (Ne.symm h.1), ht]
      rfl

/-! ## What is written -/

/-- How a character is written for markup: a reserved one by its reference, any other as it is. -/
def escapeChar (c : Char) : Text := if isReserved c then nameReference c else [c]

/-- The run that the writer has gathered comes first, and then each character on its own. -/
theorem writeEscapedFrom_eq (run text : Text) :
    writeEscapedFrom run text = run.reverse ++ text.flatMap escapeChar := by
  induction text generalizing run with
  | nil => rw [writeEscapedFrom, List.flatMap_nil, List.append_nil]
  | cons c text ih =>
      rw [writeEscapedFrom, List.flatMap_cons, escapeChar]
      split
      · rw [ih, List.reverse_nil, List.nil_append, List.append_assoc]
      · rw [ih, List.reverse_cons, List.append_assoc]

/-- **The writer puts out every character on its own.** -/
theorem writeEscaped_eq (text : Text) : writeEscaped text = text.flatMap escapeChar := by
  rw [writeEscaped, writeEscapedFrom_eq, List.reverse_nil, List.nil_append]

theorem writeEscaped_cons (c : Char) (text : Text) :
    writeEscaped (c :: text) = escapeChar c ++ writeEscaped text := by
  rw [writeEscaped_eq, writeEscaped_eq, List.flatMap_cons]

theorem writeEscaped_append (a b : Text) :
    writeEscaped (a ++ b) = writeEscaped a ++ writeEscaped b := by
  rw [writeEscaped_eq, writeEscaped_eq, writeEscaped_eq, List.flatMap_append]

/-- The reserved characters. -/
theorem isReserved_iff {c : Char} :
    isReserved c = true ↔ c = '&' ∨ c = '<' ∨ c = '>' ∨ c = '"' ∨ c = '\'' := by
  simp only [isReserved, Bool.or_eq_true, beq_iff_eq, or_assoc]

/-! ## What an escaped text holds -/

/-- A character as it is escaped decodes to the character. -/
theorem decode_escapeChar (c : Char) : decode (escapeChar c) = some [c] := by
  rw [escapeChar]
  split
  · next h => rcases isReserved_iff.mp h with rfl | rfl | rfl | rfl | rfl <;> decide
  · next h => exact decode_eq_self (by simpa using fun hc => h (isReserved_iff.mpr (.inl hc.symm)))

/-- **Decoding undoes escaping.** -/
theorem decode_writeEscaped (text : Text) : decode (writeEscaped text) = some text := by
  induction text with
  | nil => rfl
  | cons c text ih =>
      rw [writeEscaped_cons, decode_append _ (decode_escapeChar c), ih]
      rfl

/-- A character as it is escaped holds neither angle brackets nor quotes. -/
theorem ne_of_mem_escapeChar {c d : Char} (h : d ∈ escapeChar c) :
    d ≠ '<' ∧ d ≠ '>' ∧ d ≠ '"' ∧ d ≠ '\'' := by
  -- Of a text that is given it can be computed.
  have hplain : ∀ written : Text,
      (written.all fun d => d != '<' && d != '>' && d != '"' && d != '\'') = true →
        d ∈ written → d ≠ '<' ∧ d ≠ '>' ∧ d ≠ '"' ∧ d ≠ '\'' := by
    intro written hall hd
    simpa [and_assoc] using List.all_eq_true.mp hall d hd
  rw [escapeChar] at h
  split at h
  · next hc =>
      rcases isReserved_iff.mp hc with rfl | rfl | rfl | rfl | rfl <;>
        exact hplain _ (by decide) h
  · next hc =>
      obtain rfl : d = c := by simpa using h
      rw [isReserved_iff, not_or, not_or, not_or, not_or] at hc
      exact hc.2

/-- **An escaped text holds neither angle brackets nor quotes.** -/
theorem ne_of_mem_writeEscaped {text : Text} {d : Char} (h : d ∈ writeEscaped text) :
    d ≠ '<' ∧ d ≠ '>' ∧ d ≠ '"' ∧ d ≠ '\'' := by
  rw [writeEscaped_eq] at h
  obtain ⟨c, -, hd⟩ := List.mem_flatMap.mp h
  exact ne_of_mem_escapeChar hd

/-! ## Texts that need no escaping -/

/-- **Without reserved characters a text is written as it is.** -/
theorem writeEscaped_eq_self {text : Text} (h : text.any isReserved = false) :
    writeEscaped text = text := by
  have hplain : ∀ c ∈ text, escapeChar c = [c] := fun c hc =>
    if_neg (List.any_eq_false.mp h c hc)
  rw [writeEscaped_eq, List.flatMap_congr hplain, List.flatMap_singleton']

/-- **Escaping comes to the same as writing for markup**, whether it goes through the writer or
not. -/
theorem escape_eq (text : Text) : escape text = writeEscaped text := by
  rw [escape]
  split
  · rfl
  · next h => exact (writeEscaped_eq_self (by simpa using h)).symm

end RuleTable
