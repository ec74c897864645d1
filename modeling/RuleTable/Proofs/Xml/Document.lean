import RuleTable.Proofs.Steps
import RuleTable.Proofs.Text.Runs
import RuleTable.Proofs.Xml.Tags
import RuleTable.Xml.Document

/-!
# Reading around the root element

A document that starts with an instruction and goes on with its root element is read as that
element. The steps are those of the reader: what is skipped in front of the root, the root itself,
and what is skipped after it.
-/

set_option autoImplicit false

namespace RuleTable

open Text

namespace Xml

/-! ## What is skipped -/

/-- A comment is skipped up to its mark. -/
theorem skipMisc_of_comment {text rest : Text} (h : after? "-->".toList text = some rest) :
    skipMisc ('<' :: '!' :: '-' :: '-' :: text) = skipMisc rest := by
  rw [skipMisc]
  split
  · next h' => rw [Option.some.inj (h.symm.trans h')]
  · next h' => exact absurd (h.symm.trans h') (Option.some_ne_none _)

/-- An instruction is skipped up to its mark. -/
theorem skipMisc_of_instruction {text rest : Text} (h : after? "?>".toList text = some rest) :
    skipMisc ('<' :: '?' :: text) = skipMisc rest := by
  rw [skipMisc]
  split
  · next h' => rw [Option.some.inj (h.symm.trans h')]
  · next h' => exact absurd (h.symm.trans h') (Option.some_ne_none _)

/-- **An instruction is skipped.** -/
theorem skipMisc_instruction {body : Text} (rest : Text) (h : '?' ∉ body) :
    skipMisc ("<?".toList ++ body ++ "?>".toList ++ rest) = skipMisc rest := by
  have ha : after? "?>".toList (body ++ "?>".toList ++ rest) = some rest :=
    (Marked.after?_eq_some_iff (by decide)).mpr ⟨.ofNotMem ['>'] h, rfl⟩
  have htext : "<?".toList ++ body ++ "?>".toList ++ rest
      = '<' :: '?' :: (body ++ "?>".toList ++ rest) := by simp
  rw [htext, skipMisc_of_instruction ha]

/-- A blank is skipped. -/
theorem skipMisc_blank {c : Char} (text : Text) (h : isAsciiBlank c = true) :
    skipMisc (c :: text) = skipMisc text := by
  have hc : c ≠ '<' := by
    rintro rfl
    exact absurd h (by decide)
  rw [skipMisc.eq_def]
  split
  · next h => simp at h
  · next h => exact absurd (List.cons.inj h).1 hc
  · next h => exact absurd (List.cons.inj h).1 hc
  · next d text' _ _ h' =>
      obtain ⟨rfl, rfl⟩ := List.cons.inj h'
      rw [if_pos h]

/-- Nothing is skipped in front of the name of an element. -/
theorem skipMisc_start {c : Char} (text : Text) (hc : isNameStart c = true) :
    skipMisc ('<' :: c :: text) = .ok ('<' :: c :: text) := by
  -- A comment and an instruction go on with characters that start no name.
  rw [skipMisc.eq_def]
  split
  · next h => simp at h
  · next h =>
      obtain ⟨rfl, -⟩ := List.cons.inj (List.cons.inj h).2
      exact absurd hc (by decide)
  · next h =>
      obtain ⟨rfl, -⟩ := List.cons.inj (List.cons.inj h).2
      exact absurd hc (by decide)
  · next h =>
      obtain ⟨rfl, rfl⟩ := List.cons.inj h
      rfl

/-- Nothing is skipped in front of an element. -/
theorem skipMisc_element {name : Text} (rest : Text) (hn : IsName name) :
    skipMisc ('<' :: (name ++ rest)) = .ok ('<' :: (name ++ rest)) := by
  obtain ⟨c, tail, rfl, hc, -⟩ := hn.exists_cons
  exact skipMisc_start (tail ++ rest) hc

/-! ## The root element -/

theorem readRoot_eq_ok_iff {text rest : Text} {element : Element} :
    readRoot text = .ok (element, rest) ↔
      ∃ inner name afterName, text = '<' :: inner ∧ name? inner = some (name, afterName) ∧
        readElement name afterName = .ok (element, rest) := by
  constructor
  · intro h
    rw [readRoot.eq_def] at h
    split at h
    · next inner =>
        split at h
        · next name afterName hn => exact ⟨inner, name, afterName, rfl, hn, h⟩
        · cases h
    · cases h
  · rintro ⟨inner, name, afterName, rfl, hn, h⟩
    rw [readRoot, hn]
    exact h

/-- **A document is read as the root element in it** if nothing stands around it that cannot be
skipped. -/
theorem readDocument_eq_ok_iff {document : Text} {root : Element} :
    readDocument document = .ok root ↔
      ∃ start afterRoot, skipMisc document = .ok start ∧ readRoot start = .ok (root, afterRoot) ∧
        skipMisc afterRoot = .ok [] := by
  rw [readDocument]
  constructor
  · intro h
    obtain ⟨start, hstart, h⟩ := exists_of_bind_eq_ok h
    obtain ⟨⟨root', afterRoot⟩, hroot, h⟩ := exists_of_bind_eq_ok h
    obtain ⟨rest, hrest, h⟩ := exists_of_bind_eq_ok h
    split at h
    · next hempty =>
        obtain rfl : root' = root := Except.ok.inj h
        rw [List.isEmpty_iff.mp hempty] at hrest
        exact ⟨start, afterRoot, hstart, hroot, hrest⟩
    · cases h
  · rintro ⟨start, afterRoot, hstart, hroot, hrest⟩
    rw [hstart]
    show (readRoot start).bind _ = _
    rw [hroot]
    show (skipMisc afterRoot).bind _ = _
    rw [hrest]
    rfl

/-- The root element read step by step. -/
theorem readDocument_of_readElement {document name rest afterName afterRoot : Text} {root : Element}
    (hs : skipMisc document = .ok ('<' :: rest)) (hn : name? rest = some (name, afterName))
    (he : readElement name afterName = .ok (root, afterRoot)) (ha : skipMisc afterRoot = .ok []) :
    readDocument document = .ok root :=
  readDocument_eq_ok_iff.mpr
    ⟨_, _, hs, readRoot_eq_ok_iff.mpr ⟨_, _, _, rfl, hn, he⟩, ha⟩

end Xml

end RuleTable
