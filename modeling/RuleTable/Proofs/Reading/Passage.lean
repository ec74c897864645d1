import Mathlib.Data.List.Basic
import RuleTable.Proofs.Reading.Scan

/-!
# The passage of the scanner through a text

The scanner of the conditions moves on by one character, or by the five characters of the word `and`
with a blank on each side. **`Scans`** relates what it has read of the current clause before and
after such moves, along with the text that is left each time. That text is the real one, down to its
end, since the scanner looks ahead in it. All that is said of a passage goes by what one move can be,
which `Place.scan_eq` tells.
-/

set_option autoImplicit false

namespace RuleTable

open Text

/-! ## One move -/

/-- The place after a character that is part of the clause, outside the word `and`. `opens` says
whether a range is opened there. -/
def Place.next (place : Place) (opens : Bool) (c : Char) : Place :=
  if c = '(' then place.opened
  else if c = ')' then place.closed
  else match place with
    | top => if opens then range else top
    | place => place

section Move

variable {place next : Place} {before text rest : Text} {c : Char}

/-- **All that the scanner can do next**: at a conjunction it depends on the place, and anywhere
else it reads one character. -/
theorem Place.scan_eq (place : Place) (before : Text) (c : Char) (text : Text) :
    place.scan before c text =
      if startsConjunction (c :: text) then
        match place with
        | .parens outer => .character (.parens outer)
        | .range => .rangeAnd (if (firstToken? (text.drop 4)).any isNumeral then .top else .range)
        | .top => .conjunction
      else .character (place.next (opensRange before (c :: text)) c) := by
  by_cases hand : startsConjunction (c :: text) = true
  · obtain ⟨b, w, b', after, heq, hb, -, -⟩ := startsConjunction_iff.mp hand
    obtain ⟨rfl, -⟩ := List.cons.inj heq
    have hblank := isBlank_of_isAsciiBlank hb
    have hopen : c ≠ '(' := ne_of_isBlank hblank (by decide)
    have hclose : c ≠ ')' := ne_of_isBlank hblank (by decide)
    have hshut : opensRange before (c :: text) = false :=
      opensRange_of_isAlpha (isAlpha_of_isBlank hblank)
    rw [if_pos hand]
    cases place with
    | parens outer => exact scan_parens hopen hclose
    | range => simp only [Place.scan, if_neg hopen, if_neg hclose, if_pos hand]
    | top =>
        simp only [Place.scan, if_neg hopen, if_neg hclose, if_pos hand, hshut,
          Bool.false_eq_true, if_false]
  · rw [if_neg hand]
    cases place with
    | parens outer =>
        simp only [Place.scan, Place.next]
        split_ifs <;> rfl
    | range =>
        simp only [Place.scan, Place.next, if_neg hand]
        split_ifs <;> rfl
    | top =>
        simp only [Place.scan, Place.next, if_neg hand]
        split_ifs <;> rfl

/-- A clause ends where a conjunction starts at the top, and nowhere else. -/
theorem scan_eq_conjunction_iff :
    place.scan before c text = .conjunction
      ↔ place = .top ∧ startsConjunction (c :: text) = true := by
  rw [Place.scan_eq]
  by_cases hand : startsConjunction (c :: text) = true
  · cases place <;> simp [hand]
  · simp [hand]

/-- In a range the scanner passes over an `and`. -/
theorem scan_eq_rangeAnd_iff :
    place.scan before c text = .rangeAnd next
      ↔ place = .range ∧ startsConjunction (c :: text) = true ∧
        (if (firstToken? (text.drop 4)).any isNumeral then .top else .range) = next := by
  rw [Place.scan_eq]
  by_cases hand : startsConjunction (c :: text) = true
  · cases place <;> simp [hand]
  · simp [hand]

/-- Anywhere else it reads one character, and inside parentheses it does so at a conjunction, too. -/
theorem scan_eq_character_iff :
    place.scan before c text = .character next
      ↔ place.next (opensRange before (c :: text)) c = next ∧
        (startsConjunction (c :: text) = true → ∃ outer, place = .parens outer) := by
  rw [Place.scan_eq]
  by_cases hand : startsConjunction (c :: text) = true
  · rw [if_pos hand]
    cases place with
    | top => simp [hand]
    | range => simp [hand]
    | parens outer =>
        -- A conjunction starts with a blank, which opens and closes nothing.
        obtain ⟨b, w, b', after, heq, hb, -, -⟩ := startsConjunction_iff.mp hand
        obtain ⟨rfl, -⟩ := List.cons.inj heq
        have hopen : c ≠ '(' := ne_of_isBlank (isBlank_of_isAsciiBlank hb) (by decide)
        have hclose : c ≠ ')' := ne_of_isBlank (isBlank_of_isAsciiBlank hb) (by decide)
        simp [Place.next, hopen, hclose]
  · simp [hand]

/-- A conjunction takes four characters after its first blank. -/
theorem length_of_startsConjunction (h : startsConjunction (c :: text) = true) :
    4 ≤ text.length := by
  unfold startsConjunction at h
  split at h
  · next heq =>
      obtain ⟨rfl, rfl⟩ := List.cons.inj heq
      simp
  · cases h

/-- Whether a conjunction starts is seen within its length. -/
theorem startsConjunction_append (h : 4 ≤ text.length) (rest : Text) :
    startsConjunction (c :: (text ++ rest)) = startsConjunction (c :: text) := by
  match text, h with
  | _ :: _ :: _ :: _ :: _, _ => rfl

/-- A conjunction does not reach into a text that starts with neither a blank nor a letter. -/
theorem four_le_of_stops (hrest : Stops (fun c => isAsciiBlank c || c.isAlpha) rest)
    (h : startsConjunction (c :: (text ++ rest)) = true) : 4 ≤ text.length := by
  obtain ⟨b, w, b', after, heq, -, hw, hb'⟩ := startsConjunction_iff.mp h
  obtain ⟨rfl, heq⟩ := List.cons.inj heq
  have hletters := (IsKeyword.of_sameLetters (by decide) hw).2
  have hlength : w.length = 3 := by simpa using congrArg List.length (sameLetters_iff.mp hw)
  -- The characters behind the first blank are none that stops there, so they stand in the text.
  have hinside : ∀ d ∈ w ++ [b'], (isAsciiBlank d || d.isAlpha) = true := by
    intro d hd
    rcases List.mem_append.mp hd with hd | hd
    · rw [hletters d hd, Bool.or_true]
    · rw [List.mem_singleton.mp hd, hb', Bool.true_or]
  have hword : text ++ rest = (w ++ [b']) ++ after := by simpa using heq
  obtain ⟨m, rfl, -⟩ := exists_of_append_eq hrest hinside hword
  simp only [List.length_append, List.length_singleton, hlength]
  omega

end Move

/-- **A conjunction**: the word `and`, in any case, with a gap on both sides. -/
def IsConjunction (text : Text) : Prop :=
  ∃ gap w gap', text = gap ++ w ++ gap' ∧ IsGap gap ∧ sameLetters w "and".toList = true ∧ IsGap gap'

/-- Where the scanner finds a conjunction there is one, of five characters. -/
theorem isConjunction_of_startsConjunction {c : Char} {text : Text}
    (h : startsConjunction (c :: text) = true) : IsConjunction (c :: text.take 4) := by
  obtain ⟨b, w, b', after, heq, hb, hw, hb'⟩ := startsConjunction_iff.mp h
  obtain ⟨rfl, rfl⟩ := List.cons.inj heq
  have hlength : w.length = 3 := by simpa using congrArg List.length (sameLetters_iff.mp hw)
  have htake : (w ++ b' :: after).take 4 = w ++ [b'] := by
    rw [List.take_append, hlength, List.take_of_length_le (by omega)]
    rfl
  have hgap : ∀ d : Char, isAsciiBlank d = true → IsGap [d] := fun d hd =>
    ⟨List.cons_ne_nil d [], List.forall_mem_singleton.mpr hd⟩
  refine ⟨[c], w, [b'], ?_, hgap c hb, hw, hgap b' hb'⟩
  show c :: (w ++ b' :: after).take 4 = c :: (w ++ [b'])
  rw [htake]

/-- A conjunction is blanks and letters. -/
theorem IsConjunction.of_mem {text : Text} {c : Char} (h : IsConjunction text) (hmem : c ∈ text) :
    isAsciiBlank c = true ∨ c.isAlpha = true := by
  obtain ⟨gap, w, gap', rfl, hgap, hsame, hgap'⟩ := h
  simp only [List.mem_append] at hmem
  rcases hmem with (hmem | hmem) | hmem
  · exact Or.inl (hgap.2 c hmem)
  · exact Or.inr ((IsKeyword.of_sameLetters (by decide) hsame).2 c hmem)
  · exact Or.inl (hgap'.2 c hmem)

/-! ## Passages -/

/-- **A reader of the conditions**: its place and what it has read of the clause, nearest character
first. -/
structure Reader where
  place : Place
  current : Text
deriving DecidableEq

/-- The reader at the start of a clause. -/
def Reader.start : Reader := ⟨.top, []⟩

/-- **The passage of a reader** from one text that is left to another, with the clauses that end on
the way, as they stand in the text. -/
inductive Scans : Reader → Text → List Text → Reader → Text → Prop
  | nil (reader : Reader) (text : Text) : Scans reader text [] reader text
  | character {place next : Place} {before text rest : Text} {c : Char} {pieces : List Text}
      {reader : Reader} (hscan : place.scan before c text = .character next)
      (h : Scans ⟨next, c :: before⟩ text pieces reader rest) :
      Scans ⟨place, before⟩ (c :: text) pieces reader rest
  | rangeAnd {place next : Place} {before text rest : Text} {c : Char} {pieces : List Text}
      {reader : Reader} (hscan : place.scan before c text = .rangeAnd next)
      (h : Scans ⟨next, (text.take 4).reverse ++ c :: before⟩ (text.drop 4) pieces reader rest) :
      Scans ⟨place, before⟩ (c :: text) pieces reader rest
  | conjunction {place : Place} {before text rest : Text} {c : Char} {pieces : List Text}
      {reader : Reader} (hscan : place.scan before c text = .conjunction)
      (h : Scans .start (text.drop 4) pieces reader rest) :
      Scans ⟨place, before⟩ (c :: text) (before.reverse :: pieces) reader rest

namespace Scans

variable {reader reader' reader'' : Reader} {text middle rest : Text} {pieces more : List Text}

/-- **One passage after the other.** -/
theorem trans (h : Scans reader text pieces reader' middle)
    (h' : Scans reader' middle more reader'' rest) :
    Scans reader text (pieces ++ more) reader'' rest := by
  induction h with
  | nil => exact h'
  | character hscan _ ih => exact .character hscan (ih h')
  | rangeAnd hscan _ ih => exact .rangeAnd hscan (ih h')
  | conjunction hscan _ ih => exact .conjunction hscan (ih h')

/-- What is left is an end of the text. -/
theorem suffix (h : Scans reader text pieces reader' rest) : rest <:+ text := by
  induction h with
  | nil => exact List.suffix_rfl
  | character _ _ ih => exact ih.trans (List.suffix_cons _ _)
  | rangeAnd _ _ ih => exact (ih.trans (List.drop_suffix 4 _)).trans (List.suffix_cons _ _)
  | conjunction _ _ ih => exact (ih.trans (List.drop_suffix 4 _)).trans (List.suffix_cons _ _)

/-- While no clause ends, what was read and what is left make up the same text. -/
theorem read_append (h : Scans reader text pieces reader' rest) (hpieces : pieces = []) :
    reader'.current.reverse ++ rest = reader.current.reverse ++ text := by
  induction h with
  | nil => rfl
  | character _ _ ih => simpa using ih hpieces
  | rangeAnd _ _ ih => simpa [List.take_append_drop] using ih hpieces
  | conjunction => cases hpieces

/-- **The clauses found on a passage** are those that the scanner reports, before the ones in what
is left. -/
theorem conditionClausesFrom_eq (h : Scans reader text pieces reader' rest) :
    conditionClausesFrom reader.place reader.current text
      = pieces.flatMap clauseOf ++ conditionClausesFrom reader'.place reader'.current rest := by
  induction h with
  | nil => rfl
  | character hscan _ ih =>
      rw [conditionClausesFrom]
      simp only [hscan]
      exact ih
  | rangeAnd hscan _ ih =>
      rw [conditionClausesFrom]
      simp only [hscan]
      exact ih
  | conjunction hscan _ ih =>
      rw [conditionClausesFrom]
      simp only [hscan]
      rw [List.flatMap_cons, List.append_assoc, ← ih]
      rfl

end Scans

/-- **Every text is passed** up to a given end, if no conjunction reaches into that. -/
theorem exists_scans (reader : Reader) (text : Text) {rest : Text}
    (hrest : Stops (fun c => isAsciiBlank c || c.isAlpha) rest) :
    ∃ pieces reader', Scans reader (text ++ rest) pieces reader' rest := by
  obtain ⟨place, before⟩ := reader
  -- A move takes at least one character, so the induction is on how many there are.
  induction hlength : text.length using Nat.strong_induction_on generalizing text place before with
  | _ n ih =>
      cases text with
      | nil => exact ⟨[], _, .nil _ _⟩
      | cons c text =>
          rw [List.length_cons] at hlength
          cases hscan : place.scan before c (text ++ rest) with
          | character next =>
              obtain ⟨pieces, reader', h⟩ := ih text.length (by omega) text next (c :: before) rfl
              exact ⟨pieces, reader', .character hscan h⟩
          | rangeAnd next =>
              have hfour := four_le_of_stops hrest (scan_eq_rangeAnd_iff.mp hscan).2.1
              obtain ⟨pieces, reader', h⟩ := ih (text.drop 4).length
                (by rw [List.length_drop]; omega) (text.drop 4) next
                (((text ++ rest).take 4).reverse ++ c :: before) rfl
              rw [← List.drop_append_of_le_length hfour] at h
              exact ⟨pieces, reader', .rangeAnd hscan h⟩
          | conjunction =>
              have hfour := four_le_of_stops hrest (scan_eq_conjunction_iff.mp hscan).2
              obtain ⟨pieces, reader', h⟩ := ih (text.drop 4).length
                (by rw [List.length_drop]; omega) (text.drop 4) .top [] rfl
              rw [← List.drop_append_of_le_length hfour] at h
              exact ⟨before.reverse :: pieces, reader', .conjunction hscan h⟩

end RuleTable
