/-!
# Text

A text is a list of characters, so that every reader in this library is a recursion on the text
it reads. This file holds what reading and writing share: equality up to the case of ASCII
letters, dropping a word, splitting at a separator, joining, cutting into lines, numbers in
decimal, and the number of bytes of a text in UTF-8.
-/

set_option autoImplicit false

namespace RuleTable

/-- **A text**: its characters, first to last. -/
abbrev Text := List Char

namespace Text

/-! ## Letter case -/

/-- Whether two texts are equal when the case of ASCII letters is ignored. -/
def sameLetters (a b : Text) : Bool :=
  a.map Char.toLower == b.map Char.toLower

/-- What follows `word` at the start of a text, ASCII case ignored; `none` when the text does not
start with `word`. -/
def dropWord? : Text → Text → Option Text
  | [], text => some text
  | _ :: _, [] => none
  | w :: word, c :: text => if w.toLower == c.toLower then dropWord? word text else none

/-- The word and what follows it make up the text. -/
theorem length_of_dropWord? {word text after : Text} (h : dropWord? word text = some after) :
    after.length + word.length = text.length := by
  induction word generalizing text with
  | nil => simp [dropWord?] at h; simp [h]
  | cons w word ih =>
      cases text with
      | nil => simp [dropWord?] at h
      | cons c text =>
          rw [dropWord?] at h
          split at h
          · have := ih h
            simp only [List.length_cons]
            omega
          · simp at h

/-- Dropping characters makes no text longer. -/
theorem length_dropWhile_le (p : Char → Bool) (text : Text) :
    (text.dropWhile p).length ≤ text.length :=
  (List.dropWhile_suffix p).length_le

/-! ## Splitting and joining -/

/-- The pieces of a text between the occurrences of a separator; one more than there are
separators. -/
def splitOn (separator : Char) : Text → List Text
  | [] => [[]]
  | c :: text =>
      if c = separator then [] :: splitOn separator text
      else match splitOn separator text with
        | [] => [[c]]
        | piece :: pieces => (c :: piece) :: pieces

/-- The pieces one after the other with a separator between neighbours. -/
def join (separator : Text) (pieces : List Text) : Text :=
  (pieces.intersperse separator).flatten

/-- The text with every occurrence of one character replaced by another. -/
def replace (old new : Char) (text : Text) : Text :=
  text.map fun c => if c = old then new else c

/-- **The lines** of a text. A line ends at a line feed, and one carriage return right before the
line feed belongs to the line's end; what follows the last line feed is a line unless it is
empty. -/
def lines : Text → List Text
  | [] => []
  | '\r' :: '\n' :: text => [] :: lines text
  | '\n' :: text => [] :: lines text
  | c :: text =>
      match lines text with
      | [] => [[c]]
      | line :: rest => (c :: line) :: rest

/-- What follows the first occurrence of `mark`, if there is one. -/
def after? (mark : Text) : Text → Option Text
  | [] => if mark.isEmpty then some [] else none
  | c :: text =>
      if mark.isPrefixOf (c :: text) then some ((c :: text).drop mark.length)
      else after? mark text

/-- What follows an occurrence is no longer than the text. -/
theorem length_of_after? {mark text rest : Text} (h : after? mark text = some rest) :
    rest.length ≤ text.length := by
  induction text with
  | nil =>
      rw [after?] at h
      split at h <;> simp_all
  | cons c text ih =>
      rw [after?] at h
      split at h
      · simp only [Option.some.injEq] at h
        rw [← h, List.length_drop]
        omega
      · exact Nat.le_succ_of_le (ih h)

/-! ## Numbers and sizes -/

/-- A number in decimal. -/
def ofNat (n : Nat) : Text := Nat.toDigits 10 n

/-- As many spaces as asked for. -/
def spaces (n : Nat) : Text := List.replicate n ' '

/-- The number of bytes of a text in UTF-8. -/
def utf8Size (text : Text) : Nat := (text.flatMap String.utf8EncodeChar).length

end Text

end RuleTable
