import RuleTable.Text.Basic

/-!
# Blanks

Two classes of blank characters, and the operations that go by them. **Blanks** are the
characters with the Unicode property White_Space; trimming goes by them. **ASCII blanks** are
space, tabulator, line feed, form feed and carriage return; keywords and markup go by them. The
vertical tabulator is a blank and no ASCII blank.
-/

set_option autoImplicit false

namespace RuleTable.Text

/-! ## The two classes -/

/-- The code points with the property White_Space. -/
def blankCodes : List Nat :=
  [0x09, 0x0A, 0x0B, 0x0C, 0x0D, 0x20, 0x85, 0xA0, 0x1680, 0x2000, 0x2001, 0x2002, 0x2003,
    0x2004, 0x2005, 0x2006, 0x2007, 0x2008, 0x2009, 0x200A, 0x2028, 0x2029, 0x202F, 0x205F,
    0x3000]

/-- Whether a character is a **blank**. -/
def isBlank (c : Char) : Bool := blankCodes.contains c.toNat

/-- Whether a character is an **ASCII blank**. -/
def isAsciiBlank (c : Char) : Bool :=
  c == ' ' || c == '\t' || c == '\n' || c == '\r' || c == '\x0c'

/-- An ASCII blank is a blank. -/
theorem isBlank_of_isAsciiBlank {c : Char} (h : isAsciiBlank c = true) : isBlank c = true := by
  simp only [isAsciiBlank, Bool.or_eq_true, beq_iff_eq] at h
  rcases h with (((rfl | rfl) | rfl) | rfl) | rfl <;> decide

/-! ## Trimming -/

/-- The text without the blanks it starts with. -/
def trimStart (text : Text) : Text := text.dropWhile isBlank

/-- The text without the blanks it ends with. -/
def trimEnd (text : Text) : Text := (text.reverse.dropWhile isBlank).reverse

/-- The text without the blanks at its two ends. -/
def trim (text : Text) : Text := trimEnd (trimStart text)

/-! ## ASCII blanks at the start -/

/-- The text without the ASCII blanks it starts with. -/
def skipBlanks (text : Text) : Text := text.dropWhile isAsciiBlank

/-- Whether a text starts with an ASCII blank. -/
def startsBlank (text : Text) : Bool := text.head?.any isAsciiBlank

/-- The first run of characters other than ASCII blanks, if there is one. -/
def firstToken? (text : Text) : Option Text :=
  match (skipBlanks text).takeWhile (! isAsciiBlank ·) with
  | [] => none
  | token => some token

/-- Skipping blanks makes no text longer. -/
theorem length_skipBlanks_le (text : Text) : (skipBlanks text).length ≤ text.length :=
  length_dropWhile_le isAsciiBlank text

end RuleTable.Text
