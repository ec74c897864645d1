import Mathlib.Data.List.Forall2
import RuleTable.Proofs.Text.Join

/-!
# The lines of a text

A text is cut into lines at its line feeds. Lines differ from the pieces between line feeds in two
ways: a carriage return in front of a line feed belongs to no line, and nothing behind the last line
feed is no line. Neither can be seen after trimming, so **the trimmed lines of a text are its trimmed
pieces**, but for an empty one at the end. Pieces are easier to put together than lines.
-/

set_option autoImplicit false

namespace RuleTable.Text

/-! ## Pieces -/

/-- **The pieces of two texts with a separator between them** are those of the one and then those of
the other. -/
theorem splitOn_append_separator (separator : Char) (text rest : Text) :
    splitOn separator (text ++ separator :: rest)
      = splitOn separator text ++ splitOn separator rest := by
  induction text with
  | nil => exact splitOn_append_cons List.not_mem_nil
  | cons c text ih =>
      rw [List.cons_append, splitOn, splitOn]
      split
      · rw [ih, List.cons_append]
      · rw [ih]
        obtain ⟨piece, pieces, hp⟩ := List.exists_cons_of_ne_nil (splitOn_ne_nil separator text)
        rw [hp]
        rfl

/-- There is one piece more than there are separators. -/
theorem length_splitOn (separator : Char) (text : Text) :
    (splitOn separator text).length = text.count separator + 1 := by
  induction text with
  | nil => rfl
  | cons c text ih =>
      obtain ⟨piece, pieces, hp⟩ := List.exists_cons_of_ne_nil (splitOn_ne_nil separator text)
      rw [splitOn]
      split
      · next hc => rw [List.length_cons, ih, hc, List.count_cons_self]
      · next hc =>
          rw [hp] at ih ⊢
          rw [List.count_cons_of_ne hc]
          exact ih

/-! ## Lines and pieces -/

/-- **A piece is a line with its end**: the line, or the line and a carriage return. -/
def EndsLine (piece line : Text) : Prop := piece = line ∨ piece = line ++ ['\r']

theorem EndsLine.trim_eq {piece line : Text} (h : EndsLine piece line) : trim piece = trim line := by
  rcases h with rfl | rfl
  · rfl
  · exact trim_append_blank line (by decide)

theorem EndsLine.cons {piece line : Text} (h : EndsLine piece line) (c : Char) :
    EndsLine (c :: piece) (c :: line) := by
  rcases h with rfl | rfl
  · exact Or.inl rfl
  · exact Or.inr rfl

/-- Only the text with nothing in it has no lines. -/
theorem eq_nil_of_lines_eq_nil {text : Text} (h : lines text = []) : text = [] := by
  rw [lines.eq_def] at h
  split at h
  · rfl
  · cases h
  · cases h
  · split at h <;> cases h

/-- **The pieces of a text between line feeds are its lines**, each with its end, and maybe an
empty piece behind them. -/
theorem exists_endsLine (text : Text) :
    ∃ pieces rest, splitOn '\n' text = pieces ++ rest ∧ (rest = [] ∨ rest = [[]]) ∧
      List.Forall₂ EndsLine pieces (lines text) := by
  fun_induction lines text with
  | case1 => exact ⟨[], [[]], rfl, Or.inr rfl, .nil⟩
  | case2 text ih =>
      obtain ⟨pieces, rest, hsplit, hrest, hall⟩ := ih
      have hcut : splitOn '\n' ('\r' :: '\n' :: text) = ['\r'] :: splitOn '\n' text := by
        have hreturn : '\n' ∉ ['\r'] := by decide
        exact splitOn_append_cons hreturn
      exact ⟨['\r'] :: pieces, rest, by rw [hcut, hsplit, List.cons_append], hrest,
        .cons (Or.inr rfl) hall⟩
  | case3 text ih =>
      obtain ⟨pieces, rest, hsplit, hrest, hall⟩ := ih
      exact ⟨[] :: pieces, rest, by rw [splitOn, if_pos rfl, hsplit, List.cons_append], hrest,
        .cons (Or.inl rfl) hall⟩
  | case4 c text _ hfeed hnil ih =>
      obtain rfl := eq_nil_of_lines_eq_nil hnil
      have hc : '\n' ∉ [c] := fun hmem => hfeed (List.mem_singleton.mp hmem).symm
      exact ⟨[[c]], [], splitOn_of_not_mem hc, Or.inl rfl, .cons (Or.inl rfl) .nil⟩
  | case5 c text _ hfeed line later hlines ih =>
      obtain ⟨pieces, rest, hsplit, hrest, hall⟩ := ih
      rw [hlines] at hall
      obtain ⟨piece, pieces, hfirst, hlater, rfl⟩ := List.forall₂_cons_right_iff.mp hall
      refine ⟨(c :: piece) :: pieces, rest, ?_, hrest, .cons (hfirst.cons c) hlater⟩
      rw [splitOn, if_neg hfeed, hsplit]
      rfl

/-! ## Line ends -/

/-- A text with a carriage return in front of each line feed. -/
def withReturns (text : Text) : Text :=
  text.flatMap fun c => if c = '\n' then ['\r', '\n'] else [c]

/-- **Carriage returns in front of line feeds** end the pieces of a text. -/
theorem endsLine_withReturns (text : Text) :
    List.Forall₂ EndsLine (splitOn '\n' (withReturns text)) (splitOn '\n' text) := by
  induction text with
  | nil => exact .cons (Or.inl rfl) .nil
  | cons c text ih =>
      by_cases hc : c = '\n'
      · have hcut : splitOn '\n' (withReturns (c :: text))
            = ['\r'] :: splitOn '\n' (withReturns text) := by
          have hreturn : '\n' ∉ ['\r'] := by decide
          rw [withReturns, List.flatMap_cons, if_pos hc]
          exact splitOn_append_cons hreturn
        rw [hcut, splitOn, if_pos hc]
        exact .cons (Or.inr rfl) ih
      · have hcut : withReturns (c :: text) = c :: withReturns text := by
          rw [withReturns, List.flatMap_cons, if_neg hc]
          rfl
        obtain ⟨piece, pieces, hp⟩ := List.exists_cons_of_ne_nil (splitOn_ne_nil '\n' text)
        rw [hp] at ih
        obtain ⟨piece', pieces', hfirst, hlater, hp'⟩ := List.forall₂_cons_right_iff.mp ih
        rw [hcut, splitOn, splitOn, if_neg hc, if_neg hc, hp, hp']
        exact .cons (hfirst.cons c) hlater

end RuleTable.Text
