import Mathlib.Data.List.TakeWhile
import RuleTable.Text.Basic

/-!
# Where a text falls into two

A **run** is a text all of whose characters are of one class. A run in front of a text that
`Stops` the class is found again by looking for the first character outside of it, so a text falls
into a run and what stops it in one way only. A text falls in one way, too, into what stands up to
the first occurrence of a mark (`Marked`) and what follows the mark.
-/

set_option autoImplicit false

namespace RuleTable.Text

/-! ## Runs of a class -/

/-- **A run**: a text of characters of one class. -/
@[ext]
structure Run (p : Char → Bool) where
  text : Text
  all : ∀ c ∈ text, p c = true

/-- **A text stops a class** when no character of the class comes first in it. -/
def Stops (p : Char → Bool) (text : Text) : Prop := ∀ c ∈ text.head?, p c = false

variable {p : Char → Bool}

@[simp] theorem stops_cons {c : Char} {text : Text} : Stops p (c :: text) ↔ p c = false := by
  simp [Stops]

/-- What comes first in two texts comes first in the former, if that is not empty. -/
theorem Stops.append_of_ne_nil {text : Text} (h : Stops p text) (hne : text ≠ []) (rest : Text) :
    Stops p (text ++ rest) := by
  obtain ⟨c, text, rfl⟩ := List.exists_cons_of_ne_nil hne
  simpa using h

theorem Stops.append {text rest : Text} (h : Stops p text) (hr : Stops p rest) :
    Stops p (text ++ rest) := by
  by_cases hne : text = []
  · rwa [hne, List.nil_append]
  · exact h.append_of_ne_nil hne rest

/-- A text none of whose characters is of a class stops it. -/
theorem stops_append_of_forall {text : Text} (hne : text ≠ []) (h : ∀ c ∈ text, p c = false)
    (rest : Text) : Stops p (text ++ rest) := by
  obtain ⟨c, text, rfl⟩ := List.exists_cons_of_ne_nil hne
  rw [List.cons_append, stops_cons]
  exact h c List.mem_cons_self

/-- The characters of a class are taken up to where they stop. -/
theorem takeWhile_append_of_stops {text rest : Text} (h : ∀ c ∈ text, p c = true)
    (hr : Stops p rest) : (text ++ rest).takeWhile p = text := by
  rw [List.takeWhile_append_of_pos h]
  cases rest with
  | nil => rw [List.takeWhile_nil, List.append_nil]
  | cons c rest => rw [List.takeWhile_cons_of_neg (by simpa using hr), List.append_nil]

theorem dropWhile_append_of_stops {text rest : Text} (h : ∀ c ∈ text, p c = true)
    (hr : Stops p rest) : (text ++ rest).dropWhile p = rest := by
  rw [List.dropWhile_append_of_pos h]
  cases rest with
  | nil => rfl
  | cons c rest => rw [List.dropWhile_cons_of_neg (by simpa using hr)]

/-- **What is skipped at the start of a text** does not depend on what stops the skipping behind
it. -/
theorem Stops.dropWhile_append {rest : Text} (h : Stops p rest) (text : Text) :
    (text ++ rest).dropWhile p = text.dropWhile p ++ rest := by
  rw [List.dropWhile_append]
  split
  · next hempty =>
      rw [List.isEmpty_iff.mp hempty, List.nil_append]
      exact dropWhile_append_of_stops (List.forall_mem_nil _) h
  · rfl

theorem Stops.takeWhile_append {rest : Text} (h : Stops p rest) (text : Text) :
    (text ++ rest).takeWhile p = text.takeWhile p := by
  have hwhole := List.takeWhile_append_dropWhile (p := p) (l := text ++ rest)
  rw [h.dropWhile_append, ← List.append_assoc] at hwhole
  exact List.append_cancel_right
    ((List.append_cancel_right hwhole).trans List.takeWhile_append_dropWhile.symm)

/-- A text of a class at the start of a whole stands in front of where the class is stopped. -/
theorem exists_of_append_eq {text rest word after : Text} (hr : Stops p rest)
    (hw : ∀ c ∈ word, p c = true) (h : text ++ rest = word ++ after) :
    ∃ m, text = word ++ m ∧ after = m ++ rest := by
  rcases List.append_eq_append_iff.mp h with ⟨m, rfl, hm⟩ | ⟨m, rfl, hm⟩
  · cases m with
    | nil => exact ⟨[], by simp, by simpa using hm.symm⟩
    | cons c m =>
        have hstops := hr c (by simp [hm])
        rw [hw c (by simp)] at hstops
        cases hstops
  · exact ⟨m, rfl, hm⟩

/-- What the search for the end of a run leaves stops the class. -/
theorem stops_dropWhile (text : Text) : Stops p (text.dropWhile p) := by
  intro c hc
  have h := List.head?_dropWhile_not p text
  rw [hc] at h
  simpa using h

namespace Run

/-- The run of a class that a text starts with. -/
def first (p : Char → Bool) (text : Text) : Run p :=
  ⟨text.takeWhile p, fun _ hc => List.mem_takeWhile_imp hc⟩

theorem first_append_dropWhile (text : Text) : (first p text).text ++ text.dropWhile p = text :=
  List.takeWhile_append_dropWhile

variable {r s : Run p} {rest later : Text}

/-- A run stops every class that has no character with its own in common. -/
theorem stops {q : Char → Bool} (h : ∀ c, p c = true → q c = false) : Stops q r.text :=
  fun c hc => h c (r.all c (List.mem_of_mem_head? hc))

/-- **A text falls in one way into a run and what stops it.** -/
theorem append_inj (hr : Stops p rest) (hl : Stops p later)
    (h : r.text ++ rest = s.text ++ later) : r = s ∧ rest = later := by
  have ht : r.text = s.text := by
    rw [← takeWhile_append_of_stops r.all hr, h, takeWhile_append_of_stops s.all hl]
  refine ⟨Run.ext ht, ?_⟩
  rw [← dropWhile_append_of_stops r.all hr, h, dropWhile_append_of_stops s.all hl]

end Run

/-! ## Up to the first mark -/

/-- **A text up to the first mark**: with the mark behind it, the text holds the mark only at its
end. -/
@[ext]
structure Marked (mark : Text) where
  body : Text
  isFirst : ∀ front back, body ++ mark = front ++ mark ++ back → back = []

namespace Marked

variable {mark : Text}

/-- The text with its mark. -/
def text (marked : Marked mark) : Text := marked.body ++ mark

theorem append_inj_of_le {m m' : Marked mark} {rest later : Text}
    (h : m.text ++ rest = m'.text ++ later) (hle : m.text.length ≤ m'.text.length) :
    m = m' ∧ rest = later := by
  obtain ⟨back, hback⟩ : m.text <+: m'.text :=
    List.prefix_of_prefix_length_le ⟨rest, rfl⟩ ⟨later, h.symm⟩ hle
  -- The shorter of the two shows the mark in the longer one.
  obtain rfl : back = [] := m'.isFirst m.body back hback.symm
  rw [List.append_nil] at hback
  refine ⟨Marked.ext (List.append_cancel_right hback), ?_⟩
  rw [hback] at h
  exact List.append_cancel_left h

/-- **A text falls in one way into what stands up to the first mark and what follows it.** -/
theorem append_inj {m m' : Marked mark} {rest later : Text}
    (h : m.text ++ rest = m'.text ++ later) : m = m' ∧ rest = later := by
  rcases Nat.le_total m.text.length m'.text.length with hle | hle
  · exact append_inj_of_le h hle
  · obtain ⟨hm, hr⟩ := append_inj_of_le h.symm hle
    exact ⟨hm.symm, hr.symm⟩

/-- The mark alone. -/
def alone (mark : Text) : Marked mark where
  body := []
  isFirst := by
    intro front back h
    have hlen := congrArg List.length h
    simp only [List.length_append, List.length_nil] at hlen
    exact List.length_eq_zero_iff.mp (by omega)

/-- A text without the first character of a mark, up to the mark. -/
def ofNotMem {c : Char} {body : Text} (tail : Text) (hc : c ∉ body) : Marked (c :: tail) where
  body := body
  isFirst := by
    intro front back h
    rw [List.append_assoc, List.append_eq_append_iff] at h
    rcases h with ⟨more, -, h⟩ | ⟨more, rfl, h⟩
    · have hlen := congrArg List.length h
      simp only [List.length_append] at hlen
      exact List.length_eq_zero_iff.mp (by omega)
    · cases more with
      | nil => exact List.append_right_eq_self.mp h
      | cons d more =>
          obtain rfl : c = d := (List.cons.inj h).1
          simp at hc

/-- One character more in front of a text up to the first mark, if no mark starts there. -/
def cons (c : Char) (m : Marked mark) (hc : ¬ mark <+: c :: m.text) : Marked mark where
  body := c :: m.body
  isFirst := by
    intro front back h
    cases front with
    | nil => exact absurd ⟨back, h.symm⟩ hc
    | cons d front => exact m.isFirst front back (List.cons.inj h).2

/-- In a text up to the first mark the mark does not start before its end. -/
theorem not_startsWith_mark {c : Char} {body rest : Text}
    (h : ∀ front back, (c :: body) ++ mark = front ++ mark ++ back → back = []) :
    ¬ mark <+: c :: (body ++ mark ++ rest) := by
  intro hp
  obtain ⟨back, hback⟩ : mark <+: (c :: body) ++ mark := by
    refine List.prefix_of_prefix_length_le hp ⟨rest, rfl⟩ ?_
    rw [List.length_append]
    omega
  obtain rfl : back = [] := h [] back hback.symm
  have hlen := congrArg List.length hback
  simp only [List.length_append, List.length_cons, List.length_nil] at hlen
  omega

/-- **What follows the first mark** is what follows the text up to it. -/
theorem after?_eq_some_iff {text rest : Text} (hm : mark ≠ []) :
    after? mark text = some rest ↔ ∃ m : Marked mark, m.text ++ rest = text := by
  constructor
  · intro h
    induction text with
    | nil => simp [after?, hm] at h
    | cons c text ih =>
        rw [after?] at h
        split at h
        · next hp =>
            obtain ⟨back, hback⟩ := List.isPrefixOf_iff_prefix.mp hp
            refine ⟨alone mark, ?_⟩
            rw [← hback, List.drop_left, Option.some.injEq] at h
            rw [← hback, ← h]
            rfl
        · next hp =>
            obtain ⟨m, rfl⟩ := ih h
            have hc : ¬ mark <+: c :: m.text := fun hc =>
              hp (List.isPrefixOf_iff_prefix.mpr (hc.trans ⟨rest, rfl⟩))
            exact ⟨m.cons c hc, rfl⟩
  -- No mark starts inside the body, so each step of the search drops one character of it.
  · rintro ⟨⟨body, hfirst⟩, rfl⟩
    show after? mark (body ++ mark ++ rest) = some rest
    induction body with
    | nil =>
        obtain ⟨c, tail, rfl⟩ := List.exists_cons_of_ne_nil hm
        have hp : (c :: tail).isPrefixOf (c :: (tail ++ rest)) = true :=
          List.isPrefixOf_iff_prefix.mpr ⟨rest, rfl⟩
        show after? (c :: tail) (c :: (tail ++ rest)) = some rest
        rw [after?, if_pos hp, ← List.cons_append, List.drop_left]
    | cons c body ih =>
        show after? mark (c :: (body ++ mark ++ rest)) = some rest
        rw [after?, if_neg fun hp => not_startsWith_mark hfirst (List.isPrefixOf_iff_prefix.mp hp)]
        exact ih fun front back h => hfirst (c :: front) back (congrArg (c :: ·) h)

end Marked

end RuleTable.Text
