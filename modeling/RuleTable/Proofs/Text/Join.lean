import RuleTable.Proofs.Text.Trim
import RuleTable.Proofs.Text.Words

/-!
# Joined texts

What a text that is joined from pieces has from its pieces: its two ends, its characters, and, where
the pieces are words with spaces between them, the keywords that occur in it.
-/

set_option autoImplicit false

namespace RuleTable.Text

section Join

variable {separator : Text} {pieces : List Text}

theorem join_cons (separator piece : Text) {pieces : List Text} (h : pieces ≠ []) :
    join separator (piece :: pieces) = piece ++ separator ++ join separator pieces := by
  obtain ⟨next, pieces, rfl⟩ := List.exists_cons_of_ne_nil h
  simp [join]

theorem join_singleton (separator piece : Text) : join separator [piece] = piece := by
  simp [join]

/-- What follows joined pieces belongs to the last of them. -/
theorem join_append_singleton (separator : Text) (pieces : List Text) (last after : Text) :
    join separator (pieces ++ [last]) ++ after = join separator (pieces ++ [last ++ after]) := by
  induction pieces with
  | nil => rw [List.nil_append, List.nil_append, join_singleton, join_singleton]
  | cons piece pieces ih =>
      rw [List.cons_append, List.cons_append, join_cons _ _ (List.concat_ne_nil last pieces),
        join_cons _ _ (List.concat_ne_nil (last ++ after) pieces), List.append_assoc, ih]

theorem mem_join {c : Char} (h : c ∈ join separator pieces) :
    c ∈ separator ∨ ∃ piece ∈ pieces, c ∈ piece := by
  induction pieces with
  | nil => simp [join] at h
  | cons piece pieces ih =>
      by_cases hnil : pieces = []
      · rw [hnil, join_singleton] at h
        exact Or.inr ⟨piece, List.mem_cons_self, h⟩
      · rw [join_cons _ _ hnil, List.append_assoc, List.mem_append, List.mem_append] at h
        rcases h with h | h | h
        · exact Or.inr ⟨piece, List.mem_cons_self, h⟩
        · exact Or.inl h
        · rcases ih h with h | ⟨p, hp, hc⟩
          · exact Or.inl h
          · exact Or.inr ⟨p, List.mem_cons_of_mem piece hp, hc⟩

theorem endsInk_join (hne : pieces ≠ []) (h : ∀ piece ∈ pieces, EndsInk piece) :
    EndsInk (join separator pieces) := by
  induction pieces with
  | nil => exact absurd rfl hne
  | cons piece pieces ih =>
      by_cases hnil : pieces = []
      · simpa [join, hnil] using h piece List.mem_cons_self
      · rw [join_cons separator piece hnil]
        exact (ih hnil fun c hc => h c (List.mem_cons_of_mem piece hc)).append _

theorem startsInk_join (hne : pieces ≠ []) (h : ∀ piece ∈ pieces, StartsInk piece) :
    StartsInk (join separator pieces) := by
  obtain ⟨piece, pieces, rfl⟩ := List.exists_cons_of_ne_nil hne
  have hpiece := h piece List.mem_cons_self
  by_cases hnil : pieces = []
  · simpa [join, hnil] using hpiece
  · rw [join_cons separator piece hnil, List.append_assoc]
    exact hpiece.append _

/-- **What is joined of trimmed pieces is trimmed.** -/
theorem trim_join (hne : pieces ≠ []) (h : ∀ piece ∈ pieces, trim piece = piece ∧ piece ≠ []) :
    trim (join separator pieces) = join separator pieces := by
  refine trim_eq_self (startsInk_join hne fun piece hc => ?_) (endsInk_join hne fun piece hc => ?_)
  · obtain ⟨htrim, hpiece⟩ := h piece hc
    rw [← htrim] at hpiece ⊢
    exact startsInk_trim hpiece
  · obtain ⟨htrim, hpiece⟩ := h piece hc
    rw [← htrim] at hpiece ⊢
    exact endsInk_trim hpiece

/-- **In words with spaces between them a keyword occurs** if it is one of them, as long as the
spaces are the only edges. -/
theorem occurs_join_iff {edge : Char → Bool} {keyword : Text} {words : List Text}
    (hk : IsKeyword keyword) (hspace : edge ' ' = true)
    (h : ∀ word ∈ words, ∀ c ∈ word, edge c = false) :
    Occurs edge keyword (join [' '] words) ↔ ∃ word ∈ words, sameLetters word keyword = true := by
  induction words with
  | nil =>
      have hnone : ¬ Occurs edge keyword [] := not_occurs_of_no_letters hk (by simp)
      simpa [join] using hnone
  | cons word words ih =>
      have hword : Occurs edge keyword word ↔ sameLetters word keyword = true :=
        occurs_iff_sameLetters (h word List.mem_cons_self)
      by_cases hnil : words = []
      · rw [hnil, join_singleton, hword]
        simp
      · have hrest := ih fun w hw => h w (List.mem_cons_of_mem word hw)
        rw [join_cons _ _ hnil, List.append_assoc, List.singleton_append,
          occurs_append_cons hk hspace (by decide), hword, hrest]
        simp

end Join

/-! ## Splitting -/

theorem splitOn_of_not_mem {separator : Char} {text : Text} (h : separator ∉ text) :
    splitOn separator text = [text] := by
  induction text with
  | nil => rfl
  | cons c text ih =>
      have hc : c ≠ separator := fun heq => h (by simp [heq])
      have ht : separator ∉ text := fun hmem => h (List.mem_cons_of_mem c hmem)
      rw [splitOn, if_neg hc, ih ht]

theorem splitOn_ne_nil (separator : Char) (text : Text) : splitOn separator text ≠ [] := by
  cases text with
  | nil => exact List.cons_ne_nil _ _
  | cons c text =>
      rw [splitOn]
      split
      · exact List.cons_ne_nil _ _
      · split <;> exact List.cons_ne_nil _ _

/-- A text is split at the first separator. -/
theorem splitOn_append_cons {separator : Char} {text rest : Text} (h : separator ∉ text) :
    splitOn separator (text ++ separator :: rest) = text :: splitOn separator rest := by
  induction text with
  | nil => rw [List.nil_append, splitOn, if_pos rfl]
  | cons c text ih =>
      have hc : c ≠ separator := fun heq => h (by simp [heq])
      have ht : separator ∉ text := fun hmem => h (List.mem_cons_of_mem c hmem)
      rw [List.cons_append, splitOn, if_neg hc, ih ht]

theorem not_mem_of_mem_splitOn {separator : Char} {text piece : Text}
    (h : piece ∈ splitOn separator text) : separator ∉ piece := by
  induction text generalizing piece with
  | nil =>
      rw [List.mem_singleton.mp h]
      exact List.not_mem_nil
  | cons c text ih =>
      obtain ⟨first, pieces, hpieces⟩ := List.exists_cons_of_ne_nil (splitOn_ne_nil separator text)
      rw [splitOn, hpieces] at h
      rw [hpieces] at ih
      split at h
      · rcases List.mem_cons.mp h with rfl | h
        · exact List.not_mem_nil
        · exact ih h
      · next hc =>
          rcases List.mem_cons.mp h with rfl | h
          · intro hmem
            rcases List.mem_cons.mp hmem with rfl | hmem
            · exact hc rfl
            · exact ih List.mem_cons_self hmem
          · exact ih (List.mem_cons_of_mem first h)

theorem join_splitOn (separator : Char) (text : Text) :
    join [separator] (splitOn separator text) = text := by
  induction text with
  | nil => rfl
  | cons c text ih =>
      have hne := splitOn_ne_nil separator text
      obtain ⟨first, pieces, hpieces⟩ := List.exists_cons_of_ne_nil hne
      rw [splitOn]
      split
      · next hc => rw [join_cons _ _ hne, ih, hc, List.nil_append, List.singleton_append]
      · rw [hpieces] at ih ⊢
        by_cases hnil : pieces = []
        · rw [hnil, join_singleton] at ih ⊢
          rw [ih]
        · rw [join_cons _ _ hnil] at ih ⊢
          rw [List.cons_append, List.cons_append, ih]

theorem splitOn_join {separator : Char} {pieces : List Text} (hne : pieces ≠ [])
    (h : ∀ piece ∈ pieces, separator ∉ piece) : splitOn separator (join [separator] pieces) = pieces := by
  induction pieces with
  | nil => exact absurd rfl hne
  | cons piece pieces ih =>
      have hpiece := h piece List.mem_cons_self
      by_cases hnil : pieces = []
      · rw [hnil, join_singleton, splitOn_of_not_mem hpiece]
      · have hrest := ih hnil fun p hp => h p (List.mem_cons_of_mem piece hp)
        rw [join_cons _ _ hnil, List.append_assoc, List.singleton_append,
          splitOn_append_cons hpiece, hrest]

/-- **The pieces of a text** are the texts without separators that it is joined from. -/
theorem splitOn_eq_iff {separator : Char} {text : Text} {pieces : List Text} :
    splitOn separator text = pieces ↔ pieces ≠ [] ∧ join [separator] pieces = text ∧
      ∀ piece ∈ pieces, separator ∉ piece := by
  constructor
  · rintro rfl
    exact ⟨splitOn_ne_nil separator text, join_splitOn separator text,
      fun _ => not_mem_of_mem_splitOn⟩
  · rintro ⟨hne, rfl, h⟩
    exact splitOn_join hne h

end RuleTable.Text
