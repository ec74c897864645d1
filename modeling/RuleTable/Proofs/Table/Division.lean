import RuleTable.Table.Basic

/-!
# The division of rules into tables

Rules that do not fit into one table are divided. **Nothing is lost, doubled or moved**: one after
the other the parts are the rules. Every part but the last is full, and the last is not empty.
-/

set_option autoImplicit false

namespace RuleTable

variable {α : Type} {size : Nat} {rules part : List α}

/-- Rules that fit are one part. -/
theorem chunks_of_fits (h : size = 0 ∨ rules.length ≤ size) : chunks size rules = [rules] := by
  rw [chunks, dif_pos h]

/-- Of rules that do not fit, the first part is full and the rest is divided in turn. -/
theorem chunks_of_not_fits (h : ¬ (size = 0 ∨ rules.length ≤ size)) :
    chunks size rules = rules.take size :: chunks size (rules.drop size) := by
  rw [chunks, dif_neg h]

/-- There is at least one part. -/
theorem chunks_ne_nil (size : Nat) (rules : List α) : chunks size rules ≠ [] := by
  by_cases h : size = 0 ∨ rules.length ≤ size
  · rw [chunks_of_fits h]
    exact List.cons_ne_nil _ _
  · rw [chunks_of_not_fits h]
    exact List.cons_ne_nil _ _

/-- **The parts one after the other are the rules.** -/
theorem flatten_chunks (size : Nat) (rules : List α) : (chunks size rules).flatten = rules := by
  fun_induction chunks size rules with
  | case1 rules h => rw [List.flatten_singleton]
  | case2 rules h ih => rw [List.flatten_cons, ih, List.take_append_drop]

/-- **The number of parts**: one if the rules fit, else as many as full parts are begun. -/
theorem length_chunks (size : Nat) (rules : List α) :
    (chunks size rules).length
      = if size = 0 ∨ rules.length ≤ size then 1 else (rules.length + size - 1) / size := by
  fun_induction chunks size rules with
  | case1 rules h => rw [if_pos h, List.length_singleton]
  | case2 rules h ih =>
      rw [if_neg h, List.length_cons, ih, List.length_drop]
      have hs : 0 < size := by omega
      by_cases hlast : rules.length - size ≤ size
      · -- Two parts: what is left after the first fits.
        have htwo : (rules.length + size - 1) / size = 2 :=
          Nat.div_eq_of_lt_le (by omega) (by omega)
        rw [if_pos (Or.inr hlast), htwo]
      · -- The first part takes a full size away, which is one in the quotient.
        have hstep : rules.length + size - 1 = rules.length - size + size - 1 + size := by omega
        rw [if_neg (by omega), hstep, Nat.add_div_right _ hs]

/-- **Every part but the last is full.** -/
theorem length_of_mem_dropLast_chunks (h : part ∈ (chunks size rules).dropLast) :
    part.length = size := by
  fun_induction chunks size rules with
  | case1 rules _ => exact absurd h List.not_mem_nil
  | case2 rules hfit ih =>
      rw [List.dropLast_cons_of_ne_nil (chunks_ne_nil size _)] at h
      rcases List.mem_cons.mp h with rfl | h
      · rw [List.length_take]
        omega
      · exact ih h

/-- **The last part is neither empty nor too long.** -/
theorem length_of_mem_getLast?_chunks (hs : 0 < size) (hr : rules ≠ [])
    (h : part ∈ (chunks size rules).getLast?) : 1 ≤ part.length ∧ part.length ≤ size := by
  fun_induction chunks size rules with
  | case1 rules hfit =>
      obtain rfl : rules = part := by simpa using h
      have := List.length_pos_iff.mpr hr
      omega
  | case2 rules hfit ih =>
      have hrest : rules.drop size ≠ [] := by
        rw [Ne, List.drop_eq_nil_iff]
        omega
      rw [List.getLast?_cons_of_ne_nil (chunks_ne_nil size _)] at h
      exact ih hrest h

end RuleTable
