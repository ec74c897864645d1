import Mathlib.Data.List.Forall2

/-!
# Steps that may fail

A reader takes steps, each of which may fail. When all of them succeed together each of them did,
and what follows says what each gave.
-/

set_option autoImplicit false

namespace RuleTable

variable {ε α β : Type}

/-- If a step and what follows it succeed together, both do. -/
theorem exists_of_bind_eq_ok {step : Except ε α} {next : α → Except ε β} {result : β}
    (h : step >>= next = .ok result) : ∃ value, step = .ok value ∧ next value = .ok result := by
  cases step with
  | error error => simp [bind, Except.bind] at h
  | ok value => exact ⟨value, rfl, h⟩

theorem exists_of_map_eq_ok {step : Except ε α} {f : α → β} {result : β}
    (h : step.map f = .ok result) : ∃ value, step = .ok value ∧ f value = result := by
  cases step with
  | error error => cases h
  | ok value => exact ⟨value, rfl, Except.ok.inj h⟩

/-- If a step and what follows it fail together, one of them does. -/
theorem error_of_bind_eq_error {step : Except ε α} {next : α → Except ε β} {error : ε}
    (h : step >>= next = .error error) :
    step = .error error ∨ ∃ value, step = .ok value ∧ next value = .error error := by
  cases step with
  | error error' => exact Or.inl (congrArg Except.error (Except.error.inj h))
  | ok value => exact Or.inr ⟨value, rfl, h⟩

/-- **A list is read item by item** if each item is. -/
theorem mapM_eq_ok_iff {read : α → Except ε β} {items : List α} {results : List β} :
    items.mapM read = .ok results
      ↔ List.Forall₂ (fun item result => read item = .ok result) items results := by
  induction items generalizing results with
  | nil =>
      rw [List.forall₂_nil_left_iff, List.mapM_nil]
      exact ⟨fun h => (Except.ok.inj h).symm, fun h => congrArg Except.ok h.symm⟩
  | cons item items ih =>
      rw [List.mapM_cons, List.forall₂_cons_left_iff]
      constructor
      · intro h
        obtain ⟨first, hfirst, h⟩ := exists_of_bind_eq_ok h
        obtain ⟨rest, hrest, h⟩ := exists_of_bind_eq_ok h
        exact ⟨first, rest, hfirst, ih.mp hrest, (Except.ok.inj h).symm⟩
      · rintro ⟨first, rest, hfirst, hrest, rfl⟩
        rw [hfirst, ih.mpr hrest]
        rfl

/-- If a list cannot be read, one of its items cannot. -/
theorem exists_of_mapM_eq_error {read : α → Except ε β} {items : List α} {error : ε}
    (h : items.mapM read = .error error) : ∃ item ∈ items, read item = .error error := by
  induction items with
  | nil =>
      rw [List.mapM_nil] at h
      cases h
  | cons item items ih =>
      rw [List.mapM_cons] at h
      rcases error_of_bind_eq_error h with h | ⟨first, -, h⟩
      · exact ⟨item, List.mem_cons_self, h⟩
      · rcases error_of_bind_eq_error h with h | ⟨rest, -, h⟩
        · obtain ⟨later, hl, hread⟩ := ih h
          exact ⟨later, List.mem_cons_of_mem item hl, hread⟩
        · cases h

/-- **A list can be read** if each of its items can. -/
theorem exists_mapM_eq_ok_iff {read : α → Except ε β} {items : List α} :
    (∃ results, items.mapM read = .ok results)
      ↔ ∀ item ∈ items, ∃ result, read item = .ok result := by
  constructor
  · rintro ⟨results, h⟩
    have hboth := (mapM_eq_ok_iff.mp h).imp fun item result hread =>
      (⟨⟨result, hread⟩, hread⟩ : (∃ result, read item = .ok result) ∧ read item = .ok result)
    exact ((List.forall₂_and_left items results).mp hboth).1
  · intro h
    cases hresult : items.mapM read with
    | ok results => exact ⟨results, rfl⟩
    | error error =>
        obtain ⟨item, hitem, hfails⟩ := exists_of_mapM_eq_error hresult
        obtain ⟨result, hread⟩ := h item hitem
        cases hfails.symm.trans hread

end RuleTable
