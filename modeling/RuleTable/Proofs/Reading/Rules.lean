import RuleTable.Proofs.Steps
import RuleTable.Reading.Line

/-!
# Which lines are rules

A line is read in steps, and each step may fail: the form of the rule, its halves, the conditions
and the actions. Here is **all that a line says that is read as a rule**, for both forms, so that no
later proof has to go through the steps again.
-/

set_option autoImplicit false

namespace RuleTable

open Text

/-- **A rule is made of two halves** if it has their conditions and actions and what else it was
given; since a rule has both, neither half is empty. -/
theorem ruleOfHalves_eq_ok_iff {id conditionsText actionsText source : Text}
    {conditions : List Condition} {actions : List Action} {rule : Rule} :
    ruleOfHalves id conditions actions conditionsText actionsText source = .ok rule
      ↔ rule.id = id ∧ rule.conditions = conditions ∧ rule.actions = actions ∧
        rule.source = source := by
  unfold ruleOfHalves Rule.make
  constructor
  · intro h
    by_cases hc : conditions = []
    · simp [hc] at h
    · by_cases ha : actions = []
      · simp [hc, ha] at h
      · simp only [dif_neg hc, dif_neg ha, Except.ok.injEq] at h
        rw [← h]
        exact ⟨rfl, rfl, rfl, rfl⟩
  · rintro ⟨rfl, rfl, rfl, rfl⟩
    simp only [dif_neg rule.conditions_ne_nil, dif_neg rule.actions_ne_nil]

/-- **What follows the keyword of a form says a rule**: for a rule that applies everywhere its
actions, for any other rule the conditions before and the actions after the separator. -/
def RuleForm.Says : RuleForm → Text → Rule → Prop
  | .otherwise, rest, rule =>
      rule.conditions = [.always] ∧
        ∃ text, otherwiseActions? rest = some text ∧ readActions text = .ok rule.actions
  | .when, rest, rule =>
      ∃ before after, halves? rest = some (before, after) ∧
        readConditions (trim before) = .ok rule.conditions ∧
        readActions (trim after) = .ok rule.actions

/-- The reader of a line that is not blank, step by step. -/
theorem readRule_of_not_isEmpty {suffix line : Text} (h : ¬ (trim line).isEmpty = true) :
    readRule suffix line = match readForm? (trim line) with
      | none => .error (.noKeyword (trim line))
      | some (.otherwise, rest) =>
          match otherwiseActions? rest with
          | none => .error (.noSeparator (trim line))
          | some text => readActions text >>= fun actions =>
              ruleOfHalves (RuleForm.otherwise.idStem ++ suffix) [.always] actions [] text line
      | some (.when, rest) =>
          match halves? rest with
          | none => .error (.noSeparator (trim line))
          | some (before, after) => readConditions (trim before) >>= fun conditions =>
              readActions (trim after) >>= fun actions =>
                ruleOfHalves (RuleForm.when.idStem ++ suffix) conditions actions (trim before)
                  (trim after) line := by
  simp only [readRule, if_neg h]
  rfl

/-- **The lines that are read as a rule**: they start with the keyword of a form and go on to say
the rule, whose id ends with the suffix and whose source is the line. -/
theorem readRule_eq_ok_iff {suffix line : Text} {rule : Rule} :
    readRule suffix line = .ok rule
      ↔ rule.source = line ∧ ∃ form rest, readForm? (trim line) = some (form, rest) ∧
        rule.id = form.idStem ++ suffix ∧ form.Says rest rule := by
  by_cases hempty : (trim line).isEmpty = true
  · -- Without a keyword there is no rule on either side.
    have hnil : trim line = [] := List.isEmpty_iff.mp hempty
    have hnone : readForm? [] = none := by decide
    constructor
    · intro h
      simp only [readRule, hempty, if_true] at h
      obtain ⟨_, hthrow, -⟩ := exists_of_bind_eq_ok h
      cases hthrow
    · rintro ⟨-, form, rest, hform, -⟩
      rw [hnil, hnone] at hform
      cases hform
  rw [readRule_of_not_isEmpty hempty]
  constructor
  · intro h
    split at h
    · cases h
    · next rest hform =>
        split at h
        · cases h
        · next text htext =>
            obtain ⟨actions, hactions, h⟩ := exists_of_bind_eq_ok h
            obtain ⟨hid, hc, rfl, hsource⟩ := ruleOfHalves_eq_ok_iff.mp h
            exact ⟨hsource, .otherwise, rest, hform, hid, hc, text, htext, hactions⟩
    · next rest hform =>
        split at h
        · cases h
        · next before after hhalves =>
            obtain ⟨conditions, hconditions, h⟩ := exists_of_bind_eq_ok h
            obtain ⟨actions, hactions, h⟩ := exists_of_bind_eq_ok h
            obtain ⟨hid, rfl, rfl, hsource⟩ := ruleOfHalves_eq_ok_iff.mp h
            exact ⟨hsource, .when, rest, hform, hid, before, after, hhalves, hconditions,
              hactions⟩
  · rintro ⟨hsource, form, rest, hform, hid, hsays⟩
    cases form with
    | otherwise =>
        obtain ⟨hc, text, htext, hactions⟩ := hsays
        simp only [hform, htext, hactions]
        exact ruleOfHalves_eq_ok_iff.mpr ⟨hid, hc, rfl, hsource⟩
    | when =>
        obtain ⟨before, after, hhalves, hconditions, hactions⟩ := hsays
        simp only [hform, hhalves, hconditions, hactions]
        exact ruleOfHalves_eq_ok_iff.mpr ⟨hid, rfl, rfl, hsource⟩

end RuleTable
