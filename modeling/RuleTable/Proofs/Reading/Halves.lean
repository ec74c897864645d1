import RuleTable.Proofs.Reading.Rules
import RuleTable.Proofs.Text.Join

/-!
# The halves of a line

A line of the form `If conditions, actions` falls at the first comma outside parentheses. The scan
for it keeps a depth, so a piece of text is **closed** if the scan passes over it and comes out at
the depth it went in with. What is put together from closed pieces has its separator behind them.
-/

set_option autoImplicit false

namespace RuleTable

open Text

/-! ## The separator -/

/-- The scan passes over a text without parentheses, and over its commas inside some. -/
theorem cutAtComma?_append {depth : Int} {text : Text} (rest : Text)
    (h : ∀ c ∈ text, c ≠ '(' ∧ c ≠ ')' ∧ (depth = 0 → c ≠ ',')) :
    cutAtComma? depth (text ++ rest)
      = (cutAtComma? depth rest).map fun (before, after) => (text ++ before, after) := by
  induction text with
  | nil => simp
  | cons c text ih =>
      obtain ⟨hopen, hclose, hcomma⟩ := h c List.mem_cons_self
      have hdepth : depthAfter depth c = depth := by rw [depthAfter, if_neg hopen, if_neg hclose]
      have hsep : ¬ (c = ',' ∧ depth = 0) := fun ⟨hc, hd⟩ => hcomma hd hc
      rw [List.cons_append, cutAtComma?, if_neg hsep, hdepth,
        ih fun d hd => h d (List.mem_cons_of_mem c hd), Option.map_map]
      rfl

/-- **A closed text**: the scan for the separator passes over it, whatever follows. -/
def IsClosed (text : Text) : Prop :=
  ∀ rest, cutAtComma? 0 (text ++ rest)
    = (cutAtComma? 0 rest).map fun (before, after) => (text ++ before, after)

/-- A text with neither commas nor parentheses is closed. -/
theorem isClosed_of_forall {text : Text} (h : ∀ c ∈ text, c ≠ ',' ∧ c ≠ '(' ∧ c ≠ ')') :
    IsClosed text := fun rest =>
  cutAtComma?_append rest fun c hc => ⟨(h c hc).2.1, (h c hc).2.2, fun _ => (h c hc).1⟩

/-- A closed text may follow another. -/
theorem IsClosed.append {a b : Text} (ha : IsClosed a) (hb : IsClosed b) : IsClosed (a ++ b) := by
  intro rest
  rw [List.append_assoc, ha, hb, Option.map_map]
  simp only [Function.comp_def, List.append_assoc]

/-- **Parentheses close**: commas inside them are not the separator. -/
theorem isClosed_parens {items : Text} (h : ∀ c ∈ items, c ≠ '(' ∧ c ≠ ')') :
    IsClosed ('(' :: items ++ [')']) := by
  intro rest
  have hinner : cutAtComma? 1 (items ++ ')' :: rest)
      = (cutAtComma? 1 (')' :: rest)).map fun (before, after) => (items ++ before, after) :=
    cutAtComma?_append _ fun c hc => ⟨(h c hc).1, (h c hc).2, fun hd => absurd hd (by decide)⟩
  have hopen : cutAtComma? 0 ('(' :: (items ++ ')' :: rest))
      = (cutAtComma? 1 (items ++ ')' :: rest)).map fun (before, after) => ('(' :: before, after) :=
    rfl
  have hclose : cutAtComma? 1 (')' :: rest)
      = (cutAtComma? 0 rest).map fun (before, after) => (')' :: before, after) := rfl
  rw [List.append_assoc, List.cons_append, List.singleton_append, hopen, hinner, hclose,
    Option.map_map, Option.map_map]
  simp [Function.comp_def]

/-- **The comma behind a closed text is the separator.** -/
theorem IsClosed.halves?_append {text rest : Text} (h : IsClosed text) :
    halves? (text ++ ',' :: rest) = some (text, rest) := by
  rw [halves?, h]
  simp [cutAtComma?]

/-- Closed clauses may be joined. -/
theorem isClosed_join {separator : Text} {clauses : List Text} (hs : IsClosed separator)
    (h : ∀ clause ∈ clauses, IsClosed clause) : IsClosed (join separator clauses) := by
  induction clauses with
  | nil => exact isClosed_of_forall (by simp [join])
  | cons clause clauses ih =>
      have hclause := h clause List.mem_cons_self
      have hrest := ih fun c hc => h c (List.mem_cons_of_mem clause hc)
      by_cases hnil : clauses = []
      · simpa [join, hnil] using hclause
      · rw [join_cons separator clause hnil]
        exact (hclause.append hs).append hrest

/-! ## Lines -/

theorem readForm?_if (rest : Text) :
    readForm? ("If ".toList ++ rest) = some (.when, ' ' :: rest) := by
  rfl

/-- **A line is a rule** if its two halves, trimmed and put together with a separator, are the
conditions and the actions of that rule. -/
theorem readRule_halves_iff {suffix conditions actions : Text} {rule : Rule}
    (hclosed : IsClosed conditions) (hconditions : trim conditions = conditions)
    (hactions : trim actions = actions) (hne : actions ≠ []) :
    readRule suffix ("If ".toList ++ (conditions ++ ", ".toList ++ actions)) = .ok rule
      ↔ rule.source = "If ".toList ++ (conditions ++ ", ".toList ++ actions) ∧
        rule.id = RuleForm.when.idStem ++ suffix ∧
        readConditions conditions = .ok rule.conditions ∧ readActions actions = .ok rule.actions := by
  have hspace (text : Text) : trim (' ' :: text) = trim text := rfl
  have hend : EndsInk actions := by
    rw [← hactions] at hne ⊢
    exact endsInk_trim hne
  have hline : trim ("If ".toList ++ (conditions ++ ", ".toList ++ actions))
      = "If ".toList ++ (conditions ++ ", ".toList ++ actions) :=
    trim_eq_self ⟨'I', _, rfl, by decide⟩ ((hend.append _).append _)
  have hhalves : halves? (' ' :: (conditions ++ ", ".toList ++ actions))
      = some (' ' :: conditions, ' ' :: actions) := by
    have hspace : IsClosed [' '] := isClosed_of_forall (by decide)
    have hspaced : IsClosed (' ' :: conditions) := hspace.append hclosed
    rw [List.append_assoc]
    exact hspaced.halves?_append
  rw [readRule_eq_ok_iff, hline]
  constructor
  · rintro ⟨hsource, form, rest, hform, hid, hsays⟩
    obtain ⟨rfl, rfl⟩ := Prod.mk.inj (Option.some.inj ((readForm?_if _).symm.trans hform))
    obtain ⟨before, after, hcut, hc, ha⟩ := hsays
    obtain ⟨rfl, rfl⟩ := Prod.mk.inj (Option.some.inj (hhalves.symm.trans hcut))
    rw [hspace, hconditions] at hc
    rw [hspace, hactions] at ha
    exact ⟨hsource, hid, hc, ha⟩
  · rintro ⟨hsource, hid, hc, ha⟩
    refine ⟨hsource, .when, _, readForm?_if _, hid, ' ' :: conditions, ' ' :: actions, hhalves, ?_, ?_⟩
    · rw [hspace, hconditions, hc]
    · rw [hspace, hactions, ha]

end RuleTable
