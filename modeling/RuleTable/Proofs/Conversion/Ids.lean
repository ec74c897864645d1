import RuleTable.Proofs.Check.Ids
import RuleTable.Proofs.Conversion.Complete

/-!
# The ids in converted documents

A conversion draws a suffix for the id of each rule and never looks at the ids of its documents
again. **If the suffixes are different, so are the ids in each document**, with one exception: the
id of the decision is given, and it may be the id of a column, a row or a cell. The check of the
document then warns of it once, and otherwise it finds nothing at all.
-/

set_option autoImplicit false

namespace RuleTable

open Text Xml

namespace Conversion

variable {suffix : Nat → Text} {decision : Decision} {settings : ConversionSettings} {text : Text}

/-- The documents of a conversion are those of tables of its rules. -/
theorem exists_table_of_mem_documents {conversion : Conversion} {document : Text}
    (h : (ofText suffix decision settings text).2 = .ok conversion)
    (hd : document ∈ conversion.documents) :
    ∃ table : DecisionTable, table.decision = decision ∧ document = table.document ∧
      table.rules.Sublist (RuleText.read suffix text).rules := by
  obtain ⟨limit, check⟩ := settings
  by_cases hr : (RuleText.read suffix text).rules = []
  · rw [ofText_of_no_rules suffix decision limit check text hr] at h
    cases h
  rw [ofText_of_rules suffix decision limit check text hr] at h
  cases h
  obtain ⟨table, htable, rfl⟩ := List.mem_map.mp hd
  obtain ⟨part, hpart, rfl⟩ := List.mem_map.mp htable
  refine ⟨⟨decision, part⟩, rfl, rfl, ?_⟩
  rw [← flatten_chunks limit (RuleText.read suffix text).rules]
  exact List.sublist_flatten_of_mem hpart

/-- **The ids in each document of a conversion are distinct** but for the decision's id, if the
suffixes of its rules are drawn and different. The check of the document warns of the decision's id
when a column, a row or a cell has it, and finds nothing when none has. -/
theorem distinctIds_of_ofText {conversion : Conversion} {document : Text}
    (hdrawn : ∀ n < (RuleText.read suffix text).rules.length, IsDrawn (suffix n))
    (hne : ∀ m n, m < n → n < (RuleText.read suffix text).rules.length → suffix m ≠ suffix n)
    (h : (ofText suffix decision settings text).2 = .ok conversion)
    (hd : document ∈ conversion.documents) :
    ∃ root, readDocument document = .ok root ∧ root.DistinctIds decision.id ∧
      (root.HasGeneratedId decision.id → checkDocument document
        = { warnings := ["duplicate id '".toList ++ decision.id ++ ['\'']] }) ∧
      (¬ root.HasGeneratedId decision.id → checkDocument document = {}) := by
  obtain ⟨table, rfl, rfl, hpart⟩ := exists_table_of_mem_documents h hd
  have hapart : DrawnApart table.rules := (RuleText.drawnApart hdrawn hne).sublist hpart
  have hcheck := DecisionTable.checkDocument_eq_of_drawnApart hapart
  refine ⟨table.root, table.readDocument_document, DecisionTable.distinctIds_root hapart, ?_, ?_⟩
  · intro hid
    rw [hcheck, if_pos (DecisionTable.hasGeneratedId_root_iff.mp hid)]
  · intro hid
    rw [hcheck, if_neg fun hm => hid (DecisionTable.hasGeneratedId_root_iff.mpr hm)]

/-! ## A decision with the id of a row -/

/-- The suffixes `#0`, `#1` and so on. -/
def countedSuffix (n : Nat) : Text := '#' :: ofNat n

/-- A rule that applies everywhere and sets one column. -/
def defaultRule (n : Nat) (value source : Text) : Rule :=
  ⟨"rule_otherwise_".toList ++ countedSuffix n, [.always], [.set "a".toList value], source,
    by decide, List.cons_ne_nil _ _⟩

/-- A decision with the id that the second rule of a text will get. -/
def clashingDecision : Decision := { id := "rule_otherwise_#1".toList }

/-- A text of two rules that apply everywhere. -/
def twoDefaults : Text := "Otherwise, a is 1.\nOtherwise, a is 2.".toList

/-- The rules of the text. -/
theorem rules_twoDefaults : (RuleText.read countedSuffix twoDefaults).rules
    = [defaultRule 0 "1".toList "Otherwise, a is 1.".toList,
      defaultRule 1 "2".toList "Otherwise, a is 2.".toList] := by
  have hlines : (lines twoDefaults).zipIdx 1
      = [("Otherwise, a is 1.".toList, 1), ("Otherwise, a is 2.".toList, 2)] := by decide
  have hactions : readActions "a is 1.".toList = .ok [.set "a".toList "1".toList] := by decide +kernel
  have hactions' : readActions "a is 2.".toList = .ok [.set "a".toList "2".toList] := by decide +kernel
  have hfirst : readRule (countedSuffix 0) "Otherwise, a is 1.".toList
      = .ok (defaultRule 0 "1".toList "Otherwise, a is 1.".toList) :=
    readRule_eq_ok_iff.mpr ⟨rfl, .otherwise, ", a is 1.".toList, by decide, rfl, rfl,
      "a is 1.".toList, by decide, hactions⟩
  have hsecond : readRule (countedSuffix 1) "Otherwise, a is 2.".toList
      = .ok (defaultRule 1 "2".toList "Otherwise, a is 2.".toList) :=
    readRule_eq_ok_iff.mpr ⟨rfl, .otherwise, ", a is 2.".toList, by decide, rfl, rfl,
      "a is 2.".toList, by decide, hactions'⟩
  have htrim : trim "Otherwise, a is 1.".toList = "Otherwise, a is 1.".toList ∧
      trim "Otherwise, a is 2.".toList = "Otherwise, a is 2.".toList := by decide
  have hread : RuleText.isIgnored "Otherwise, a is 1.".toList = false ∧
      RuleText.isIgnored "Otherwise, a is 2.".toList = false := by decide
  simp only [RuleText.read, hlines, RuleText.readFrom, htrim, hread, hfirst, hsecond,
    Bool.false_eq_true, if_false]

/-- **The decision has the id of a row**: the check warns of it, once. -/
theorem checkDocument_of_clashingDecision :
    ∃ conversion document, (ofText countedSuffix clashingDecision {} twoDefaults).2 = .ok conversion ∧
      document ∈ conversion.documents ∧
      checkDocument document = { warnings := ["duplicate id 'rule_otherwise_#1'".toList] } := by
  have hrules := rules_twoDefaults
  have hlength : (RuleText.read countedSuffix twoDefaults).rules.length = 2 := by rw [hrules]; rfl
  have hdrawn : ∀ n < (RuleText.read countedSuffix twoDefaults).rules.length,
      IsDrawn (countedSuffix n) := by
    intro n hn
    obtain rfl | rfl : n = 0 ∨ n = 1 := by omega
    · exact Or.inr ⟨['0'], by decide, by decide⟩
    · exact Or.inr ⟨['1'], by decide, by decide⟩
  have hne : ∀ m n, m < n → n < (RuleText.read countedSuffix twoDefaults).rules.length →
      countedSuffix m ≠ countedSuffix n := by
    intro m n hm hn
    obtain ⟨rfl, rfl⟩ : m = 0 ∧ n = 1 := by omega
    decide
  have htext := ofText_of_rules countedSuffix clashingDecision 1000 true twoDefaults
    (by rw [hrules]; exact List.cons_ne_nil _ _)
  have hfits : chunks 1000 (RuleText.read countedSuffix twoDefaults).rules
      = [(RuleText.read countedSuffix twoDefaults).rules] := chunks_of_fits (by omega)
  have hd : DecisionTable.document ⟨clashingDecision, (RuleText.read countedSuffix twoDefaults).rules⟩
      ∈ (tables clashingDecision 1000 (RuleText.read countedSuffix twoDefaults).rules).map
        (·.document) := by
    rw [tables, hfits]
    exact List.mem_singleton_self _
  refine ⟨_, _, htext, hd, ?_⟩
  obtain ⟨root, hroot, -, hclash, -⟩ := distinctIds_of_ofText hdrawn hne htext hd
  rw [DecisionTable.readDocument_document] at hroot
  cases hroot
  refine hclash (DecisionTable.hasGeneratedId_root_iff.mpr ?_)
  -- It is the id of the second row.
  rw [hrules]
  exact List.mem_append_right _ (List.mem_flatMap.mpr
    ⟨_, List.mem_cons_of_mem _ List.mem_cons_self, List.mem_cons_self⟩)

end Conversion

end RuleTable
