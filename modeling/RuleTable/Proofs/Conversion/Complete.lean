import Mathlib.Data.List.Forall2
import RuleTable.Conversion.Basic
import RuleTable.Proofs.Check.Written
import RuleTable.Proofs.Reading.Values
import RuleTable.Proofs.Table.Division
import RuleTable.Proofs.Table.Rows

/-!
# Conversions are complete

A conversion reads rules, divides them, writes the parts as documents and checks these. It fails
only if there is no rule: **the check of a written document never stops a conversion**, so that it
makes no difference whether it is asked for. And it loses nothing: whoever reads the documents
again, one after the other, finds each rule once, in the order of the text, with all its cells as
they were written.
-/

set_option autoImplicit false

namespace RuleTable

open Text Xml

/-! ## Writing tables never fails -/

namespace Conversion

/-- **A table is written**, whether or not its document is checked. -/
theorem writeTable_eq (check : Bool) (table : DecisionTable) :
    writeTable check table = .ok table.document := by
  have hvalid : (checkDocument table.document).isValid = true := by
    rw [table.checkDocument_eq]
    rfl
  simp only [writeTable, hvalid, if_true, ite_self]

/-- **All tables are written.** -/
theorem writeTables_eq (check : Bool) (tables : List DecisionTable) :
    (writeTables check tables).2 = .ok (tables.map (·.document)) := by
  induction tables with
  | nil => rfl
  | cons table tables ih =>
      rw [writeTables, writeTable_eq]
      show (writeTables check tables).2.map _ = _
      rw [ih]
      rfl

/-- The tables of a conversion: the parts of its rules. -/
def tables (decision : Decision) (limit : Nat) (rules : List Rule) : List DecisionTable :=
  (chunks limit rules).map (DecisionTable.mk decision)

variable (suffix : Nat → Text) (decision : Decision) (limit : Nat) (check : Bool) (text : Text)

/-- A text without rules is not converted. -/
theorem ofText_of_no_rules (h : (RuleText.read suffix text).rules = []) :
    (ofText suffix decision ⟨limit, check⟩ text).2
      = .error (.noRules (RuleText.read suffix text).skipped.length) := by
  have hempty : (RuleText.read suffix text).rules.isEmpty = true := List.isEmpty_iff.mpr h
  simp only [ofText, hempty, if_true]

/-- **A text with a rule is converted**, and the documents are those of its tables. -/
theorem ofText_of_rules (h : (RuleText.read suffix text).rules ≠ []) :
    (ofText suffix decision ⟨limit, check⟩ text).2
      = .ok ⟨(tables decision limit (RuleText.read suffix text).rules).map (·.document),
          (RuleText.read suffix text).rules.length, (RuleText.read suffix text).skipped⟩ := by
  have hempty : ¬ (RuleText.read suffix text).rules.isEmpty = true := by
    rw [List.isEmpty_iff]
    exact h
  simp only [ofText, hempty]
  show (writeTables check (tables decision limit (RuleText.read suffix text).rules)).2.map _ = _
  rw [writeTables_eq]
  rfl

end Conversion

/-! ## Documents that hold rules -/

/-- **Documents hold rules** in tables of at most `limit` rows, where zero is no limit: there are
no more of them than needed, all but the last are full, and read again one after the other they
give rows that carry the rules, each exactly once and in order. -/
structure Holds (limit : Nat) (documents : List Text) (rules : List Rule) : Prop where
  length : documents.length
    = if limit = 0 ∨ rules.length ≤ limit then 1 else (rules.length + limit - 1) / limit
  rows : ∃ roots, List.Forall₂ (fun document root => readDocument document = .ok root)
      documents roots ∧
    (∀ root ∈ roots.dropLast, (Row.all root).length = limit) ∧
    (0 < limit → ∀ root ∈ roots.getLast?,
      1 ≤ (Row.all root).length ∧ (Row.all root).length ≤ limit) ∧
    List.Forall₂ (fun (read : Element × Row) rule => read.2.Carries read.1 rule)
      (roots.flatMap fun root => (Row.all root).map fun row => (root, row)) rules

/-- Lists that are made part by part agree if their parts do. -/
theorem forall₂_flatMap {α β γ : Type} {agrees : β → γ → Prop} {parts : List α}
    {make : α → List β} {make' : α → List γ}
    (h : ∀ part ∈ parts, List.Forall₂ agrees (make part) (make' part)) :
    List.Forall₂ agrees (parts.flatMap make) (parts.flatMap make') := by
  induction parts with
  | nil => exact .nil
  | cons part parts ih =>
      rw [List.flatMap_cons, List.flatMap_cons]
      exact List.rel_append (h part (by simp)) (ih fun other ho => h other (by simp [ho]))

/-- The rows of the tables of a conversion carry its rules. -/
theorem forall₂_carries (decision : Decision) (limit : Nat) {rules : List Rule}
    (ht : ∀ rule ∈ rules, rule.IsTrimmed) :
    List.Forall₂ (fun (read : Element × Row) rule => read.2.Carries read.1 rule)
      (((Conversion.tables decision limit rules).map (·.root)).flatMap fun root =>
        (Row.all root).map fun row => (root, row)) rules := by
  -- The rows come table by table, so the rules are put in the same order.
  have hrules : rules = (Conversion.tables decision limit rules).flatMap (·.rules) := by
    calc rules = (chunks limit rules).flatten := (flatten_chunks limit rules).symm
      _ = (Conversion.tables decision limit rules).flatMap (·.rules) := by
          rw [Conversion.tables, List.flatMap_map]
          exact List.flatMap_id.symm
  conv_rhs => rw [hrules]
  rw [List.flatMap_map]
  refine forall₂_flatMap fun table htable => ?_
  rw [table.rows_root, List.map_map, List.forall₂_map_left_iff]
  refine List.forall₂_same.mpr fun rule hr => ?_
  have hmem : rule ∈ rules := by
    rw [hrules]
    exact List.mem_flatMap.mpr ⟨table, htable, hr⟩
  exact table.carries_rowElement hr (ht rule hmem)

/-- **The documents of the tables of trimmed rules hold the rules.** -/
theorem holds_tables (decision : Decision) (limit : Nat) {rules : List Rule} (hne : rules ≠ [])
    (ht : ∀ rule ∈ rules, rule.IsTrimmed) :
    Holds limit ((Conversion.tables decision limit rules).map (·.document)) rules := by
  have hrows : ∀ part : List Rule,
      (Row.all (DecisionTable.root ⟨decision, part⟩)).length = part.length := by
    intro part
    rw [DecisionTable.rows_root, List.length_map]
  refine ⟨?_, (Conversion.tables decision limit rules).map (·.root), ?_, ?_, ?_, ?_⟩
  · rw [Conversion.tables, List.length_map, List.length_map, length_chunks]
  · rw [List.forall₂_map_left_iff, List.forall₂_map_right_iff]
    exact List.forall₂_same.mpr fun table _ => table.readDocument_document
  · intro root hr
    rw [Conversion.tables, List.map_map, ← List.map_dropLast] at hr
    obtain ⟨part, hpart, rfl⟩ := List.mem_map.mp hr
    exact (hrows part).trans (length_of_mem_dropLast_chunks hpart)
  · intro hlimit root hr
    rw [Conversion.tables, List.map_map, List.getLast?_map] at hr
    obtain ⟨part, hpart, rfl⟩ := Option.map_eq_some_iff.mp hr
    have hlast := length_of_mem_getLast?_chunks hlimit hne hpart
    exact (hrows part).symm ▸ hlast
  · exact forall₂_carries decision limit ht

/-- **A conversion is complete.** Without a rule in the text it fails and says how many lines were
set aside. Otherwise it succeeds, with the same documents whether or not they are checked, and the
documents hold the rules of the text. -/
theorem Conversion.ofText_complete (suffix : Nat → Text) (decision : Decision) (limit : Nat)
    (text : Text) :
    ((RuleText.read suffix text).rules = [] ∧
      ∀ check, (ofText suffix decision ⟨limit, check⟩ text).2
        = .error (.noRules (RuleText.read suffix text).skipped.length)) ∨
    ((RuleText.read suffix text).rules ≠ [] ∧
      ∃ conversion, (∀ check, (ofText suffix decision ⟨limit, check⟩ text).2 = .ok conversion) ∧
        Holds limit conversion.documents (RuleText.read suffix text).rules) := by
  by_cases h : (RuleText.read suffix text).rules = []
  · exact Or.inl ⟨h, fun check => ofText_of_no_rules suffix decision limit check text h⟩
  · refine Or.inr ⟨h, _, fun check => ofText_of_rules suffix decision limit check text h, ?_⟩
    exact holds_tables decision limit h fun rule hr => RuleText.isTrimmed_of_mem_rules hr

end RuleTable
