import Mathlib.Data.Finset.Card
import Mathlib.Data.List.Induction
import RuleTable.Proofs.Check.Valid

/-!
# Warnings about ids

Beside its errors the check reports warnings, and some of them are about ids. **An element repeats
an id** when an earlier element of the document has the same. The warnings about ids are those of
the elements that do, one for each and in the order of the elements, so there are as many of them as
there are elements with an id, less the ids that occur. The main statement joins this to what the
check accepts.
-/

set_option autoImplicit false

namespace RuleTable

open Text Xml Report

/-! ## The warnings of a report -/

/-- The warnings of a report that are about ids. -/
def Report.repetitions (report : Report) : List Text :=
  report.warnings.filter ("duplicate id '".toList.isPrefixOf ·)

namespace Report

theorem repetitions_append (first second : Report) :
    (first ++ second).repetitions = first.repetitions ++ second.repetitions := by
  rw [repetitions, warnings_append, List.filter_append, repetitions, repetitions]

/-- A warning that starts with other words is not about ids. -/
theorem repetitions_unless_warning {condition : Bool} {message : Text}
    (h : "duplicate id '".toList.isPrefixOf message = false) :
    (Report.unless condition (.warning message)).repetitions = [] := by
  cases condition with
  | true => rfl
  | false => exact List.filter_cons_of_neg (by rw [h]; exact Bool.false_ne_true)

theorem repetitions_unless_error {condition : Bool} {message : Text} :
    (Report.unless condition (.error message)).repetitions = [] := by
  cases condition <;> rfl

theorem repetitions_foldl_append (reports : List Report) :
    (reports.foldl (· ++ ·) ({} : Report)).repetitions = reports.flatMap repetitions := by
  rw [foldl_append_eq, repetitions, List.filter_flatMap]
  rfl

end Report

/-- **The structure of a document is no reason for a warning about ids.** -/
theorem repetitions_checkStructure (root : Element) : (checkStructure root).repetitions = [] := by
  have hrow : ∀ table row, (checkRow table row).repetitions = [] := by
    intro table row
    rw [checkRow, checkCells, checkCells, repetitions_append, repetitions_unless_error,
      repetitions_unless_error]
    rfl
  have htable : ∀ table, (checkTable table).repetitions = [] := by
    intro table
    rw [checkTable, repetitions_append, repetitions_unless_warning rfl, List.nil_append,
      repetitions_foldl_append, List.flatMap_eq_nil_iff, List.forall_mem_map]
    exact fun row _ => hrow table row
  rw [checkStructure, repetitions_append, repetitions_append, repetitions_append,
    repetitions_append, repetitions_unless_error, repetitions_unless_error,
    repetitions_unless_error, repetitions_unless_warning rfl, repetitions_foldl_append,
    List.flatMap_eq_nil_iff.mpr (List.forall_mem_map.mpr fun table _ => htable table)]
  rfl

/-- The warning about an id. -/
def repetitionWarning (id : Text) : Text := "duplicate id '".toList ++ id ++ ['\'']

/-- **The warnings about ids** are those of the ids that repeat. -/
theorem repetitions_checkIds (root : Element) :
    (checkIds root).repetitions = (repeatedIds ∅ root.ids).map repetitionWarning := by
  refine List.filter_eq_self.mpr ?_
  refine List.forall_mem_map.mpr fun id _ => List.isPrefixOf_iff_prefix.mpr ⟨id ++ ['\''], ?_⟩
  exact (List.append_assoc _ _ _).symm

/-! ## Elements that repeat an id -/

/-- The elements of a document; none if it cannot be read. -/
def elementsOf (document : Text) : List Element :=
  match readDocument document with
  | .ok root => root.all
  | .error _ => []

/-- The id of an element, if it has one. -/
def Element.id? (element : Element) : Option Text := element.attribute? "id".toList

/-- The ids of the elements, first to last. -/
def idsOf (elements : List Element) : List Text := elements.filterMap Element.id?

/-- The id of the element at a place, if it has one. -/
def idAt? (elements : List Element) (i : Nat) : Option Text := elements[i]?.bind Element.id?

/-- **An element repeats an id**: an earlier element has the same. -/
def RepeatsId (elements : List Element) (i : Nat) : Prop :=
  (idAt? elements i).isSome = true ∧ ∃ j < i, idAt? elements j = idAt? elements i

instance (elements : List Element) (i : Nat) : Decidable (RepeatsId elements i) :=
  inferInstanceAs (Decidable (_ ∧ _))

/-- One more id is a repetition if it was seen before. -/
theorem repeatedIds_append (seen : Std.HashSet Text) (ids : List Text) (id : Text) :
    repeatedIds seen (ids ++ [id])
      = repeatedIds seen ids ++ if seen.contains id = true ∨ id ∈ ids then [id] else [] := by
  induction ids generalizing seen with
  | nil => simp [repeatedIds]
  | cons first ids ih =>
      rw [List.cons_append, repeatedIds, repeatedIds]
      by_cases hseen : seen.contains first = true
      · have hmem : (seen.contains id = true ∨ id ∈ ids)
            ↔ (seen.contains id = true ∨ id ∈ first :: ids) := by
          rw [List.mem_cons]
          constructor
          · exact Or.imp_right Or.inr
          · rintro (h | rfl | h)
            · exact Or.inl h
            · exact Or.inl hseen
            · exact Or.inr h
        rw [if_pos hseen, if_pos hseen, ih, List.cons_append, if_congr hmem rfl rfl]
      · have hmem : ((seen.insert first).contains id = true ∨ id ∈ ids)
            ↔ (seen.contains id = true ∨ id ∈ first :: ids) := by
          rw [Std.HashSet.contains_insert, Bool.or_eq_true, beq_iff_eq, List.mem_cons,
            eq_comm (a := first)]
          tauto
        rw [if_neg hseen, if_neg hseen, ih, if_congr hmem rfl rfl]

theorem idsOf_append (elements : List Element) (element : Element) :
    idsOf (elements ++ [element]) = idsOf elements ++ element.id?.toList := by
  rw [idsOf, List.filterMap_append, idsOf]
  refine congrArg _ ?_
  cases hid : element.id? with
  | none => rw [List.filterMap_cons_none hid]; rfl
  | some id => rw [List.filterMap_cons_some hid]; rfl

/-- An element keeps its place, and its id there, when one more comes behind it. -/
theorem idAt?_append {elements : List Element} {element : Element} {i : Nat}
    (h : i < elements.length) : idAt? (elements ++ [element]) i = idAt? elements i := by
  rw [idAt?, List.getElem?_append_left h, idAt?]

theorem idAt?_length (elements : List Element) (element : Element) :
    idAt? (elements ++ [element]) elements.length = element.id? := by
  rw [idAt?, List.getElem?_concat_length, Option.bind_some]

theorem repeatsId_append_iff {elements : List Element} {element : Element} {i : Nat}
    (h : i < elements.length) : RepeatsId (elements ++ [element]) i ↔ RepeatsId elements i := by
  rw [RepeatsId, RepeatsId, idAt?_append h]
  refine and_congr_right fun _ => exists_congr fun j => and_congr_right fun hj => ?_
  rw [idAt?_append (hj.trans h)]

/-- The last element repeats an id if the id is among those before it. -/
theorem repeatsId_length_iff {elements : List Element} {element : Element} :
    RepeatsId (elements ++ [element]) elements.length
      ↔ ∃ id ∈ idsOf elements, element.id? = some id := by
  have hbefore : ∀ id, (∃ j < elements.length, idAt? (elements ++ [element]) j = some id)
      ↔ id ∈ idsOf elements := by
    intro id
    rw [idsOf, List.mem_filterMap]
    constructor
    · rintro ⟨j, hj, hid⟩
      rw [idAt?_append hj, idAt?, List.getElem?_eq_getElem hj, Option.bind_some] at hid
      exact ⟨elements[j], List.getElem_mem hj, hid⟩
    · rintro ⟨other, hother, hid⟩
      obtain ⟨j, hj, rfl⟩ := List.getElem_of_mem hother
      refine ⟨j, hj, ?_⟩
      rw [idAt?_append hj, idAt?, List.getElem?_eq_getElem hj, Option.bind_some, hid]
  rw [RepeatsId, idAt?_length, Option.isSome_iff_exists]
  constructor
  · rintro ⟨⟨id, hid⟩, hj⟩
    rw [hid] at hj
    exact ⟨id, (hbefore id).mp hj, hid⟩
  · rintro ⟨id, hmem, hid⟩
    rw [hid]
    exact ⟨⟨id, rfl⟩, (hbefore id).mpr hmem⟩

/-- The places at which an id is repeated, first to last. -/
def repeatingPlaces (elements : List Element) : List Nat :=
  (List.range elements.length).filter (RepeatsId elements ·)

theorem repeatingPlaces_append (elements : List Element) (element : Element) :
    repeatingPlaces (elements ++ [element])
      = repeatingPlaces elements ++
        if RepeatsId (elements ++ [element]) elements.length then [elements.length] else [] := by
  have hbefore : (List.range elements.length).filter (RepeatsId (elements ++ [element]) ·)
      = repeatingPlaces elements := by
    refine List.filter_congr fun i hi => ?_
    rw [decide_eq_decide]
    exact repeatsId_append_iff (List.mem_range.mp hi)
  rw [repeatingPlaces, List.length_append, List.length_singleton, List.range_succ,
    List.filter_append, hbefore]
  by_cases h : RepeatsId (elements ++ [element]) elements.length
  · rw [if_pos h, List.filter_cons_of_pos (by simpa using h), List.filter_nil]
  · rw [if_neg h, List.filter_cons_of_neg (by simpa using h), List.filter_nil]

theorem lt_length_of_mem_repeatingPlaces {elements : List Element} {i : Nat}
    (h : i ∈ repeatingPlaces elements) : i < elements.length :=
  List.mem_range.mp (List.mem_filter.mp h).1

/-- **The places of the repetitions** are exactly those of the elements that repeat an id. -/
theorem mem_repeatingPlaces_iff {elements : List Element} {i : Nat} :
    i ∈ repeatingPlaces elements ↔ RepeatsId elements i := by
  rw [repeatingPlaces, List.mem_filter, List.mem_range, decide_eq_true_iff, and_iff_right_iff_imp]
  intro h
  by_contra hge
  have hsome := h.1
  rw [idAt?, List.getElem?_eq_none (Nat.le_of_not_lt hge)] at hsome
  cases hsome

theorem pairwise_repeatingPlaces (elements : List Element) :
    (repeatingPlaces elements).Pairwise (· < ·) :=
  List.pairwise_lt_range.filter _

/-- **The repeated ids** are those at the places of the repetitions, in the same order. -/
theorem map_repeatingPlaces (elements : List Element) :
    (repeatingPlaces elements).map (idAt? elements)
      = (repeatedIds ∅ (idsOf elements)).map some := by
  induction elements using List.reverseRecOn with
  | nil => rfl
  | append_singleton elements element ih =>
      have hbefore : (repeatingPlaces elements).map (idAt? (elements ++ [element]))
          = (repeatedIds ∅ (idsOf elements)).map some := by
        rw [← ih]
        exact List.map_congr_left fun i hi => idAt?_append (lt_length_of_mem_repeatingPlaces hi)
      rw [repeatingPlaces_append, List.map_append, hbefore]
      cases hid : element.id? with
      | none =>
          have hnot : ¬ RepeatsId (elements ++ [element]) elements.length := by
            rw [repeatsId_length_iff, hid]
            rintro ⟨id, -, hsome⟩
            cases hsome
          rw [idsOf_append, hid, if_neg hnot, Option.toList_none, List.append_nil, List.map_nil,
            List.append_nil]
      | some id =>
          have hiff : RepeatsId (elements ++ [element]) elements.length ↔ id ∈ idsOf elements := by
            rw [repeatsId_length_iff, hid]
            constructor
            · rintro ⟨other, hmem, hsome⟩
              cases hsome
              exact hmem
            · exact fun hmem => ⟨id, hmem, rfl⟩
          rw [idsOf_append, hid, Option.toList_some, repeatedIds_append, List.map_append]
          refine congrArg _ ?_
          by_cases hmem : id ∈ idsOf elements
          · rw [if_pos (hiff.mpr hmem), if_pos (Or.inr hmem), List.map_singleton, idAt?_length, hid]
            rfl
          · rw [if_neg (mt hiff.mp hmem), if_neg (by simpa using hmem)]
            rfl

/-- **As many ids are repeated** as there are ids, less the different ones among them. -/
theorem length_repeatedIds (ids : List Text) :
    (repeatedIds ∅ ids).length + ids.toFinset.card = ids.length := by
  induction ids using List.reverseRecOn with
  | nil => rfl
  | append_singleton ids id ih =>
      rw [repeatedIds_append, List.length_append, List.length_append, List.length_singleton,
        List.toFinset_append, List.toFinset_cons, List.toFinset_nil]
      by_cases hmem : id ∈ ids
      · rw [if_pos (Or.inr hmem), List.length_singleton,
          Finset.union_eq_left.mpr (by simpa using hmem)]
        omega
      · rw [if_neg (by simpa using hmem), List.length_nil,
          Finset.card_union_of_disjoint (by simpa using hmem), insert_empty_eq,
          Finset.card_singleton]
        omega

/-! ## Warnings of repetitions -/

/-- **The warnings of repetitions**: there is one for each element that repeats an id, in the order
of the elements, and so as many as there are elements with an id, less the ids that occur. -/
structure WarnsOfRepetitions (elements : List Element) (warnings : List Text) : Prop where
  each : ∃ places : List Nat, places.Pairwise (· < ·) ∧ (∀ i, i ∈ places ↔ RepeatsId elements i) ∧
    List.Forall₂ (fun i warning => ∃ id, idAt? elements i = some id ∧ warning = repetitionWarning id)
      places warnings
  count : warnings.length + (idsOf elements).toFinset.card
    = elements.countP fun element => element.id?.isSome

theorem warnsOfRepetitions_repeatedIds (elements : List Element) :
    WarnsOfRepetitions elements ((repeatedIds ∅ (idsOf elements)).map repetitionWarning) := by
  constructor
  · refine ⟨repeatingPlaces elements, pairwise_repeatingPlaces elements,
      fun i => mem_repeatingPlaces_iff, ?_⟩
    have hids : List.Forall₂ (fun i id => idAt? elements i = some id) (repeatingPlaces elements)
        (repeatedIds ∅ (idsOf elements)) := by
      have hsome : List.Forall₂ (· = ·) ((repeatingPlaces elements).map (idAt? elements))
          ((repeatedIds ∅ (idsOf elements)).map some) := by
        rw [map_repeatingPlaces, List.forall₂_eq_eq_eq]
      rwa [List.forall₂_map_left_iff, List.forall₂_map_right_iff] at hsome
    rw [List.forall₂_map_right_iff]
    exact hids.imp fun i id hid => ⟨id, hid, rfl⟩
  · rw [List.length_map, length_repeatedIds, idsOf, List.length_filterMap_eq_countP]

/-- The warnings of a document about ids. -/
theorem repetitions_checkDocument (document : Text) :
    (checkDocument document).repetitions
      = (repeatedIds ∅ (idsOf (elementsOf document))).map repetitionWarning := by
  cases hread : readDocument document with
  | ok root =>
      rw [checkDocument_of_readDocument hread, repetitions_append, repetitions_unless_warning rfl,
        List.nil_append, repetitions_append, repetitions_checkStructure, List.nil_append,
        repetitions_checkIds, elementsOf, hread]
      rfl
  | error fault =>
      rw [elementsOf, hread, checkDocument, hread]
      split
      · rfl
      · rw [repetitions_append, repetitions_unless_warning rfl]
        rfl

/-- **The check of a document**: it is valid exactly if it can be read as the tree of a decision,
and the warnings about ids are those of the elements that repeat one. -/
theorem isValid_iff_and_warnsOfRepetitions (document : Text) :
    ((checkDocument document).isValid = true
        ↔ ∃ root, readDocument document = .ok root ∧ root.IsDecisionTree) ∧
      WarnsOfRepetitions (elementsOf document) (checkDocument document).repetitions := by
  refine ⟨isValid_checkDocument_iff, ?_⟩
  rw [repetitions_checkDocument]
  exact warnsOfRepetitions_repeatedIds (elementsOf document)

end RuleTable
