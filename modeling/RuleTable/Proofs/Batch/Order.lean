import Mathlib.Data.List.Lex
import RuleTable.Batch.Basic

/-!
# The order of paths and of reports

Paths are ordered by their keys, so the order is total, and paths that come before each other have
one key. A report has its results in this order, whatever order they came in.
-/

set_option autoImplicit false

namespace RuleTable

namespace Path

/-- A key precedes another in the lexicographic order of the moves. -/
theorem precedes_iff (first second : List (List Nat)) :
    precedes first second = true ↔ first < second := by
  have hmove : (fun move other : List Nat =>
      (List.lex move other fun code code' => decide (code < code')) = true) = (· < ·) := by
    funext move other
    exact propext List.lex_eq_true_iff_lt
  rw [precedes, List.lex_eq_true_iff_lex, hmove]
  exact (List.lt_iff_lex_lt first second).symm

/-- **Paths are ordered by their keys.** -/
theorem le_iff (first second : Text) : le first second = true ↔ key first ≤ key second := by
  rw [le, Bool.not_eq_true', ← Bool.not_eq_true, precedes_iff, not_lt]

theorem le_transitive (first second third : Text) (h : le first second = true)
    (h' : le second third = true) : le first third = true := by
  rw [le_iff] at *
  exact h.trans h'

theorem le_or_le (first second : Text) : (le first second || le second first) = true := by
  rw [Bool.or_eq_true, le_iff, le_iff]
  exact le_total (key first) (key second)

/-- Whether paths stand in order. -/
def Sorted (paths : List Text) : Prop := paths.Pairwise fun first second => le first second = true

theorem sorted_sort (paths : List Text) : Sorted (sort paths) :=
  List.pairwise_mergeSort le_transitive le_or_le paths

/-- **Paths in order are the sorted ones**, up to paths with one key. -/
theorem map_key_of_sorted {paths others : List Text} (hsorted : Sorted paths)
    (hperm : paths.Perm others) : paths.map key = (sort others).map key := by
  have hkeys : ∀ {list : List Text}, Sorted list → (list.map key).Pairwise (· ≤ ·) :=
    fun h => List.pairwise_map.mpr (h.imp fun hle => (le_iff _ _).mp hle)
  refine List.Perm.eq_of_pairwise (fun _ _ _ _ => le_antisymm) (hkeys hsorted)
    (hkeys (sorted_sort others)) ?_
  exact (hperm.trans (List.mergeSort_perm others le).symm).map key

/-! ## Paths that compare equal -/

/-- A component is told by what it is compared by. -/
theorem stepKey_injective : Function.Injective stepKey := by
  intro step other hkey
  cases step <;> cases other
  case down.down name name' =>
    have hcodes : name.map Char.toNat = name'.map Char.toNat := (List.cons.inj hkey).2
    have hinjective : Function.Injective Char.toNat := fun _ _ => Char.toNat_inj.mp
    rw [List.map_injective_iff.mpr hinjective hcodes]
  all_goals simp_all [stepKey]

/-- **Paths compare equal if they have the same components.** -/
theorem key_eq_iff {first second : Text} :
    key first = key second ↔ components first = components second :=
  (List.map_injective_iff.mpr stepKey_injective).eq_iff

/-- The moves among the components of a path are all of its moves. -/
theorem filter_components (path : Text) : (components path).filter Step.isMove = moves path := by
  have hstart : (start path).filter Step.isMove = [] := by
    rw [start]
    split_ifs <;> rfl
  rw [components, List.filter_append, hstart, List.nil_append, moves, List.filter_filter]
  simp only [Bool.and_self]

theorem moves_eq_of_key_eq {first second : Text} (h : key first = key second) :
    moves first = moves second := by
  rw [← filter_components, ← filter_components, key_eq_iff.mp h]

/-- **Paths in strict order.** -/
def StrictlySorted (paths : List Text) : Prop :=
  paths.Pairwise fun first second => precedes (key first) (key second) = true

/-- **Sorted paths with different moves are in strict order.** -/
theorem strictlySorted_sort {paths : List Text} (h : (paths.map moves).Nodup) :
    StrictlySorted (sort paths) := by
  have hdifferent : (sort paths).Pairwise fun first second => moves first ≠ moves second :=
    List.pairwise_map.mp (((List.mergeSort_perm paths le).map moves).nodup_iff.mpr h)
  refine List.Pairwise.imp₂ (fun first second hle hne => ?_) (sorted_sort paths) hdifferent
  rw [precedes_iff]
  exact lt_of_le_of_ne ((le_iff first second).mp hle) fun hkey => hne (moves_eq_of_key_eq hkey)

/-- **Paths in strict order are determined** by which they are. -/
theorem StrictlySorted.eq_of_mem_iff {paths others : List Text} (h : StrictlySorted paths)
    (h' : StrictlySorted others) (hmem : ∀ path, path ∈ paths ↔ path ∈ others) :
    paths = others := by
  have hirreflexive : ∀ path, precedes (key path) (key path) ≠ true := by
    intro path hself
    exact lt_irrefl _ ((precedes_iff _ _).mp hself)
  have hnodup : ∀ {paths : List Text}, StrictlySorted paths → paths.Nodup := by
    intro paths h
    refine List.Pairwise.imp (fun {first second} hless hsame => ?_) h
    exact hirreflexive second (hsame ▸ hless)
  refine List.Perm.eq_of_pairwise (fun first second _ _ hless hgreater => ?_) h h'
    ((List.perm_ext_iff_of_nodup (hnodup h) (hnodup h')).mpr hmem)
  rw [precedes_iff] at hless hgreater
  exact absurd hgreater (lt_asymm hless)

/-- **Paths in strict order are what their permutations sort to**, if their moves are different. -/
theorem StrictlySorted.sort_eq {paths others : List Text} (h : StrictlySorted paths)
    (hperm : others.Perm paths) (hmoves : (others.map moves).Nodup) : sort others = paths := by
  refine (strictlySorted_sort hmoves).eq_of_mem_iff h fun path => ?_
  rw [sort, List.mem_mergeSort, hperm.mem_iff]

/-- **Sorting does not depend on the order of paths** with different moves. -/
theorem sort_eq_of_perm {paths others : List Text} (hperm : paths.Perm others)
    (h : (others.map moves).Nodup) : sort paths = sort others :=
  (strictlySorted_sort h).sort_eq (hperm.trans (List.mergeSort_perm others le).symm)
    ((hperm.map moves).nodup_iff.mpr h)

end Path

namespace BatchReport

/-- A report has the results it is made of. -/
theorem perm_ofResults (results : List FileResult) : (ofResults results).results.Perm results :=
  List.mergeSort_perm _ _

/-- **The results of a report stand in the order of their paths.** -/
theorem sorted_ofResults (results : List FileResult) :
    Path.Sorted ((ofResults results).results.map (·.path)) :=
  List.pairwise_map.mpr (List.pairwise_mergeSort
    (fun first second third => Path.le_transitive first.path second.path third.path)
    (fun first second => Path.le_or_le first.path second.path) results)

/-- **Reports of the same results are the same**, if results whose paths compare equal are. -/
theorem ofResults_eq_of_perm {results others : List FileResult} (hperm : results.Perm others)
    (hsame : ∀ first ∈ results, ∀ second ∈ results,
      Path.key first.path = Path.key second.path → first = second) :
    ofResults results = ofResults others := by
  have hperm' : (ofResults results).results.Perm (ofResults others).results :=
    (perm_ofResults results).trans (hperm.trans (perm_ofResults others).symm)
  refine congrArg BatchReport.mk (List.Perm.eq_of_pairwise (fun first second hf hs hle hle' => ?_)
    (List.pairwise_map.mp (sorted_ofResults results))
    (List.pairwise_map.mp (sorted_ofResults others)) hperm')
  refine hsame first ((perm_ofResults results).mem_iff.mp hf) second
    (hperm.mem_iff.mpr ((perm_ofResults others).mem_iff.mp hs)) ?_
  exact le_antisymm ((Path.le_iff _ _).mp hle) ((Path.le_iff _ _).mp hle')

end BatchReport

end RuleTable
