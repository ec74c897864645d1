import Mathlib.Data.List.Nodup
import RuleTable.Batch.File

/-!
# Names of documents

The documents of a file are named after its stem, and numbered if there are several; the directory
of the file is no part of the name. So two files have a document of one name if their stems are the
same and both are divided or neither is, or if the stem of the one that is not divided is the name
of a part of the other: these are **clashes**, and there are no others.
-/

set_option autoImplicit false

namespace RuleTable

open Text

/-! ## Parts -/

/-- The name of the n-th part of a file, without its extension. -/
def partName (stem : Text) (n : Nat) : Text := stem ++ "_part".toList ++ ofNat n

theorem ofNat_injective : Function.Injective ofNat := by
  intro n m h
  calc n = Nat.ofDigitChars 10 (ofNat n) 0 := Nat.ofDigitChars_ten_toDigits.symm
    _ = Nat.ofDigitChars 10 (ofNat m) 0 := by rw [h]
    _ = m := Nat.ofDigitChars_ten_toDigits

/-- What stands before and after the last mark in a text is determined. -/
theorem append_cons_inj {mark : Char} {front front' back back' : Text} (h : mark ∉ back)
    (h' : mark ∉ back') (heq : front ++ mark :: back = front' ++ mark :: back') :
    front = front' ∧ back = back' := by
  rcases List.append_eq_append_iff.mp heq with ⟨middle, rfl, hback⟩ | ⟨middle, rfl, hback⟩
  · cases middle with
    | nil => exact ⟨(List.append_nil front).symm, (List.cons.inj hback).2⟩
    | cons c middle =>
        refine absurd ?_ h
        rw [(List.cons.inj hback).2]
        exact List.mem_append_right _ List.mem_cons_self
  · cases middle with
    | nil => exact ⟨List.append_nil front', (List.cons.inj hback).2.symm⟩
    | cons c middle =>
        refine absurd ?_ h'
        rw [(List.cons.inj hback).2]
        exact List.mem_append_right _ List.mem_cons_self

/-- **The name of a part tells the stem and the number**: there is no mark after the last one. -/
theorem partName_inj {stem other : Text} {n m : Nat} (h : partName stem n = partName other m) :
    stem = other ∧ n = m := by
  have hmark : ∀ n, '_' ∉ "part".toList ++ ofNat n := by
    intro n hmem
    rcases List.mem_append.mp hmem with hmem | hmem
    · exact absurd hmem (by decide)
    · exact Nat.underscore_not_in_toDigits hmem
  have hsplit : ∀ stem n, partName stem n = stem ++ '_' :: ("part".toList ++ ofNat n) :=
    fun stem n => List.append_assoc stem "_part".toList (ofNat n)
  rw [hsplit, hsplit] at h
  obtain ⟨hstem, hback⟩ := append_cons_inj (hmark n) (hmark m) h
  exact ⟨hstem, ofNat_injective (List.append_cancel_left hback)⟩

/-! ## Clashes -/

/-- Whether a name is that of a part of a divided file. -/
def IsPartOf (name stem : Text) (count : Nat) : Prop :=
  1 < count ∧ ∃ n, 1 ≤ n ∧ n ≤ count ∧ name = partName stem n

/-- **Two files clash**, with their stems and how many documents they have: the stems are the same,
and both files are divided or neither is, or one is not divided and its stem is the name of a part
of the other. -/
def NamesClash (stem : Text) (count : Nat) (other : Text) (count' : Nat) : Prop :=
  stem = other ∧ (count ≤ 1 ↔ count' ≤ 1) ∨
  count ≤ 1 ∧ IsPartOf stem other count' ∨
  count' ≤ 1 ∧ IsPartOf other stem count

/-- **The names of the documents** of a file. -/
theorem mem_documentNames_iff {name stem : Text} {count : Nat} :
    name ++ ".dmn".toList ∈ documentNames stem count
      ↔ count ≤ 1 ∧ name = stem ∨ IsPartOf name stem count := by
  rw [documentNames, IsPartOf]
  by_cases hcount : count ≤ 1
  · rw [if_pos hcount, List.mem_singleton, List.append_cancel_right_eq]
    have hnot : ¬ 1 < count := by omega
    simp [hcount, hnot]
  · rw [if_neg hcount, List.mem_map]
    constructor
    · rintro ⟨n, hn, heq⟩
      rw [List.mem_range'_1] at hn
      exact Or.inr ⟨by omega, n, hn.1, by omega, (List.append_cancel_right heq).symm⟩
    · rintro (⟨hle, -⟩ | ⟨-, n, hfirst, hlast, rfl⟩)
      · exact absurd hle hcount
      · exact ⟨n, by rw [List.mem_range'_1]; omega, rfl⟩

/-- Every name of a document has the extension. -/
theorem exists_of_mem_documentNames {file stem : Text} {count : Nat}
    (h : file ∈ documentNames stem count) : ∃ name, file = name ++ ".dmn".toList := by
  rw [documentNames] at h
  split at h
  · exact ⟨stem, List.mem_singleton.mp h⟩
  · obtain ⟨n, -, rfl⟩ := List.mem_map.mp h
    exact ⟨_, rfl⟩

/-- **Two files have no document of one name** unless they clash. -/
theorem disjoint_documentNames_iff {stem other : Text} {count count' : Nat} :
    List.Disjoint (documentNames stem count) (documentNames other count')
      ↔ ¬ NamesClash stem count other count' := by
  constructor
  · intro hdisjoint hclash
    have hmem : ∀ name, ¬ (name ++ ".dmn".toList ∈ documentNames stem count ∧
        name ++ ".dmn".toList ∈ documentNames other count') :=
      fun name h => hdisjoint h.1 h.2
    simp only [mem_documentNames_iff] at hmem
    rcases hclash with ⟨rfl, hiff⟩ | ⟨hcount, hpart⟩ | ⟨hcount, hpart⟩
    · by_cases hcount : count ≤ 1
      · exact hmem stem ⟨Or.inl ⟨hcount, rfl⟩, Or.inl ⟨hiff.mp hcount, rfl⟩⟩
      · have hcount' : ¬ count' ≤ 1 := fun h => hcount (hiff.mpr h)
        have hfirst : ∀ {count}, ¬ count ≤ 1 → IsPartOf (partName stem 1) stem count :=
          fun h => ⟨by omega, 1, Nat.le_refl 1, by omega, rfl⟩
        exact hmem (partName stem 1) ⟨Or.inr (hfirst hcount), Or.inr (hfirst hcount')⟩
    · exact hmem stem ⟨Or.inl ⟨hcount, rfl⟩, Or.inr hpart⟩
    · exact hmem other ⟨Or.inr hpart, Or.inl ⟨hcount, rfl⟩⟩
  · intro hclash file hfile hfile'
    obtain ⟨name, rfl⟩ := exists_of_mem_documentNames hfile
    refine hclash ?_
    rcases mem_documentNames_iff.mp hfile with ⟨hcount, rfl⟩ | hpart <;>
      rcases mem_documentNames_iff.mp hfile' with ⟨hcount', rfl⟩ | hpart'
    · exact Or.inl ⟨rfl, iff_of_true hcount hcount'⟩
    · exact Or.inr (Or.inl ⟨hcount, hpart'⟩)
    · exact Or.inr (Or.inr ⟨hcount', hpart⟩)
    · obtain ⟨hcount, n, -, -, hname⟩ := hpart
      obtain ⟨hcount', m, -, -, hname'⟩ := hpart'
      obtain ⟨rfl, -⟩ := partName_inj (hname.symm.trans hname')
      exact Or.inl ⟨rfl, iff_of_false (by omega) (by omega)⟩

/-- **The documents of one file have different names.** -/
theorem nodup_documentNames (stem : Text) (count : Nat) : (documentNames stem count).Nodup := by
  rw [documentNames]
  split
  · exact List.nodup_singleton _
  · refine List.Nodup.map ?_ List.nodup_range'
    intro n m h
    exact (partName_inj (List.append_cancel_right h)).2

/-- Names in a directory are told apart by their paths. -/
theorem Path.child_injective (directory : Text) : Function.Injective (Path.child directory) := by
  intro name other h
  rw [child, child] at h
  split at h <;> exact List.append_cancel_left h

end RuleTable
