import Mathlib.Data.List.Nodup
import Mathlib.Data.List.TakeWhile
import RuleTable.Batch.File
import RuleTable.Proofs.Files.Writing

/-!
# Documents that are written

Documents are written one after the other, each to the place where its path leads. Through links a
later document can go to the place of an earlier one, and then **the last one stays**: after the
writing, what stands at a place is the last document that goes there, and what stood there before
if none does. The first document that goes nowhere ends the writing.
-/

set_option autoImplicit false

namespace RuleTable

namespace FileTree

variable {tree other next written : FileTree} {documents done : List (Text × Text)}
  {path document : Text} {place : List Text}

/-! ## The last document at a place -/

/-- **The last document that goes to a place**, of documents with their paths. -/
def lastAt? (tree : FileTree) (documents : List (Text × Text)) (place : List Text) : Option Text :=
  (documents.reverse.find? fun document => tree.landing? document.1 == some place).map (·.2)

/-- Whether every document goes somewhere. -/
def AllLand (tree : FileTree) (documents : List (Text × Text)) : Prop :=
  ∀ document ∈ documents, ∃ place, tree.landing? document.1 = some place

/-- **The documents before the first that goes nowhere.** -/
def landed (tree : FileTree) (documents : List (Text × Text)) : List (Text × Text) :=
  documents.takeWhile fun document => (tree.landing? document.1).isSome

/-- **A tree in which documents were written**: at each place stands the last document that goes
there, and what stood there before if none does. -/
def HasWritten (tree : FileTree) (documents : List (Text × Text)) (written : FileTree) : Prop :=
  ∀ place, written.kindAt place
    = (tree.lastAt? documents place).elim (tree.kindAt place) fun document =>
        some (.file (.text document))

theorem lastAt?_cons (tree : FileTree) (path document : Text) (documents : List (Text × Text))
    (place : List Text) :
    tree.lastAt? ((path, document) :: documents) place
      = (tree.lastAt? documents place).or
          (if tree.landing? path = some place then some document else none) := by
  unfold lastAt?
  rw [List.reverse_cons, List.find?_append, Option.map_or]
  by_cases hplace : tree.landing? path = some place <;> simp [hplace]

/-- The last document at a place is one that goes there. -/
theorem exists_of_lastAt? (h : tree.lastAt? documents place = some document) :
    ∃ path, (path, document) ∈ documents ∧ tree.landing? path = some place := by
  obtain ⟨⟨path, _⟩, hfind, rfl⟩ := Option.map_eq_some_iff.mp h
  refine ⟨path, List.mem_reverse.mp (List.mem_of_find?_eq_some hfind), ?_⟩
  simpa using List.find?_some hfind

/-- Where a document goes, there is a last one. -/
theorem exists_lastAt? (hmem : (path, document) ∈ documents)
    (hplace : tree.landing? path = some place) :
    ∃ last, tree.lastAt? documents place = some last := by
  unfold lastAt?
  refine Option.isSome_iff_exists.mp ?_
  rw [Option.isSome_map, List.find?_isSome]
  exact ⟨(path, document), List.mem_reverse.mpr hmem, by simpa using hplace⟩

/-- **If no two documents go to one place**, the last one at the place of each is itself. -/
theorem lastAt?_of_nodup (hnodup : (documents.map fun document => tree.landing? document.1).Nodup)
    (hmem : (path, document) ∈ documents) (hplace : tree.landing? path = some place) :
    tree.lastAt? documents place = some document := by
  obtain ⟨last, hlast⟩ := exists_lastAt? hmem hplace
  obtain ⟨path', hmem', hplace'⟩ := exists_of_lastAt? hlast
  have hsame := List.inj_on_of_nodup_map hnodup hmem hmem' (hplace.trans hplace'.symm)
  rw [hlast, (Prod.mk.inj hsame).2]

/-- Where documents go depends on directories and links only. -/
theorem lastAt?_congr (h : tree.guideAt = other.guideAt) (documents : List (Text × Text))
    (place : List Text) : tree.lastAt? documents place = other.lastAt? documents place := by
  unfold lastAt?
  congr 2
  funext document
  rw [landing?_congr h]

theorem landed_congr (h : tree.guideAt = other.guideAt) (documents : List (Text × Text)) :
    tree.landed documents = other.landed documents := by
  unfold landed
  congr 1
  funext document
  rw [landing?_congr h]

theorem AllLand.landed_eq (h : tree.AllLand documents) : tree.landed documents = documents := by
  refine List.takeWhile_eq_self_iff.mpr fun document hmem => ?_
  exact Option.isSome_iff_exists.mpr (h document hmem)

theorem allLand_congr (h : tree.guideAt = other.guideAt) (documents : List (Text × Text)) :
    tree.AllLand documents ↔ other.AllLand documents := by
  unfold AllLand
  simp only [landing?_congr h]

/-! ## Writing one after the other -/

/-- No directory and no link is where a file goes. -/
theorem guideAt_of_landing? (h : tree.landing? path = some place) :
    tree.guideAt place = none :=
  Option.isNone_iff_eq_none.mp (Option.filter_eq_some_iff.mp h).2

/-- **One document more** is written before the others. -/
theorem HasWritten.cons (hplace : tree.landing? path = some place)
    (hnext : tree.IsWritten place (.text document) next) (h : next.HasWritten documents written) :
    tree.HasWritten ((path, document) :: documents) written := by
  intro location
  have hguides := guideAt_of_isWritten (guideAt_of_landing? hplace) hnext
  rw [h location, lastAt?_congr hguides, lastAt?_cons, hnext location, hplace]
  cases tree.lastAt? documents location with
  | some last => rfl
  | none =>
      by_cases hsame : location = place
      · simp [hsame]
      · have hother : ¬ some place = some location := fun h => hsame (Option.some.inj h).symm
        simp [hsame, hother]

/-- **Writing documents changes no directory and no link.** -/
theorem HasWritten.guideAt (h : tree.HasWritten documents written) :
    written.guideAt = tree.guideAt := by
  funext location
  unfold FileTree.guideAt
  rw [h location]
  cases hlast : tree.lastAt? documents location with
  | none => rfl
  | some last =>
      obtain ⟨path, -, hplace⟩ := exists_of_lastAt? hlast
      exact (guideAt_of_landing? hplace).symm

/-- **Writing documents changes nothing** exactly if each of those that stay was there before. -/
theorem HasWritten.unchanged_iff (h : tree.HasWritten documents written) :
    (∀ location, written.kindAt location = tree.kindAt location) ↔
      ∀ place document, tree.lastAt? documents place = some document →
        tree.kindAt place = some (.file (.text document)) := by
  constructor
  · intro hsame place document hlast
    rw [← hsame place, h place, hlast]
    rfl
  · intro hthere location
    rw [h location]
    cases hlast : tree.lastAt? documents location with
    | none => rfl
    | some document => exact (hthere location document hlast).symm

/-- **A document is read where it was written**, if it is the last one there. -/
theorem HasWritten.readText (h : tree.HasWritten documents written)
    (hplace : tree.landing? path = some place)
    (hlast : tree.lastAt? documents place = some document) :
    written.readText path = .ok document := by
  refine readText_of_landing? ((landing?_congr h.guideAt path).trans hplace) ?_
  rw [h place, hlast]
  rfl

/-- **Documents are written until one goes nowhere**: those before it, and all if there is none. -/
theorem writeDocuments_spec (hroot : tree.kind = .directory) (documents : List (Text × Text)) :
    tree.HasWritten (tree.landed documents) (writeDocuments tree documents).1 ∧
      ((writeDocuments tree documents).2 = .ok () ↔ tree.AllLand documents) := by
  induction documents generalizing tree with
  | nil => exact ⟨fun _ => rfl, iff_of_true rfl (List.forall_mem_nil _)⟩
  | cons first documents ih =>
      obtain ⟨path, document⟩ := first
      rw [writeDocuments, landed, AllLand, List.forall_mem_cons, List.takeWhile_cons]
      rcases writeFile_spec hroot path (.text document) with
        ⟨place, next, hplace, hwrite, hnext⟩ | ⟨hplace, error, hwrite⟩
      · -- The file changes no directory and no link, so the others go where they went.
        have hguides := guideAt_of_isWritten (guideAt_of_landing? hplace) hnext
        obtain ⟨hwritten, hall⟩ := ih (kind_of_guideAt_eq hguides hroot)
        rw [landed_congr hguides] at hwritten
        rw [allLand_congr hguides] at hall
        rw [hwrite, hplace]
        exact ⟨hwritten.cons hplace hnext, hall.trans (and_iff_right ⟨place, rfl⟩).symm⟩
      · rw [hwrite, hplace]
        refine ⟨fun _ => rfl, iff_of_false (fun h => ?_) (fun h => ?_)⟩
        · cases h
        · obtain ⟨⟨place, hsome⟩, -⟩ := h
          cases hsome

/-- **Where no two documents go to one place, each can be read** under its path. -/
theorem HasWritten.readText_of_nodup (h : tree.HasWritten documents written)
    (hland : tree.AllLand documents)
    (hnodup : (documents.map fun document => tree.landing? document.1).Nodup) :
    ∀ document ∈ documents, written.readText document.1 = .ok document.2 := by
  intro document hmem
  obtain ⟨place, hplace⟩ := hland document hmem
  exact h.readText hplace (lastAt?_of_nodup hnodup hmem hplace)

end FileTree

end RuleTable
