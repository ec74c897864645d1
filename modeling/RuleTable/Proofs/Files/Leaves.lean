import Mathlib.Data.List.Nodup
import RuleTable.Proofs.Files.Children

/-!
# The leaves and branches of a tree

In a **proper** tree the entries of each directory have different names, and every name is one that
a path can go down to. Then what stands in the tree is told apart by the names that lead there: the
leaves are what stands at the end of names without being a directory, each once, and the branches
are the directories.
-/

set_option autoImplicit false

namespace RuleTable

namespace FileTree

/-! ## Proper trees -/

/-- **A proper tree**: in each directory the entries have different names, to which a path can go
down. -/
inductive IsProper : FileTree → Prop
  | file (name : Text) (content : Content) : IsProper (file name content)
  | link (name : Text) (target : List Step) : IsProper (link name target)
  | directory {name : Text} {entries : List FileTree}
      (names : ∀ entry ∈ entries, Path.IsName entry.name)
      (nodup : (entries.map FileTree.name).Nodup)
      (below : ∀ entry ∈ entries, IsProper entry) : IsProper (directory name entries)

variable {tree entry leaf : FileTree} {name path : Text} {entries : List FileTree}
  {location names : List Text}

/-- **An entry of a proper directory** is the one found under its name. -/
theorem entry?_of_mem (hnodup : (entries.map FileTree.name).Nodup) (hmem : entry ∈ entries) :
    entry? (directory name entries) entry.name = some entry := by
  have hsome : (entries.find? (·.name == entry.name)).isSome = true :=
    List.find?_isSome.mpr ⟨entry, hmem, beq_self_eq_true _⟩
  obtain ⟨other, hother⟩ := Option.isSome_iff_exists.mp hsome
  have hfound : (other.name == entry.name) = true :=
    List.find?_some (p := fun other : FileTree => other.name == entry.name) hother
  have hname : other.name = entry.name := eq_of_beq hfound
  have hsame : other = entry :=
    List.inj_on_of_nodup_map hnodup (List.mem_of_find?_eq_some hother) hmem hname
  exact hother.trans (congrArg some hsame)

/-- Names lead on from an entry of a proper directory as from the directory. -/
theorem at?_cons_of_mem (hnodup : (entries.map FileTree.name).Nodup) (hmem : entry ∈ entries)
    (names : List Text) : (directory name entries).at? (entry.name :: names) = entry.at? names := by
  rw [at?, entry?_of_mem hnodup hmem, Option.bind_some]

/-- **What stands in a proper tree is proper**, and so are the names that lead there. -/
theorem IsProper.of_at? (h : tree.IsProper) (hnode : tree.at? names = some leaf) :
    leaf.IsProper ∧ ∀ name ∈ names, Path.IsName name := by
  induction names generalizing tree with
  | nil =>
      cases hnode
      exact ⟨h, List.forall_mem_nil _⟩
  | cons first names ih =>
      obtain ⟨entry, hentry, hbelow⟩ := Option.bind_eq_some_iff.mp hnode
      cases h with
      | file name content => cases hentry
      | link name target => cases hentry
      | directory hnames hnodup hentries =>
          have hmem := List.mem_of_find?_eq_some hentry
          obtain ⟨hleaf, hlater⟩ := ih (hentries entry hmem) hbelow
          refine ⟨hleaf, List.forall_mem_cons.mpr ⟨?_, hlater⟩⟩
          exact (name_of_entry hentry).1 ▸ hnames entry hmem

/-! ## Leaves -/

/-- The leaves of entries are those of each of them. -/
theorem leavesOf_eq_flatMap (path : Text) (entries : List FileTree) :
    leavesOf path entries = entries.flatMap fun entry =>
      leaves (Path.child path entry.name) entry := by
  induction entries with
  | nil => rfl
  | cons entry entries ih => rw [leavesOf, ih, List.flatMap_cons]

/-- A leaf has no leaves but itself. -/
theorem mem_leaf_iff {node : FileTree} (hkind : node.kind ≠ .directory)
    (hnone : ∀ key, node.entry? key = none) {directory : Text} :
    (path, leaf) ∈ [(directory, node)] ↔
      ∃ names, path = Path.under directory names ∧ node.at? names = some leaf ∧
        leaf.kind ≠ .directory := by
  rw [List.mem_singleton]
  constructor
  · rintro ⟨⟩
    exact ⟨[], rfl, rfl, hkind⟩
  · rintro ⟨_ | ⟨key, names⟩, rfl, hnode, -⟩
    · cases hnode
      rfl
    · rw [at?, hnone] at hnode
      cases hnode

/-- **The leaves of a proper tree** are what stands at names and is no directory. -/
theorem mem_leaves_iff (h : tree.IsProper) {directory : Text} :
    (path, leaf) ∈ leaves directory tree ↔
      ∃ names, path = Path.under directory names ∧ tree.at? names = some leaf ∧
        leaf.kind ≠ .directory := by
  induction h generalizing directory with
  | file name content => exact mem_leaf_iff Kind.noConfusion fun _ => rfl
  | link name target => exact mem_leaf_iff Kind.noConfusion fun _ => rfl
  | @directory name entries hnames hnodup hbelow ih =>
      rw [leaves, leavesOf_eq_flatMap, List.mem_flatMap]
      constructor
      · rintro ⟨entry, hmem, hpath⟩
        obtain ⟨names, hunder, hnode, hkind⟩ := (ih entry hmem).mp hpath
        exact ⟨entry.name :: names, hunder, (at?_cons_of_mem hnodup hmem names).trans hnode, hkind⟩
      · rintro ⟨_ | ⟨key, names⟩, hunder, hnode, hkind⟩
        · cases hnode
          exact absurd rfl hkind
        · obtain ⟨entry, hentry, hbelow⟩ := Option.bind_eq_some_iff.mp hnode
          obtain rfl := (name_of_entry hentry).1
          have hmem := List.mem_of_find?_eq_some hentry
          exact ⟨entry, hmem, (ih entry hmem).mpr ⟨names, hunder, hbelow, hkind⟩⟩

/-- The moves to a leaf begin with those to the tree. -/
theorem IsProper.moves_of_mem_leaves (h : tree.IsProper) {directory : Text}
    (hleaf : (path, leaf) ∈ leaves directory tree) : Path.moves directory <+: Path.moves path := by
  obtain ⟨names, rfl, hnode, -⟩ := (mem_leaves_iff h).mp hleaf
  rw [Path.moves_under (h.of_at? hnode).2]
  exact List.prefix_append _ _

/-- **The leaves of a proper tree have different paths**, even when only the moves are compared. -/
theorem nodup_leaves (h : tree.IsProper) (directory : Text) :
    ((leaves directory tree).map fun leaf => Path.moves leaf.1).Nodup := by
  induction h generalizing directory with
  | file name content => exact List.nodup_singleton _
  | link name target => exact List.nodup_singleton _
  | @directory name entries hnames hnodup hbelow ih =>
      rw [leaves, leavesOf_eq_flatMap, List.map_flatMap, List.nodup_flatMap]
      refine ⟨fun entry hmem => ih entry hmem _, ?_⟩
      -- The first move down tells the entries apart.
      have hmoves : ∀ entry ∈ entries, ∀ moves ∈
          (leaves (Path.child directory entry.name) entry).map fun leaf => Path.moves leaf.1,
          Path.moves directory ++ [.down entry.name] <+: moves := by
        intro entry hmem moves hmoves
        obtain ⟨⟨path, leaf⟩, hleaf, rfl⟩ := List.mem_map.mp hmoves
        rw [← Path.moves_child (hnames entry hmem)]
        exact (hbelow entry hmem).moves_of_mem_leaves hleaf
      refine (List.pairwise_map.mp hnodup).imp_of_mem fun hmem hmem' hne moves hm hm' => ?_
      have hsame := (List.prefix_of_prefix_length_le (hmoves _ hmem moves hm)
        (hmoves _ hmem' moves hm') (by simp)).eq_of_length (by simp)
      have hstep := List.singleton_inj.mp (List.append_cancel_left hsame)
      exact hne (Step.down.inj hstep)

/-! ## Branches -/

/-- The branches of entries are those of each of them. -/
theorem branchesOf_eq_flatMap (path : Text) (entries : List FileTree) :
    branchesOf path entries = entries.flatMap fun entry =>
      branches (Path.child path entry.name) entry := by
  induction entries with
  | nil => rfl
  | cons entry entries ih => rw [branchesOf, ih, List.flatMap_cons]

theorem branches_of_kind (h : entry.kind ≠ .directory) (path : Text) :
    entry.branches path = [] := by
  cases entry with
  | file name content => rw [branches]
  | link name target => rw [branches]
  | directory name entries => exact absurd rfl h

/-- **The branches of a proper tree** are the directories at names. -/
theorem mem_branches_iff (h : tree.IsProper) {directory : Text} :
    path ∈ branches directory tree ↔
      ∃ names, path = Path.under directory names ∧ tree.kindAt names = some .directory := by
  have hnone : ∀ leaf : FileTree, leaf.kind ≠ .directory →
      ∀ names, leaf.kindAt names ≠ some .directory := by
    intro leaf hkind names hnames
    obtain ⟨name, entries, rfl⟩ := exists_entries_of_kindAt hnames
    exact hkind rfl
  induction h generalizing directory with
  | file name content => simp [branches, hnone (.file name content) Kind.noConfusion]
  | link name target => simp [branches, hnone (.link name target) Kind.noConfusion]
  | @directory name entries hnames hnodup hbelow ih =>
      have hentry : ∀ {entry names}, entry ∈ entries → (FileTree.directory name entries).kindAt
          (entry.name :: names) = entry.kindAt names := by
        intro entry names hmem
        rw [kindAt, at?_cons_of_mem hnodup hmem]
        rfl
      rw [branches, branchesOf_eq_flatMap, List.mem_cons, List.mem_flatMap]
      constructor
      · rintro (rfl | ⟨entry, hmem, hpath⟩)
        · exact ⟨[], rfl, rfl⟩
        · obtain ⟨names, hunder, hkind⟩ := (ih entry hmem).mp hpath
          exact ⟨entry.name :: names, hunder, (hentry hmem).trans hkind⟩
      · rintro ⟨_ | ⟨key, names⟩, hunder, hkind⟩
        · exact Or.inl hunder
        · rw [kindAt_cons] at hkind
          obtain ⟨entry, hfound, hbelow⟩ := Option.bind_eq_some_iff.mp hkind
          obtain rfl := (name_of_entry hfound).1
          have hmem := List.mem_of_find?_eq_some hfound
          exact Or.inr ⟨entry, hmem, (ih entry hmem).mpr ⟨names, hunder, hbelow⟩⟩

end FileTree

end RuleTable
