import RuleTable.Proofs.Batch.Order
import RuleTable.Proofs.Files.Leaves

/-!
# Rule files under a directory

**A rule file under a directory** is a file, or a link that leads to one, that directories alone
lead to and whose name has the extension. In a proper tree these are the leaves that are selected
when rule files are looked for; their paths differ, so sorting puts them into a strict order, which
does not depend on the order in which entries are listed. They are found exactly if the directory
**can be searched**, that is, if it and every directory below it can be read.
-/

set_option autoImplicit false

namespace RuleTable

open FileTree

namespace FileTree

variable {tree other entry : FileTree} {directoryPath path extension : Text}
  {location names : List Text} {entries listed : List FileTree}

/-! ## Reading directories -/

/-- **A path leads to a file** if one stands where it ends. -/
theorem isFile_iff : tree.isFile path = true ↔
    ∃ location content, tree.lead false path = .ok (.node location) ∧
      tree.kindAt location = some (.file content) := by
  constructor
  · intro h
    rw [isFile] at h
    split at h
    · next location name content hnode =>
        obtain ⟨steps, hsteps, hnode⟩ := exists_of_bind_eq_ok hnode
        obtain ⟨hresolve, hplace⟩ := node_eq_ok_iff.mp hnode
        refine ⟨location, content, ?_, ?_⟩
        · rw [lead, hsteps]
          exact hresolve
        · rw [kindAt, hplace]
          rfl
    · cases h
  · rintro ⟨location, content, hlead, hkind⟩
    obtain ⟨steps, hsteps, hresolve⟩ := exists_of_bind_eq_ok hlead
    obtain ⟨node, hplace, hfile⟩ := Option.map_eq_some_iff.mp hkind
    cases node with
    | file name content =>
        have hnode := node_eq_ok_iff.mpr ⟨hresolve, hplace⟩
        rw [isFile, hsteps, Except.bind, hnode]
    | link name target => cases hfile
    | directory name entries => cases hfile

/-- A directory is read where its path leads. -/
theorem listing_eq_ok_iff : tree.listing path = .ok (location, entries) ↔
    Path.checkedSteps path = .ok (Path.steps path) ∧ tree.LeadsInto path location ∧
      ∃ name, tree.at? location = some (directory name entries) := by
  constructor
  · intro h
    rw [listing] at h
    obtain ⟨steps, hsteps, h⟩ := exists_of_bind_eq_ok h
    obtain ⟨⟨place, node⟩, hnode, h⟩ := exists_of_bind_eq_ok h
    obtain ⟨hresolve, hplace⟩ := node_eq_ok_iff.mp hnode
    cases node with
    | file name content => cases h
    | link name target => cases h
    | directory name found =>
        cases h
        have hsame : steps = Path.steps path := (Path.checkedSteps_eq_ok_iff.mp hsteps).2.2.2
        rw [hsame] at hsteps hresolve
        refine ⟨hsteps, ⟨hresolve, ?_⟩, name, hplace⟩
        rw [kindAt, hplace]
        rfl
  · rintro ⟨hsteps, ⟨hresolve, -⟩, name, hplace⟩
    rw [listing, hsteps]
    simp only [bind, Except.bind, node_eq_ok_iff.mpr ⟨hresolve, hplace⟩]
    rfl

/-- **A subdirectory is read** below the directory that it is in. -/
theorem listing_child (hpath : tree.listing path = .ok (location, entries)) {name : Text}
    {below : List FileTree} (hentry : tree.at? (location ++ [name]) = some (directory name below))
    (hname : Path.IsName name) {result : List Text × List FileTree}
    (hread : tree.listing (Path.child path name) = .ok result) :
    result = (location ++ [name], below) := by
  obtain ⟨-, hinto, -⟩ := listing_eq_ok_iff.mp hpath
  obtain ⟨place, found⟩ := result
  obtain ⟨-, ⟨hresolve, -⟩, name', hplace⟩ := listing_eq_ok_iff.mp hread
  obtain ⟨links, hon⟩ := resolve_child hname hinto
  have hkind : tree.kindAt (location ++ [name]) = some .directory := by
    rw [kindAt, hentry]
    rfl
  have hdown := place_of_follow_down hinto.2 (fun target hlink => by
    cases hkind.symm.trans hlink) (hon.symm.trans hresolve)
  obtain rfl : place = location ++ [name] := hdown
  cases hentry.symm.trans hplace
  rfl

end FileTree

/-! ## Rule files -/

/-- **A file with an extension under a directory** at a location: names lead there through
directories only, and there stands a file, or a link that counts for one, whose name has the
extension. Whether a link counts is asked by its path and its place. -/
def FileTree.LiesUnder (tree : FileTree) (directoryPath : Text) (location : List Text)
    (extension : Text) (counts : Text → List Text → Prop) (path : Text) : Prop :=
  ∃ names name, path = Path.under directoryPath (names ++ [name]) ∧
    (∀ front, front <+: names → tree.kindAt (location ++ front) = some .directory) ∧
    ((∃ content, tree.kindAt (location ++ names ++ [name]) = some (.file content)) ∨
      (∃ target, tree.kindAt (location ++ names ++ [name]) = some (.link target)) ∧
        counts path (location ++ names ++ [name])) ∧
    (Path.splitName name).2 = some extension

/-- **A rule file under a directory**: a link counts if its path leads to a file. That asks for a
path that files can be looked for with, which must not be too long. -/
def FileTree.IsRuleFile (tree : FileTree) (directoryPath : Text) (location : List Text)
    (extension path : Text) : Prop :=
  tree.LiesUnder directoryPath location extension (fun path _ => tree.isFile path = true) path

variable {tree other entry leaf : FileTree} {directoryPath path extension : Text}
  {location names : List Text} {entries listed : List FileTree}

theorem mem_ruleFiles_iff {leaves : List (Text × FileTree)} :
    path ∈ ruleFiles tree extension leaves ↔ ∃ leaf, (path, leaf) ∈ leaves ∧
      tree.leadsToFile path leaf = true ∧ Path.extension? path = some extension := by
  unfold ruleFiles
  simp only [List.mem_map, List.mem_filter, Bool.and_eq_true, beq_iff_eq]
  constructor
  · rintro ⟨⟨path, leaf⟩, hleaf, rfl⟩
    exact ⟨leaf, hleaf⟩
  · rintro ⟨leaf, hleaf⟩
    exact ⟨(path, leaf), hleaf, rfl⟩

/-- A leaf leads to a file if it is one, or a link that leads to one. -/
theorem FileTree.leadsToFile_iff :
    leaf.kind ≠ .directory ∧ tree.leadsToFile path leaf = true ↔
      (∃ content, leaf.kind = .file content) ∨
        (∃ target, leaf.kind = .link target) ∧ tree.isFile path = true := by
  cases leaf <;> simp [kind, leadsToFile]

/-- Above what stands somewhere there are directories. -/
theorem FileTree.kindAt_front {key : Text} {kind : Kind}
    (h : tree.kindAt (location ++ names ++ [key]) = some kind) {front : List Text}
    (hfront : front <+: names) : tree.kindAt (location ++ front) = some .directory := by
  obtain ⟨back, rfl⟩ := hfront
  by_contra hne
  obtain ⟨first, later, hcons⟩ := List.exists_cons_of_ne_nil (List.concat_ne_nil key back)
  rw [← List.append_assoc, List.append_assoc, hcons, kindAt_append_of_ne hne] at h
  cases h

/-- **The rule files among the leaves below a directory** are those under it. -/
theorem mem_ruleFiles_leavesOf_iff (hproper : tree.IsProper)
    (h : tree.listing directoryPath = .ok (location, entries)) :
    path ∈ ruleFiles tree extension (leavesOf directoryPath entries)
      ↔ tree.IsRuleFile directoryPath location extension path := by
  obtain ⟨-, -, top, hplace⟩ := listing_eq_ok_iff.mp h
  obtain ⟨hbelow, -⟩ := hproper.of_at? hplace
  have hat : ∀ names, tree.at? (location ++ names) = (directory top entries).at? names := by
    intro names
    rw [at?_append, hplace, Option.bind_some]
  have hextension : ∀ {names name leaf}, (directory top entries).at? (names ++ [name]) = some leaf →
      Path.extension? (Path.under directoryPath (names ++ [name])) = (Path.splitName name).2 := by
    intro names name leaf hleaf
    have hname := (hbelow.of_at? hleaf).2 name (List.mem_append_right _ (List.mem_singleton_self _))
    rw [Path.under_concat, Path.extension?_child hname]
  rw [mem_ruleFiles_iff]
  constructor
  · rintro ⟨leaf, hmem, hleads, hends⟩
    obtain ⟨names, rfl, hleaf, hkind⟩ := (mem_leaves_iff hbelow).mp hmem
    rcases List.eq_nil_or_concat names with rfl | ⟨front, name, rfl⟩
    · cases hleaf
      exact absurd rfl hkind
    · rw [List.concat_eq_append] at hleaf hleads hends ⊢
      have hstands : tree.kindAt (location ++ front ++ [name]) = some leaf.kind := by
        rw [kindAt, List.append_assoc, hat, hleaf]
        rfl
      refine ⟨front, name, rfl, fun _ => kindAt_front hstands, ?_, hextension hleaf ▸ hends⟩
      rw [hstands]
      simpa only [Option.some.injEq] using leadsToFile_iff.mp ⟨hkind, hleads⟩
  · rintro ⟨front, name, rfl, -, hstands, hends⟩
    obtain ⟨kind, hkind⟩ : ∃ kind, tree.kindAt (location ++ front ++ [name]) = some kind := by
      rcases hstands with ⟨content, hfile⟩ | ⟨⟨target, hlink⟩, -⟩
      · exact ⟨_, hfile⟩
      · exact ⟨_, hlink⟩
    obtain ⟨leaf, hleaf, rfl⟩ := Option.map_eq_some_iff.mp hkind
    rw [List.append_assoc, hat] at hleaf
    rw [hkind] at hstands
    simp only [Option.some.injEq] at hstands
    obtain ⟨hnone, hleads⟩ := leadsToFile_iff.mpr hstands
    exact ⟨leaf, (mem_leaves_iff hbelow).mpr ⟨_, rfl, hleaf, hnone⟩, hleads,
      (hextension hleaf).trans hends⟩

/-- The rule files among the leaves of a proper tree have different moves. -/
theorem nodup_ruleFiles (hproper : tree.IsProper)
    (h : tree.listing directoryPath = .ok (location, entries)) (extension : Text) :
    ((ruleFiles tree extension (leavesOf directoryPath entries)).map Path.moves).Nodup := by
  obtain ⟨-, -, top, hplace⟩ := listing_eq_ok_iff.mp h
  have hleaves := nodup_leaves (hproper.of_at? hplace).1 directoryPath
  rw [ruleFiles, List.map_map]
  exact hleaves.sublist (List.filter_sublist.map _)

/-! ## Searching a directory -/

/-- **A directory that can be searched**: the tree is proper, the path leads into the directory, and
every directory below it can be read. -/
structure FileTree.CanBeSearched (tree : FileTree) (directoryPath : Text) (location : List Text) :
    Prop where
  proper : tree.IsProper
  into : tree.LeadsInto directoryPath location
  readable : ∀ names, tree.kindAt (location ++ names) = some .directory →
    ∃ listing, tree.listing (Path.under directoryPath names) = .ok listing

/-- What can be searched can be read. -/
theorem FileTree.CanBeSearched.exists_listing (h : tree.CanBeSearched directoryPath location) :
    ∃ entries, tree.listing directoryPath = .ok (location, entries) := by
  have hplace : tree.kindAt (location ++ []) = some .directory := by
    rw [List.append_nil]
    exact h.into.2
  obtain ⟨⟨place, entries⟩, hread⟩ := h.readable [] hplace
  obtain ⟨-, hinto, -⟩ := listing_eq_ok_iff.mp hread
  obtain rfl := h.into.unique hinto
  exact ⟨entries, hread⟩

/-- Rule files are found if the directories below the one that is searched can be read. -/
theorem findFiles_eq_ok_iff (h : tree.listing directoryPath = .ok (location, entries))
    {found : List Text} : findFiles tree directoryPath extension = .ok found ↔
      (∀ path ∈ branchesOf directoryPath entries, ∃ result, tree.listing path = .ok result) ∧
        Path.sort (ruleFiles tree extension (leavesOf directoryPath entries)) = found := by
  have hfind : findFiles tree directoryPath extension
      = (branchesOf directoryPath entries).mapM tree.listing >>= fun _ =>
        .ok (Path.sort (ruleFiles tree extension (leavesOf directoryPath entries))) := by
    rw [findFiles, h]
    rfl
  rw [hfind, ← exists_mapM_eq_ok_iff]
  constructor
  · intro hfound
    obtain ⟨results, hread, hfound⟩ := exists_of_bind_eq_ok hfound
    exact ⟨⟨results, hread⟩, Except.ok.inj hfound⟩
  · rintro ⟨⟨results, hread⟩, rfl⟩
    rw [hread]
    rfl

/-- **Rule files are found exactly if the directory can be searched**, in a proper tree and where
the path leads. -/
theorem exists_findFiles_iff (hproper : tree.IsProper)
    (hinto : tree.LeadsInto directoryPath location) (extension : Text) :
    (∃ found, findFiles tree directoryPath extension = .ok found)
      ↔ tree.CanBeSearched directoryPath location := by
  constructor
  · rintro ⟨found, hfound⟩
    refine ⟨hproper, hinto, fun names hnames => ?_⟩
    obtain ⟨⟨place, entries⟩, hread, -⟩ := exists_of_bind_eq_ok hfound
    obtain ⟨-, hinto', top, hplace⟩ := listing_eq_ok_iff.mp hread
    obtain rfl := hinto.unique hinto'
    have hbranch : Path.under directoryPath names ∈ branches directoryPath (directory top entries) :=
      (mem_branches_iff (hproper.of_at? hplace).1).mpr ⟨names, rfl, by
        rwa [kindAt, at?_append, hplace, Option.bind_some] at hnames⟩
    rw [branches] at hbranch
    rcases List.mem_cons.mp hbranch with hsame | hbelow
    · rw [hsame]
      exact ⟨_, hread⟩
    · exact ((findFiles_eq_ok_iff hread).mp hfound).1 _ hbelow
  · intro h
    obtain ⟨entries, hread⟩ := h.exists_listing
    obtain ⟨-, -, top, hplace⟩ := listing_eq_ok_iff.mp hread
    refine ⟨_, (findFiles_eq_ok_iff hread).mpr ⟨fun path hpath => ?_, rfl⟩⟩
    have hbranch : path ∈ branches directoryPath (directory top entries) := by
      rw [branches]
      exact List.mem_cons_of_mem directoryPath hpath
    obtain ⟨names, rfl, hnames⟩ := (mem_branches_iff (hproper.of_at? hplace).1).mp hbranch
    refine h.readable names ?_
    rwa [kindAt, at?_append, hplace, Option.bind_some]

/-- **Searching a directory of a proper tree** finds the rule files under it, in strict order. -/
theorem FileTree.CanBeSearched.exists_findFiles (h : tree.CanBeSearched directoryPath location)
    (extension : Text) : ∃ found, findFiles tree directoryPath extension = .ok found ∧
      Path.StrictlySorted found ∧
        ∀ path, path ∈ found ↔ tree.IsRuleFile directoryPath location extension path := by
  obtain ⟨entries, hread⟩ := h.exists_listing
  obtain ⟨found, hfound⟩ := (exists_findFiles_iff h.proper h.into extension).mpr h
  obtain ⟨-, rfl⟩ := (findFiles_eq_ok_iff hread).mp hfound
  refine ⟨_, hfound, Path.strictlySorted_sort (nodup_ruleFiles h.proper hread extension),
    fun path => ?_⟩
  rw [← mem_ruleFiles_leavesOf_iff h.proper hread]
  exact (List.mergeSort_perm _ _).mem_iff

/-! ## Trees that list their entries differently -/

section Same

variable (hsame : ∀ place, other.kindAt place = tree.kindAt place)

include hsame

/-- Paths lead where they lead in a tree with the same nodes. -/
theorem FileTree.lead_of_kindAt_eq (path : Text) : other.lead false path = tree.lead false path :=
  lead_congr fun place _ => hsame place

theorem FileTree.leadsInto_of_kindAt_eq (h : tree.LeadsInto directoryPath location) :
    other.LeadsInto directoryPath location := by
  refine ⟨?_, (hsame location).trans h.2⟩
  rw [← h.1]
  exact follow_congr fun place _ => hsame place

/-- A directory can be read in a tree with the same nodes. -/
theorem FileTree.exists_listing_of_kindAt_eq
    (h : tree.listing directoryPath = .ok (location, entries)) :
    ∃ others, other.listing directoryPath = .ok (location, others) := by
  obtain ⟨hsteps, hinto, -⟩ := listing_eq_ok_iff.mp h
  have hinto' := leadsInto_of_kindAt_eq hsame hinto
  obtain ⟨name, others, hplace⟩ := exists_directory_of_kindAt hinto'.2
  exact ⟨others, listing_eq_ok_iff.mpr ⟨hsteps, hinto', name, hplace⟩⟩

/-- A path leads to a file or not by what stands where it ends. -/
theorem FileTree.isFile_of_kindAt_eq (path : Text) : other.isFile path = tree.isFile path := by
  rw [Bool.eq_iff_iff, isFile_iff, isFile_iff, lead_of_kindAt_eq hsame]
  simp only [hsame]

/-- **Trees with the same nodes have the same rule files.** -/
theorem FileTree.isRuleFile_of_kindAt_eq :
    other.IsRuleFile directoryPath location extension path
      ↔ tree.IsRuleFile directoryPath location extension path := by
  unfold IsRuleFile LiesUnder
  simp only [hsame, isFile_of_kindAt_eq hsame]

/-- **Trees with the same nodes can be searched alike.** -/
theorem FileTree.CanBeSearched.of_kindAt_eq (h : tree.CanBeSearched directoryPath location)
    (hproper : other.IsProper) : other.CanBeSearched directoryPath location where
  proper := hproper
  into := leadsInto_of_kindAt_eq hsame h.into
  readable names hnames := by
    obtain ⟨⟨place, entries⟩, hread⟩ := h.readable names ((hsame _).symm.trans hnames)
    obtain ⟨others, hread'⟩ := exists_listing_of_kindAt_eq hsame hread
    exact ⟨_, hread'⟩

end Same

end RuleTable
