import RuleTable.Proofs.Batch.Discovery

/-!
# Searching for rule files

Rule files are searched for by reading **pending** directories, one after the other: their
subdirectories become pending, and the rule files among their entries are **found**. The files
found and those under pending directories are together always the same, whichever directory is read
next and in whatever order its entries are listed; and what is pending gets less. So every search
ends, and with the same files. Links are not entered, so those that lead back do no harm.
-/

set_option autoImplicit false

namespace RuleTable

open FileTree

/-! ## Searches -/

/-- **A search for rule files**: the paths of the directories that are still to be read, and of the
files found. -/
structure Search where
  pending : List Text
  found : List Text

namespace Search

/-- A search starts at its directory. -/
def start (directoryPath : Text) : Search := ⟨[directoryPath], []⟩

/-- The directories among the entries of a directory, by their paths. -/
def subdirectories (path : Text) (entries : List FileTree) : List Text :=
  (entries.filter fun entry => entry.kind = .directory).map fun entry =>
    Path.child path entry.name

/-- The rule files among the entries of a directory, by their paths. -/
def filesIn (tree : FileTree) (extension path : Text) (entries : List FileTree) : List Text :=
  ruleFiles tree extension (entries.map fun entry => (Path.child path entry.name, entry))

/-- **A step of a search** reads a directory that is pending, whichever it is, and its entries in
whatever order they are listed. -/
inductive Step (tree : FileTree) (extension : Text) : Search → Search → Prop
  | read {before after found location : List Text} {path : Text} {entries listed : List FileTree}
      (hread : tree.listing path = .ok (location, entries)) (hlisted : listed.Perm entries) :
      Step tree extension ⟨before ++ path :: after, found⟩
        ⟨before ++ after ++ subdirectories path listed,
          found ++ filesIn tree extension path listed⟩

/-- What a search can come to. -/
def Reaches (tree : FileTree) (extension : Text) : Search → Search → Prop :=
  Relation.ReflTransGen (Step tree extension)

end Search

/-- The path of a directory with these entries, below the one that is searched. -/
def FileTree.IsBelow (tree : FileTree) (directoryPath : Text) (location : List Text) (path : Text)
    (entries : List FileTree) : Prop :=
  ∃ names, path = Path.under directoryPath names ∧
    tree.listing path = .ok (location ++ names, entries)

variable {tree entry : FileTree} {directoryPath path extension name : Text} {location : List Text}
  {entries listed below : List FileTree}

namespace FileTree

/-- The directory that is searched is the first of those below. -/
theorem IsBelow.of_listing (h : tree.listing directoryPath = .ok (location, entries)) :
    tree.IsBelow directoryPath location directoryPath entries :=
  ⟨[], rfl, (List.append_nil location).symm ▸ h⟩

/-- The entries of what is below have different names, which a path can go down to. -/
theorem IsBelow.names (h : tree.IsBelow directoryPath location path entries)
    (hproper : tree.IsProper) : (∀ entry ∈ entries, Path.IsName entry.name) ∧
      (entries.map FileTree.name).Nodup := by
  obtain ⟨names, -, hread⟩ := h
  obtain ⟨-, -, top, hplace⟩ := listing_eq_ok_iff.mp hread
  cases (hproper.of_at? hplace).1 with
  | directory hnames hnodup hbelow => exact ⟨hnames, hnodup⟩

/-- **A subdirectory of what is below** is below. -/
theorem IsBelow.child (h : tree.IsBelow directoryPath location path entries)
    (hsearch : tree.CanBeSearched directoryPath location)
    (hmem : directory name below ∈ entries) :
    tree.IsBelow directoryPath location (Path.child path name) below := by
  obtain ⟨hnames, hnodup⟩ := h.names hsearch.proper
  obtain ⟨names, rfl, hread⟩ := h
  obtain ⟨-, -, top, hplace⟩ := listing_eq_ok_iff.mp hread
  have hentry : tree.at? (location ++ names ++ [name]) = some (directory name below) := by
    rw [at?_append, hplace, Option.bind_some]
    exact at?_cons_of_mem hnodup hmem []
  have hkind : tree.kindAt (location ++ (names ++ [name])) = some .directory := by
    rw [kindAt, ← List.append_assoc, hentry]
    rfl
  obtain ⟨result, hresult⟩ := hsearch.readable (names ++ [name]) hkind
  rw [Path.under_concat] at hresult
  rw [listing_child hread hentry (hnames _ hmem) hresult, List.append_assoc] at hresult
  exact ⟨names ++ [name], (Path.under_concat _ _ _).symm, hresult⟩

end FileTree

/-! ## Files found and files left -/

namespace Search

/-- **The rule files under a directory** that is pending. -/
def filesUnder (tree : FileTree) (extension path : Text) : List Text :=
  match tree.listing path with
  | .ok (_, entries) => ruleFiles tree extension (leavesOf path entries)
  | .error _ => []

theorem filesUnder_of_isBelow (h : tree.IsBelow directoryPath location path entries)
    (extension : Text) :
    filesUnder tree extension path = ruleFiles tree extension (leavesOf path entries) := by
  obtain ⟨names, -, hread⟩ := h
  rw [filesUnder, hread]

theorem ruleFiles_append (tree : FileTree) (extension : Text)
    (leaves others : List (Text × FileTree)) :
    ruleFiles tree extension (leaves ++ others)
      = ruleFiles tree extension leaves ++ ruleFiles tree extension others := by
  rw [ruleFiles, List.filter_append, List.map_append]
  rfl

/-- An entry that is a directory is no rule file, but it is entered. -/
theorem filesIn_directory (tree : FileTree) (extension path name : Text) (below : List FileTree)
    (listed : List FileTree) :
    filesIn tree extension path (directory name below :: listed)
        = filesIn tree extension path listed ∧
      subdirectories path (directory name below :: listed)
        = Path.child path name :: subdirectories path listed :=
  ⟨rfl, rfl⟩

/-- An entry that is no directory is its own leaf, and is not entered. -/
theorem filesIn_leaf (hkind : entry.kind ≠ .directory) (tree : FileTree) (extension path : Text)
    (listed : List FileTree) :
    filesIn tree extension path (entry :: listed)
        = ruleFiles tree extension (leaves (Path.child path entry.name) entry)
          ++ filesIn tree extension path listed ∧
      subdirectories path (entry :: listed) = subdirectories path listed := by
  have hleaf : leaves (Path.child path entry.name) entry
      = [(Path.child path entry.name, entry)] := by
    cases entry with
    | file name content => rfl
    | link name target => rfl
    | directory name below => exact absurd rfl hkind
  constructor
  · rw [hleaf, filesIn, filesIn, ← ruleFiles_append]
    rfl
  · rw [subdirectories, List.filter_cons_of_neg (by simpa using hkind)]
    rfl

/-- **The rule files below entries** are those among the entries, and those under the directories
among them. -/
theorem perm_ruleFiles (h : tree.IsBelow directoryPath location path entries)
    (hsearch : tree.CanBeSearched directoryPath location)
    (hlisted : ∀ entry ∈ listed, entry ∈ entries) (extension : Text) :
    (ruleFiles tree extension (leavesOf path listed)).Perm
      (filesIn tree extension path listed
        ++ (subdirectories path listed).flatMap (filesUnder tree extension)) := by
  induction listed with
  | nil => exact .refl _
  | cons entry listed ih =>
      rw [List.forall_mem_cons] at hlisted
      have hlater := ih hlisted.2
      rw [leavesOf, ruleFiles_append]
      by_cases hkind : entry.kind = .directory
      · obtain ⟨name, below, rfl⟩ := exists_entries_of_kind hkind
        obtain ⟨hfiles, hsub⟩ := filesIn_directory tree extension path name below listed
        have hunder := filesUnder_of_isBelow (h.child hsearch hlisted.1) extension
        rw [hfiles, hsub, List.flatMap_cons, hunder]
        exact (hlater.append_left _).trans (List.perm_append_comm_assoc _ _ _)
      · obtain ⟨hfiles, hsub⟩ := filesIn_leaf hkind tree extension path listed
        rw [hfiles, hsub, List.append_assoc]
        exact hlater.append_left _

/-- **Reading a directory** splits the rule files under it into those found and those left. -/
theorem perm_filesUnder (h : tree.IsBelow directoryPath location path entries)
    (hsearch : tree.CanBeSearched directoryPath location) (hlisted : listed.Perm entries)
    (extension : Text) :
    (filesUnder tree extension path).Perm
      (filesIn tree extension path listed
        ++ (subdirectories path listed).flatMap (filesUnder tree extension)) := by
  have hperm : (ruleFiles tree extension (leavesOf path listed)).Perm
      (ruleFiles tree extension (leavesOf path entries)) := by
    rw [leavesOf_eq_flatMap, leavesOf_eq_flatMap]
    exact ((hlisted.flatMap_right _).filter _).map _
  rw [filesUnder_of_isBelow h]
  exact hperm.symm.trans
    (perm_ruleFiles h hsearch (fun entry hmem => hlisted.mem_iff.mp hmem) extension)

/-- **What a search keeps**: what is pending is below the directory that is searched, and the files
found, with those under what is pending, are the rule files under that directory. -/
structure Invariant (tree : FileTree) (directoryPath : Text) (location : List Text)
    (extension : Text) (search : Search) : Prop where
  pending : ∀ path ∈ search.pending, ∃ entries, tree.IsBelow directoryPath location path entries
  files : (search.found ++ search.pending.flatMap (filesUnder tree extension)).Perm
    (filesUnder tree extension directoryPath)

variable {search next : Search}

theorem invariant_start (hsearch : tree.CanBeSearched directoryPath location) (extension : Text) :
    Invariant tree directoryPath location extension (start directoryPath) where
  pending := by
    obtain ⟨entries, hread⟩ := hsearch.exists_listing
    exact List.forall_mem_singleton.mpr ⟨entries, .of_listing hread⟩
  files := by
    rw [start, List.nil_append, List.flatMap_singleton]

/-- The directories among the entries of what is below. -/
theorem exists_of_mem_subdirectories (hmem : path ∈ subdirectories directoryPath listed) :
    ∃ name below, directory name below ∈ listed ∧ path = Path.child directoryPath name := by
  obtain ⟨entry, hentry, rfl⟩ := List.mem_map.mp hmem
  obtain ⟨hlisted, hkind⟩ := List.mem_filter.mp hentry
  obtain ⟨name, below, rfl⟩ := exists_entries_of_kind (of_decide_eq_true hkind)
  exact ⟨name, below, hlisted, rfl⟩

/-- What is pending was read as it is below. -/
theorem Invariant.isBelow (h : Invariant tree directoryPath location extension search)
    (hpath : path ∈ search.pending) {place : List Text}
    (hread : tree.listing path = .ok (place, entries)) :
    tree.IsBelow directoryPath location path entries := by
  obtain ⟨others, names, hunder, hbelow⟩ := h.pending path hpath
  cases hread.symm.trans hbelow
  exact ⟨names, hunder, hbelow⟩

/-- **A step keeps what a search keeps.** -/
theorem Invariant.step (h : Invariant tree directoryPath location extension search)
    (hsearch : tree.CanBeSearched directoryPath location)
    (hstep : Step tree extension search next) :
    Invariant tree directoryPath location extension next := by
  obtain @⟨before, after, found, place, path, entries, listed, hread, hlisted⟩ := hstep
  have hbelow := h.isBelow (by simp) hread
  constructor
  · intro other hother
    rcases List.mem_append.mp hother with hother | hother
    · refine h.pending other ?_
      rcases List.mem_append.mp hother with hother | hother
      · exact List.mem_append_left _ hother
      · exact List.mem_append_right _ (List.mem_cons_of_mem _ hother)
    · obtain ⟨name, below, hmem, rfl⟩ := exists_of_mem_subdirectories hother
      exact ⟨below, hbelow.child hsearch (hlisted.mem_iff.mp hmem)⟩
  · -- The files under the directory are split, and nothing else is moved.
    have hsplit := perm_filesUnder hbelow hsearch hlisted extension
    refine .trans ?_ h.files
    rw [List.perm_iff_count]
    intro file
    have hcount := hsplit.count_eq file
    simp only [List.flatMap_append, List.flatMap_cons, List.count_append] at hcount ⊢
    omega

/-- **Whatever a search comes to** keeps what it started with. -/
theorem invariant_of_reaches (hsearch : tree.CanBeSearched directoryPath location)
    (hreach : Reaches tree extension (start directoryPath) search) :
    Invariant tree directoryPath location extension search := by
  induction hreach with
  | refl => exact invariant_start hsearch extension
  | tail hreach hstep ih => exact ih.step hsearch hstep

/-! ## Searches end -/

/-- The directories to be read at a path and below. -/
def branchesUnder (tree : FileTree) (path : Text) : List Text :=
  match tree.listing path with
  | .ok (_, entries) => path :: branchesOf path entries
  | .error _ => [path]

/-- How many directories a search has still to read. -/
def remaining (tree : FileTree) (search : Search) : Nat :=
  (search.pending.flatMap (branchesUnder tree)).length

theorem branchesUnder_of_isBelow (h : tree.IsBelow directoryPath location path entries) :
    branchesUnder tree path = path :: branchesOf path entries := by
  obtain ⟨names, -, hread⟩ := h
  rw [branchesUnder, hread]

/-- The directories below entries are read from those among them. -/
theorem flatMap_branchesUnder (h : tree.IsBelow directoryPath location path entries)
    (hsearch : tree.CanBeSearched directoryPath location)
    (hlisted : ∀ entry ∈ listed, entry ∈ entries) :
    (subdirectories path listed).flatMap (branchesUnder tree) = branchesOf path listed := by
  induction listed with
  | nil => rfl
  | cons entry listed ih =>
      rw [List.forall_mem_cons] at hlisted
      rw [branchesOf, ← ih hlisted.2]
      by_cases hkind : entry.kind = .directory
      · obtain ⟨name, below, rfl⟩ := exists_entries_of_kind hkind
        rw [(filesIn_directory tree [] path name below listed).2, List.flatMap_cons,
          branchesUnder_of_isBelow (h.child hsearch hlisted.1), branches]
        rfl
      · rw [(filesIn_leaf hkind tree [] path listed).2, branches_of_kind hkind, List.nil_append]

/-- **A step leaves one directory less to read.** -/
theorem Invariant.remaining_eq (h : Invariant tree directoryPath location extension search)
    (hsearch : tree.CanBeSearched directoryPath location)
    (hstep : Step tree extension search next) :
    remaining tree search = remaining tree next + 1 := by
  obtain @⟨before, after, found, place, path, entries, listed, hread, hlisted⟩ := hstep
  have hbelow := h.isBelow (by simp) hread
  have hsub : ((subdirectories path listed).flatMap (branchesUnder tree)).length
      = (branchesOf path entries).length := by
    rw [flatMap_branchesUnder hbelow hsearch fun entry hmem => hlisted.mem_iff.mp hmem,
      branchesOf_eq_flatMap, branchesOf_eq_flatMap]
    exact (hlisted.flatMap_right _).length_eq
  have hhere : (branchesUnder tree path).length = (branchesOf path entries).length + 1 := by
    rw [branchesUnder_of_isBelow hbelow, List.length_cons]
  simp only [remaining, List.flatMap_append, List.flatMap_cons, List.length_append]
  omega

/-- **Every search ends.** -/
theorem Invariant.acc (h : Invariant tree directoryPath location extension search)
    (hsearch : tree.CanBeSearched directoryPath location) :
    Acc (fun next search => Step tree extension search next) search := by
  induction hremaining : remaining tree search using Nat.strong_induction_on
    generalizing search with
  | h left ih =>
      refine Acc.intro search fun next hstep => ?_
      have hless := h.remaining_eq hsearch hstep
      exact ih _ (by omega) (h.step hsearch hstep) rfl

/-- **A search goes on** while directories are pending. -/
theorem Invariant.exists_step (h : Invariant tree directoryPath location extension search)
    (hpending : search.pending ≠ []) : ∃ next, Step tree extension search next := by
  obtain ⟨pending, found⟩ := search
  obtain ⟨path, later, rfl⟩ := List.exists_cons_of_ne_nil hpending
  obtain ⟨entries, names, -, hread⟩ := h.pending path List.mem_cons_self
  have hstep : Step tree extension ⟨[] ++ path :: later, found⟩ _ := .read hread (.refl entries)
  exact ⟨_, hstep⟩

end Search

/-! ## What is found -/

/-- **Rule files are found** under a directory: these and no others, each once and in the order of
paths. Every search for them ends, in whatever order directories are read and entries are listed,
and ends with them; and so does looking for them in a tree that lists its entries in another
order. -/
structure FileTree.Finds (tree : FileTree) (directoryPath : Text) (location : List Text)
    (extension : Text) (found : List Text) : Prop where
  files : ∀ path, path ∈ found ↔ tree.IsRuleFile directoryPath location extension path
  order : Path.StrictlySorted found
  ends : Acc (fun next search => Search.Step tree extension search next) (.start directoryPath)
  goesOn : ∀ search, Search.Reaches tree extension (.start directoryPath) search →
    search.pending ≠ [] → ∃ next, Search.Step tree extension search next
  result : ∀ search, Search.Reaches tree extension (.start directoryPath) search →
    search.pending = [] → Path.sort search.found = found
  anyListing : ∀ other, other.IsProper → (∀ place, other.kindAt place = tree.kindAt place) →
    findFiles other directoryPath extension = .ok found

/-- **What looking for rule files finds**, in a directory that can be searched. -/
theorem FileTree.CanBeSearched.finds (h : tree.CanBeSearched directoryPath location)
    (extension : Text) : ∃ found, findFiles tree directoryPath extension = .ok found ∧
      tree.Finds directoryPath location extension found := by
  obtain ⟨entries, hread⟩ := h.exists_listing
  have hnodup := nodup_ruleFiles h.proper hread extension
  obtain ⟨found, hfound, horder, hfiles⟩ := h.exists_findFiles extension
  have hsorted := ((findFiles_eq_ok_iff hread).mp hfound).2
  refine ⟨found, hfound, ?_⟩
  exact {
    files := hfiles
    order := horder
    ends := (Search.invariant_start h extension).acc h
    goesOn := fun search hreach => (Search.invariant_of_reaches h hreach).exists_step
    result := by
      intro search hreach hpending
      have hkept := (Search.invariant_of_reaches h hreach).files
      rw [hpending, List.flatMap_nil, List.append_nil,
        Search.filesUnder_of_isBelow (.of_listing hread)] at hkept
      rw [← hsorted]
      exact Path.sort_eq_of_perm hkept hnodup
    anyListing := by
      intro other hproper hsame
      obtain ⟨found', hfound', horder', hfiles'⟩ :=
        (h.of_kindAt_eq hsame hproper).exists_findFiles extension
      rw [hfound', horder'.eq_of_mem_iff horder fun path => ?_]
      rw [hfiles', hfiles, isRuleFile_of_kindAt_eq hsame] }

/-- A file, a link to it, a link to its directory, and a directory with the name of a file. -/
def loopedEntries : List FileTree :=
  [.link "loop".toList (Path.steps "in".toList),
    .link "alias.txt".toList (Path.steps "in/a.txt".toList), .directory "folder.txt".toList [],
    .file "a.txt".toList .bytes]

/-- The tree with these entries in one directory. -/
def loopedTree : FileTree := .directory [] [.directory "in".toList loopedEntries]

theorem isProper_loopedTree : loopedTree.IsProper := by
  refine .directory (by decide) (by decide) (List.forall_mem_singleton.mpr ?_)
  refine .directory (by decide) (by decide) fun entry hmem => ?_
  simp only [loopedEntries, List.mem_cons, List.not_mem_nil, or_false] at hmem
  rcases hmem with rfl | rfl | rfl | rfl
  · exact .link _ _
  · exact .link _ _
  · exact .directory (List.forall_mem_nil _) List.nodup_nil (List.forall_mem_nil _)
  · exact .file _ _

/-- The only directory below the one that is searched can be read, too. -/
theorem canBeSearched_loopedTree : loopedTree.CanBeSearched "in".toList ["in".toList] where
  proper := isProper_loopedTree
  into := ⟨by cbv, rfl⟩
  readable := by
    have htop : loopedTree.listing (Path.under "in".toList [])
        = .ok (["in".toList], loopedEntries) := by cbv
    have hfolder : loopedTree.listing (Path.under "in".toList ["folder.txt".toList])
        = .ok (["in".toList, "folder.txt".toList], []) := by cbv
    intro names hkind
    cases names with
    | nil => exact ⟨_, htop⟩
    | cons name names =>
        have hbelow : ( entry? (directory "in".toList loopedEntries) name).bind (kindAt · names)
            = some .directory := (kindAt_cons _ name names).symm.trans hkind
        obtain ⟨entry, hentry, hdirectory⟩ := Option.bind_eq_some_iff.mp hbelow
        obtain ⟨folder, below, rfl⟩ := exists_entries_of_kindAt hdirectory
        obtain rfl : folder = name := (name_of_entry hentry).1
        have hmem : directory folder below ∈ loopedEntries := List.mem_of_find?_eq_some hentry
        simp only [loopedEntries, List.mem_cons, List.not_mem_nil, or_false, reduceCtorEq, false_or,
          FileTree.directory.injEq] at hmem
        obtain ⟨rfl, rfl⟩ := hmem
        cases names with
        | nil => exact ⟨_, hfolder⟩
        | cons later names => cases hdirectory

/-- **The file and the link to it are found.** -/
theorem finds_loopedTree :
    loopedTree.CanBeSearched "in".toList ["in".toList] ∧
    findFiles loopedTree "in".toList "txt".toList
      = .ok ["in/a.txt".toList, "in/alias.txt".toList] ∧
    loopedTree.Finds "in".toList ["in".toList] "txt".toList
      ["in/a.txt".toList, "in/alias.txt".toList] := by
  obtain ⟨found, hfound, hfinds⟩ := canBeSearched_loopedTree.finds "txt".toList
  have hread : loopedTree.listing "in".toList = .ok (["in".toList], loopedEntries) := by cbv
  have hfolder : loopedTree.listing "in/folder.txt".toList
      = .ok (["in".toList, "folder.txt".toList], []) := by cbv
  have halias : loopedTree.isFile "in/alias.txt".toList = true := by cbv
  have hleaves : ruleFiles loopedTree "txt".toList (leavesOf "in".toList loopedEntries)
      = ["in/alias.txt".toList, "in/a.txt".toList] := by
    show List.map _ (List.filter _ [("in/loop".toList, _), ("in/alias.txt".toList, _),
      ("in/a.txt".toList, _)]) = _
    rw [List.filter_cons_of_neg, List.filter_cons_of_pos, List.filter_cons_of_pos]
    · rfl
    · exact Bool.and_eq_true_iff.mpr ⟨rfl, by decide⟩
    · exact Bool.and_eq_true_iff.mpr ⟨halias, by decide⟩
    · exact fun h => absurd (Bool.and_eq_true_iff.mp h).2 (by decide)
  have hfiles : findFiles loopedTree "in".toList "txt".toList
      = .ok ["in/a.txt".toList, "in/alias.txt".toList] := by
    refine (findFiles_eq_ok_iff hread).mpr ⟨List.forall_mem_singleton.mpr ⟨_, hfolder⟩, ?_⟩
    rw [hleaves]
    exact Path.StrictlySorted.sort_eq (List.pairwise_pair.mpr (by decide)) (.swap _ _ [])
      (by decide)
  cases hfiles.symm.trans hfound
  exact ⟨canBeSearched_loopedTree, hfiles, hfinds⟩

/-! ## Long paths -/

/-- **A place that resolves to a file**, through the links on the way. -/
def FileTree.ResolvesToFile (tree : FileTree) (place : List Text) : Prop :=
  ∃ location content, tree.resolve false (place.map .down) = .ok (.node location) ∧
    tree.kindAt location = some (.file content)

/-- **A file with an extension under a directory, whatever its path**: a link counts if it resolves
to a file. -/
def FileTree.IsResolvedFile (tree : FileTree) (directoryPath : Text) (location : List Text)
    (extension path : Text) : Prop :=
  tree.LiesUnder directoryPath location extension (fun _ place => tree.ResolvesToFile place) path

/-- A name that is nearly as long as names can be. -/
@[irreducible]
def longName : Text := List.replicate 250 'b' ++ ".txt".toList

/-- A path that is nearly as long as paths can be, with slashes at its end. -/
@[irreducible]
def longPath : Text := "in".toList ++ List.replicate 3900 '/'

/-- A file, and a link to it. -/
def linkedEntries : List FileTree :=
  [.file "a.txt".toList .bytes, .link longName (Path.steps "in/a.txt".toList)]

/-- The tree with these entries in one directory. -/
def linkedTree : FileTree := .directory [] [.directory "in".toList linkedEntries]

theorem isProper_linkedTree : linkedTree.IsProper := by
  refine .directory (by decide) (by decide) (List.forall_mem_singleton.mpr ?_)
  refine .directory (by decide +kernel) (by decide +kernel) fun entry hmem => ?_
  rcases List.mem_pair.mp hmem with rfl | rfl
  · exact .file _ _
  · exact .link _ _

/-- The link resolves to the file. -/
theorem resolvesToFile_linkedTree : linkedTree.ResolvesToFile ["in".toList, longName] := by
  have htop : linkedTree.guideAt [] = some .directory := rfl
  have hdirectory : linkedTree.guideAt ["in".toList] = some .directory := rfl
  have hlink : linkedTree.guideAt ["in".toList, longName]
      = some (.link (Path.steps "in/a.txt".toList)) := by
    decide +kernel
  have hshort : ¬ maxNameSize < Text.utf8Size longName := by decide +kernel
  have hfile : linkedTree.follow false 39 [] (Path.steps "in/a.txt".toList ++ [])
      = .ok (.node ["in".toList, "a.txt".toList]) := by
    rw [linkedTree, linkedEntries]
    generalize longName = name
    cbv
  refine ⟨["in".toList, "a.txt".toList], .bytes, ?_, rfl⟩
  rw [List.map_cons, List.map_singleton, resolve, follow_into htop rfl hdirectory,
    if_neg (by decide)]
  exact (follow_through hdirectory rfl hlink).trans ((if_neg hshort).trans hfile)

/-- The long path can be read. -/
theorem listing_longPath : linkedTree.listing longPath = .ok (["in".toList], linkedEntries) := by
  have hne : longPath ≠ [] := by decide +kernel
  have hnul : '\x00' ∉ longPath := by
    rw [longPath, List.mem_append, List.mem_replicate]
    decide
  have hshort : Text.utf8Size longPath ≤ Path.maxSize := by
    rw [longPath, Text.utf8Size_append, Text.utf8Size_replicate]
    decide
  have hinto : linkedTree.LeadsInto longPath ["in".toList] := by
    rw [leadsInto_iff, longPath, Path.dropSlash_steps_append, linkedTree, linkedEntries]
    generalize longName = name
    exact ⟨by cbv, rfl⟩
  exact listing_eq_ok_iff.mpr
    ⟨Path.checkedSteps_eq_ok_iff.mpr ⟨hne, hnul, hshort, rfl⟩, hinto, _, rfl⟩

/-- Among the entries there is no directory. -/
theorem canBeSearched_linkedTree : linkedTree.CanBeSearched longPath ["in".toList] where
  proper := isProper_linkedTree
  into := (listing_eq_ok_iff.mp listing_longPath).2.1
  readable names hnames := by
    cases names with
    | nil => exact ⟨_, listing_longPath⟩
    | cons name names =>
        have hbelow : ( entry? (directory "in".toList linkedEntries) name).bind (kindAt · names)
            = some .directory := (kindAt_cons _ name names).symm.trans hnames
        obtain ⟨entry, hentry, hdirectory⟩ := Option.bind_eq_some_iff.mp hbelow
        obtain ⟨folder, below, rfl⟩ := exists_entries_of_kindAt hdirectory
        have hmem : directory folder below ∈ linkedEntries := List.mem_of_find?_eq_some hentry
        simp [linkedEntries] at hmem

/-- Behind the long path the name is too long to be followed. -/
theorem isFile_longPath : linkedTree.isFile (Path.child longPath longName) = false := by
  have hlong : Path.maxSize < Text.utf8Size (Path.child longPath longName) := by
    refine Nat.lt_of_lt_of_le ?_ (Path.utf8Size_le_child longPath longName)
    rw [longPath, Text.utf8Size_append, Text.utf8Size_replicate, longName, Text.utf8Size_append,
      Text.utf8Size_replicate]
    decide
  rw [Bool.eq_false_iff, Ne, isFile_iff]
  rintro ⟨location, content, hlead, -⟩
  obtain ⟨steps, hsteps, -⟩ := exists_of_bind_eq_ok hlead
  exact absurd (Path.checkedSteps_eq_ok_iff.mp hsteps).2.2.1 (Nat.not_le.mpr hlong)

/-- By the long path only the file is found. -/
theorem findFiles_longPath : findFiles linkedTree longPath "txt".toList
    = .ok [Path.child longPath "a.txt".toList] := by
  have hends : Path.extension? (Path.child longPath "a.txt".toList) = some "txt".toList :=
    (Path.extension?_child (by decide)).trans (by decide)
  have hfiles : ruleFiles linkedTree "txt".toList (leavesOf longPath linkedEntries)
      = [Path.child longPath "a.txt".toList] := by
    show List.map _ (List.filter _ [(Path.child longPath "a.txt".toList, _),
      (Path.child longPath longName, _)]) = _
    rw [List.filter_cons_of_pos, List.filter_cons_of_neg, List.filter_nil, List.map_singleton]
    · show ¬ (linkedTree.isFile (Path.child longPath longName) && _) = true
      rw [isFile_longPath]
      exact Bool.false_ne_true
    · exact beq_iff_eq.mpr hends
  refine (findFiles_eq_ok_iff listing_longPath).mpr ⟨List.forall_mem_nil _, ?_⟩
  rw [hfiles]
  exact List.mergeSort_singleton _

/-- **A link may be lost by a long path**: it resolves to a file, and the directory can be searched,
but the path to it is too long. -/
theorem not_finds_longPath : linkedTree.CanBeSearched longPath ["in".toList] ∧
    ∃ found, findFiles linkedTree longPath "txt".toList = .ok found ∧
      ¬ ∀ path, path ∈ found
        ↔ linkedTree.IsResolvedFile longPath ["in".toList] "txt".toList path := by
  have hlies : linkedTree.IsResolvedFile longPath ["in".toList] "txt".toList
      (Path.child longPath longName) := by
    have hends : (Path.splitName longName).2 = some "txt".toList := by decide +kernel
    have hlink : linkedTree.kindAt ["in".toList, longName]
        = some (.link (Path.steps "in/a.txt".toList)) := by decide +kernel
    refine ⟨[], longName, rfl, fun front hfront => ?_,
      Or.inr ⟨⟨_, hlink⟩, resolvesToFile_linkedTree⟩, hends⟩
    rw [List.prefix_nil.mp hfront]
    rfl
  refine ⟨canBeSearched_linkedTree, _, findFiles_longPath, fun h => ?_⟩
  have hsame := congrArg Path.fileName? (List.mem_singleton.mp ((h _).mpr hlies))
  have hname : Path.IsName longName := by decide +kernel
  rw [Path.fileName?_child hname, Path.fileName?_child (by decide)] at hsame
  have hne : longName ≠ "a.txt".toList := by decide +kernel
  exact hne (Option.some.inj hsame)

end RuleTable
