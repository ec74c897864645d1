import RuleTable.Files.Access

/-!
# What stands at a location

A tree is seen location by location: nothing stands there, or a file with its content, a link with
its target, or a directory. Paths are followed, files are read and files are written by what
stands at the locations on the way, and by nothing else in the tree. Putting a file into a
directory changes what stands at one location only.
-/

set_option autoImplicit false

namespace RuleTable

namespace FileTree

/-! ## Kinds of nodes -/

/-- **What a node is**, apart from its name and from what lies below it. -/
inductive Kind
  | file (content : Content)
  | link (target : List Step)
  | directory
deriving DecidableEq

/-- The kind of a node. -/
def kind : FileTree → Kind
  | file _ content => .file content
  | link _ target => .link target
  | directory _ _ => .directory

/-- **What stands at a location**, if anything does. -/
def kindAt (tree : FileTree) (location : List Text) : Option Kind := (tree.at? location).map kind

variable {tree node : FileTree} {location keys : List Text} {key : Text} {content : Content}

/-- A longer location is looked up in the entry of its first name. -/
theorem kindAt_cons (tree : FileTree) (key : Text) (keys : List Text) :
    tree.kindAt (key :: keys) = (tree.entry? key).bind (kindAt · keys) :=
  Option.map_bind

theorem at?_append (tree : FileTree) (location keys : List Text) :
    tree.at? (location ++ keys) = (tree.at? location).bind (at? · keys) := by
  induction location generalizing tree with
  | nil => rfl
  | cons first location ih =>
      show (tree.entry? first).bind (at? · (location ++ keys)) = _
      rw [at?, Option.bind_assoc]
      exact Option.bind_congr fun entry _ => ih entry

/-- An entry is found under its own name, and only directories have entries. -/
theorem name_of_entry (h : tree.entry? key = some node) :
    node.name = key ∧ tree.kind = .directory := by
  have hname : (node.name == key) = true :=
    List.find?_some (p := fun entry : FileTree => entry.name == key) h
  refine ⟨eq_of_beq hname, ?_⟩
  cases tree with
  | directory name entries => rfl
  | file name content => cases h
  | link name target => cases h

/-- **What stands in a directory** has the name it is found by. -/
theorem name_of_at?_append (h : tree.at? (location ++ [key]) = some node) :
    node.name = key ∧ tree.kindAt location = some .directory := by
  rw [at?_append] at h
  obtain ⟨parent, hparent, h⟩ := Option.bind_eq_some_iff.mp h
  obtain ⟨entry, hentry, h⟩ := Option.bind_eq_some_iff.mp h
  cases h
  obtain ⟨hname, hkind⟩ := name_of_entry hentry
  exact ⟨hname, by rw [kindAt, hparent, Option.map_some, hkind]⟩

/-! ## Putting a file into a directory -/

/-- What is put in below a node leaves the node its name. -/
theorem name_putAt (tree : FileTree) (location : List Text) (node : FileTree) :
    (tree.putAt location node).name = tree.name := by
  cases location <;> cases tree <;> rfl

@[simp]
theorem kind_putAt (tree : FileTree) (location : List Text) (node : FileTree) :
    (tree.putAt location node).kind = tree.kind := by
  cases location <;> cases tree <;> rfl

/-- An entry that is put in is found, and the others are found as before. -/
theorem find?_putEntry (node : FileTree) (entries : List FileTree) (key : Text) :
    (putEntry node entries).find? (·.name == key)
      = if node.name = key then some node else entries.find? (·.name == key) := by
  induction entries with
  | nil => by_cases hkey : node.name = key <;> simp [putEntry, hkey]
  | cons entry entries ih =>
      rw [putEntry]
      by_cases hsame : entry.name = node.name
      · by_cases hkey : node.name = key <;> simp [hsame, hkey]
      · rw [if_neg hsame, List.find?_cons, List.find?_cons, ih]
        by_cases hkey : entry.name = key
        · have hother : node.name ≠ key := fun h => hsame (hkey.trans h.symm)
          simp only [beq_iff_eq.mpr hkey, if_neg hother]
        · simp only [beq_eq_false_iff_ne.mpr hkey]

/-- A name leads into the entry that was changed below it, and beside it as before. -/
theorem entry_putAt_cons (name first : Text) (entries : List FileTree) (key : Text) :
    entry? ((directory name entries).putAt (key :: keys) node) first
      = Option.map (fun entry => if entry.name = key then entry.putAt keys node else entry)
          ( entry? (directory name entries) first) := by
  show List.find? _ (List.map _ entries) = Option.map _ (List.find? _ entries)
  rw [List.find?_map]
  congr 2
  funext entry
  by_cases hkey : entry.name = key <;> simp [name_putAt, hkey]

/-- A node that has a directory at a location below it is one itself. -/
theorem exists_entries_of_kindAt {tree : FileTree} {location : List Text}
    (h : tree.kindAt location = some .directory) :
    ∃ name entries, tree = directory name entries := by
  cases tree with
  | directory name entries => exact ⟨name, entries, rfl⟩
  | file name content => cases location <;> cases h
  | link name target => cases location <;> cases h

theorem exists_entries_of_kind {tree : FileTree} (h : tree.kind = .directory) :
    ∃ name entries, tree = directory name entries := by
  have htop : tree.kindAt [] = some .directory := congrArg some h
  exact exists_entries_of_kindAt htop

/-- Below a node that is no directory nothing stands. -/
theorem kindAt_append_of_ne (h : tree.kindAt location ≠ some .directory) (key : Text)
    (keys : List Text) : tree.kindAt (location ++ key :: keys) = none := by
  rw [kindAt, Option.map_eq_none_iff, at?_append, Option.bind_eq_none_iff]
  intro node hnode
  refine Option.bind_eq_none_iff.mpr fun entry hentry => absurd ?_ h
  rw [kindAt, hnode, Option.map_some, (name_of_entry hentry).2]

/-- A file that is put into a directory stands there, and nothing else in it changes, unless there
was a directory of its name. -/
theorem kindAt_putAt_nil {name : Text} {entries : List FileTree}
    (hplace : (directory name entries).kindAt [key] ≠ some .directory) (other : List Text) :
    ((directory name entries).putAt [] (file key content)).kindAt other
      = if other = [key] then some (.file content) else (directory name entries).kindAt other := by
  cases other with
  | nil => rfl
  | cons first others =>
      have hentry : entry? ((directory name entries).putAt [] (file key content)) first
          = if key = first then some (file key content)
            else entry? (directory name entries) first :=
        find?_putEntry (file key content) entries first
      rw [kindAt_cons, hentry]
      by_cases hkey : key = first
      · subst hkey
        cases others with
        | nil =>
            rw [if_pos rfl, if_pos rfl]
            rfl
        | cons second others =>
            have hnone : (directory name entries).kindAt (key :: second :: others) = none :=
              kindAt_append_of_ne hplace second others
            rw [if_pos rfl, if_neg (by simp), hnone]
            rfl
      · have hne : first ≠ key := fun h => hkey h.symm
        rw [if_neg hkey, ← kindAt_cons, if_neg (by simp [hne])]

/-- **A file that is put into a directory below a tree** stands there, and nothing else changes,
unless there was a directory of its name. -/
theorem kindAt_putAt (hdirectory : tree.kindAt location = some .directory)
    (hplace : tree.kindAt (location ++ [key]) ≠ some .directory) (other : List Text) :
    (tree.putAt location (file key content)).kindAt other
      = if other = location ++ [key] then some (.file content) else tree.kindAt other := by
  induction location generalizing tree other with
  | nil =>
      obtain ⟨name, entries, rfl⟩ := exists_entries_of_kindAt hdirectory
      exact kindAt_putAt_nil hplace other
  | cons first location ih =>
      obtain ⟨name, entries, rfl⟩ := exists_entries_of_kindAt hdirectory
      cases other with
      | nil => rfl
      | cons second others =>
          rw [kindAt_cons] at hdirectory
          rw [List.cons_append, kindAt_cons] at hplace
          rw [kindAt_cons, entry_putAt_cons, kindAt_cons]
          by_cases hsecond : second = first
          · subst hsecond
            obtain ⟨entry, hentry, hbelow⟩ := Option.bind_eq_some_iff.mp hdirectory
            rw [hentry] at hplace ⊢
            have hname : entry.name = second := (name_of_entry hentry).1
            simpa [hname] using ih hbelow hplace others
          · rw [if_neg (by simp [hsecond])]
            refine Option.bind_map.trans (Option.bind_congr fun entry hentry => ?_)
            have hname : entry.name ≠ first := (name_of_entry hentry).1 ▸ hsecond
            simp [hname]

end FileTree

end RuleTable
