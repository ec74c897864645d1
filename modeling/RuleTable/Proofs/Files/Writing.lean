import RuleTable.Proofs.Files.Way
import RuleTable.Proofs.Steps

/-!
# What reading and writing depend on

Reading a file depends only on what stands on the way of its path. Writing a file changes what
stands at one place, the **landing** of its path, where there was nothing or a file before; so the
directories and links of a tree stay as they are, and with them all ways and all landings.
-/

set_option autoImplicit false

namespace RuleTable

namespace FileTree

variable {tree other : FileTree} {path : Text} {content : Content} {making : Bool}

/-! ## Ways and landings of paths -/

/-- Where a path leads from the top of a tree. -/
def lead (tree : FileTree) (making : Bool) (path : Text) : Except FileError Destination :=
  Path.checkedSteps path >>= tree.resolve making

/-- **The way of a path** from the top of a tree. A text that files cannot be looked for with has
none. -/
def wayOf (tree : FileTree) (path : Text) : List (List Text) :=
  match Path.checkedSteps path with
  | .ok steps => way tree.guideAt maxLinks [] steps
  | .error _ => []

/-- **Where a file goes** that is written to a path, unless it cannot be written: where the path
leads, if no directory is there. -/
def landing? (tree : FileTree) (path : Text) : Option (List Text) :=
  (placeOf? (tree.lead true path)).filter fun place => (tree.guideAt place).isNone

/-- Whether two trees agree on what stands at places. -/
def AgreeOn (tree other : FileTree) (places : List (List Text)) : Prop :=
  ∀ place ∈ places, tree.kindAt place = other.kindAt place

/-- The way of a path depends on directories and links only. -/
theorem wayOf_congr (h : tree.guideAt = other.guideAt) (path : Text) :
    tree.wayOf path = other.wayOf path := by
  rw [wayOf, wayOf, h]

/-- Where a file goes depends on directories and links only. -/
theorem landing?_congr (h : tree.guideAt = other.guideAt) (path : Text) :
    tree.landing? path = other.landing? path := by
  rw [landing?, landing?, lead, lead, h]
  cases Path.checkedSteps path with
  | error error => rfl
  | ok steps => exact congrArg (Option.filter _) (placeOf?_follow_congr h)

/-- **Trees that agree on the way of a path** agree on where it leads. -/
theorem lead_congr (h : tree.AgreeOn other (tree.wayOf path)) :
    tree.lead making path = other.lead making path := by
  rw [wayOf] at h
  rw [lead, lead]
  cases hsteps : Path.checkedSteps path with
  | error error => rfl
  | ok steps =>
      rw [hsteps] at h
      exact follow_congr h

/-- **Where a path leads** is on its way, and what stands there is as the destination says. -/
theorem lead_spec {destination : Destination} (h : tree.lead making path = .ok destination) :
    destination.place ∈ tree.wayOf path ∧ destination.Stands tree := by
  obtain ⟨steps, hsteps, hfollow⟩ := exists_of_bind_eq_ok h
  have htop : tree.kindAt [] ≠ none := Option.some_ne_none tree.kind
  rw [wayOf, hsteps]
  exact follow_spec htop hfollow

/-- A file goes where its path leads, if no directory is there. -/
theorem landing?_of_lead {destination : Destination}
    (hlead : tree.lead true path = .ok destination)
    (hplace : tree.guideAt destination.place = none) :
    tree.landing? path = some destination.place := by
  rw [landing?, hlead]
  exact Option.filter_some_pos (by rw [hplace]; rfl)

theorem landing?_eq_none_of_lead {destination : Destination} {kind : Kind}
    (hlead : tree.lead true path = .ok destination)
    (hplace : tree.guideAt destination.place = some kind) : tree.landing? path = none := by
  rw [landing?, hlead]
  exact Option.filter_some_neg (by rw [hplace]; rfl)

/-- A landing is on the way of its path. -/
theorem mem_wayOf_of_landing? {place : List Text} (h : tree.landing? path = some place) :
    place ∈ tree.wayOf path := by
  obtain ⟨hplace, -⟩ := Option.filter_eq_some_iff.mp h
  obtain ⟨destination, hlead, rfl⟩ := Option.map_eq_some_iff.mp hplace
  cases hresult : tree.lead true path with
  | error error => rw [hresult] at hlead; cases hlead
  | ok result =>
      rw [hresult] at hlead
      cases hlead
      exact (lead_spec hresult).1

/-! ## Reading -/

/-- The text that is read where this stands. -/
def readKind : Option Kind → Except FileError Text
  | some (.file (.text text)) => .ok text
  | some (.file .bytes) => .error .notText
  | some _ => .error .isADirectory
  | none => .error .notFound

/-- The text that is read where a path leads. -/
def readAt (tree : FileTree) : Destination → Except FileError Text
  | .free _ _ => .error .notFound
  | .node location => readKind (tree.kindAt location)

/-- A path is read by where it leads and what stands there. -/
theorem readText_eq (tree : FileTree) (path : Text) :
    tree.readText path = tree.lead false path >>= tree.readAt := by
  rw [readText, lead]
  cases Path.checkedSteps path with
  | error error => rfl
  | ok steps =>
      simp only [node, bind, Except.bind]
      cases tree.resolve false steps with
      | error error => rfl
      | ok destination =>
          cases destination with
          | free location key => rfl
          | node location =>
              dsimp only [readAt, kindAt]
              rcases tree.at? location with _ | ⟨_, _ | _⟩ | _ | _ <;> rfl

/-- **A file is read alike** in trees that agree on the way of its path. -/
theorem readText_congr (h : tree.AgreeOn other (tree.wayOf path)) :
    tree.readText path = other.readText path := by
  rw [readText_eq, readText_eq, ← lead_congr h]
  cases hlead : tree.lead false path with
  | error error => rfl
  | ok destination =>
      cases destination with
      | free location key => rfl
      | node location => exact congrArg readKind (h location (lead_spec hlead).1)

/-! ## Writing -/

/-- The tree with a file written where a path leads. -/
def writeAt (tree : FileTree) (content : Content) : Destination → Except FileError FileTree
  | .free location key => .ok (tree.putAt location (file key content))
  | .node location =>
      match tree.at? location with
      | some (.file key _) => .ok (tree.putAt location.dropLast (file key content))
      | _ => .error .isADirectory

/-- A path is written by where it leads. -/
theorem writeFile_eq (tree : FileTree) (path : Text) (content : Content) :
    tree.writeFile path content = tree.lead true path >>= tree.writeAt content := by
  rw [writeFile, lead]
  cases Path.checkedSteps path with
  | error error => rfl
  | ok steps =>
      simp only [bind, Except.bind]
      cases tree.resolve true steps with
      | error error => rfl
      | ok destination =>
          cases destination with
          | free location key => rfl
          | node location =>
              dsimp only [writeAt]
              rcases tree.at? location with _ | ⟨_ | _ | _⟩ <;> rfl

/-- **A tree with a file written**: at one place stands the file, and elsewhere stands what did. -/
def IsWritten (tree : FileTree) (place : List Text) (content : Content) (written : FileTree) :
    Prop :=
  ∀ location, written.kindAt location
    = if location = place then some (.file content) else tree.kindAt location

/-- A file is written to a place where nothing stands. -/
theorem isWritten_free {location : List Text} {key : Text}
    (h : (Destination.free location key).Stands tree) :
    tree.IsWritten (location ++ [key]) content (tree.putAt location (file key content)) :=
  fun _ => kindAt_putAt h.1 (by simp [h.2]) _

/-- A file is written over one, which is below the top of the tree. -/
theorem isWritten_node (hroot : tree.kind = .directory) {location : List Text} {key : Text}
    {old : Content} (h : tree.at? location = some (file key old)) :
    tree.IsWritten location content (tree.putAt location.dropLast (file key content)) := by
  rcases List.eq_nil_or_concat location with rfl | ⟨front, last, rfl⟩
  · cases h
    cases hroot
  · rw [List.concat_eq_append] at h ⊢
    obtain ⟨hname, hdirectory⟩ := name_of_at?_append h
    have hkey : key = last := hname
    subst hkey
    rw [List.dropLast_concat]
    exact fun _ => kindAt_putAt hdirectory (by simp [kindAt, h, kind]) _

/-- **Where a path leads, a file is written** unless a directory or link is there. -/
theorem writeAt_spec (hroot : tree.kind = .directory) {destination : Destination}
    (hstands : destination.Stands tree) (content : Content) :
    (tree.guideAt destination.place = none ∧ ∃ written,
      tree.writeAt content destination = .ok written ∧
        tree.IsWritten destination.place content written) ∨
    (tree.guideAt destination.place ≠ none ∧
      tree.writeAt content destination = .error .isADirectory) := by
  cases destination with
  | free location key =>
      refine Or.inl ⟨?_, _, rfl, isWritten_free hstands⟩
      simp [Destination.place, guideAt, hstands.2]
  | node location =>
      cases hnode : tree.at? location with
      | none => exact absurd (by rw [kindAt, hnode]; rfl) hstands
      | some node =>
          have hkind : tree.kindAt location = some node.kind := by rw [kindAt, hnode]; rfl
          cases node with
          | file key old =>
              have hwrite : tree.writeAt content (.node location)
                  = .ok (tree.putAt location.dropLast (file key content)) := by
                simp [writeAt, hnode]
              refine Or.inl ⟨?_, _, hwrite, isWritten_node hroot hnode⟩
              simp [Destination.place, guideAt, hkind, kind, Kind.guides]
          | link name target =>
              refine Or.inr ⟨?_, by simp [writeAt, hnode]⟩
              simp [Destination.place, guideAt, hkind, kind, Kind.guides]
          | directory name entries =>
              refine Or.inr ⟨?_, by simp [writeAt, hnode]⟩
              simp [Destination.place, guideAt, hkind, kind, Kind.guides]

/-- **A file is written** where its path leads, or not at all. -/
theorem writeFile_spec (hroot : tree.kind = .directory) (path : Text) (content : Content) :
    (∃ place written, tree.landing? path = some place ∧
      tree.writeFile path content = .ok written ∧ tree.IsWritten place content written) ∨
    (tree.landing? path = none ∧ ∃ error, tree.writeFile path content = .error error) := by
  rw [writeFile_eq, landing?]
  cases hlead : tree.lead true path with
  | error error => exact Or.inr ⟨rfl, error, rfl⟩
  | ok destination =>
      rcases writeAt_spec hroot (lead_spec hlead).2 content with
        ⟨hguide, written, hwrite, hwritten⟩ | ⟨hguide, hwrite⟩
      · refine Or.inl ⟨destination.place, written, ?_, hwrite, hwritten⟩
        exact Option.filter_eq_some_iff.mpr ⟨rfl, by rw [hguide]; rfl⟩
      · refine Or.inr ⟨Option.filter_eq_none_iff.mpr ?_, .isADirectory, hwrite⟩
        rintro place ⟨⟩
        exact fun hnone => hguide (Option.isNone_iff_eq_none.mp hnone)

/-- **A file is written alike** to trees that agree on the way of its path: to the same place in
both, or to neither for the same reason. -/
theorem writeFile_congr (hroot : tree.kind = .directory) (hroot' : other.kind = .directory)
    (h : tree.AgreeOn other (tree.wayOf path)) (content : Content) :
    (∃ error, tree.writeFile path content = .error error ∧
      other.writeFile path content = .error error) ∨
    ∃ place written written',
      tree.writeFile path content = .ok written ∧ tree.IsWritten place content written ∧
      other.writeFile path content = .ok written' ∧ other.IsWritten place content written' := by
  have hlead' : tree.lead true path = other.lead true path := lead_congr h
  rw [writeFile_eq, writeFile_eq, ← hlead']
  cases hlead : tree.lead true path with
  | error error => exact Or.inl ⟨error, rfl, rfl⟩
  | ok destination =>
      have hguide : tree.guideAt destination.place = other.guideAt destination.place := by
        rw [guideAt, guideAt, h _ (lead_spec hlead).1]
      have hstands := (lead_spec (hlead'.symm.trans hlead)).2
      rcases writeAt_spec hroot (lead_spec hlead).2 content with
        ⟨hnone, written, hwrite, hwritten⟩ | ⟨hsome, hwrite⟩ <;>
      rcases writeAt_spec hroot' hstands content with
        ⟨hnone', written', hwrite', hwritten'⟩ | ⟨hsome', hwrite'⟩
      · exact Or.inr ⟨_, written, written', hwrite, hwritten, hwrite', hwritten'⟩
      · exact absurd (hguide.symm.trans hnone) hsome'
      · exact absurd (hguide.trans hnone') hsome
      · exact Or.inl ⟨.isADirectory, hwrite, hwrite'⟩

/-- Trees that agree somewhere still do after the same file is written to both. -/
theorem AgreeOn.isWritten {places : List (List Text)} {place : List Text}
    {written written' : FileTree} (h : tree.AgreeOn other places)
    (hwritten : tree.IsWritten place content written)
    (hwritten' : other.IsWritten place content written') : written.AgreeOn written' places := by
  intro location hl
  rw [hwritten, hwritten', h location hl]

/-- **Writing changes no directory and no link.** -/
theorem guideAt_of_isWritten {place : List Text} {written : FileTree}
    (hplace : tree.guideAt place = none) (h : tree.IsWritten place content written) :
    written.guideAt = tree.guideAt := by
  funext location
  rw [guideAt, h location]
  by_cases hsame : location = place
  · rw [if_pos hsame, hsame, hplace]
    rfl
  · rw [if_neg hsame, guideAt]

/-- A tree with the directories of one that has a top has a top itself. -/
theorem kind_of_guideAt_eq (h : other.guideAt = tree.guideAt) (hroot : tree.kind = .directory) :
    other.kind = .directory := by
  have htop : tree.guideAt [] = some .directory :=
    guideAt_eq_some_iff.mpr ⟨congrArg some hroot, rfl⟩
  have hkind : other.kindAt [] = some .directory := kindAt_of_guideAt (h ▸ htop)
  exact Option.some.inj hkind

/-- **A file is read where it was written.** -/
theorem readText_of_landing? {place : List Text} {text : Text}
    (hplace : tree.landing? path = some place)
    (hfile : tree.kindAt place = some (.file (.text text))) : tree.readText path = .ok text := by
  obtain ⟨hplace, -⟩ := Option.filter_eq_some_iff.mp hplace
  cases hlead : tree.lead true path with
  | error error =>
      rw [hlead] at hplace
      cases hplace
  | ok destination =>
      rw [hlead] at hplace
      cases hplace
      have hread : tree.lead false path = .ok destination := by
        obtain ⟨steps, hsteps, hfollow⟩ := exists_of_bind_eq_ok hlead
        rw [lead, hsteps]
        exact follow_of_making hfollow
      rw [readText_eq, hread]
      cases destination with
      | free location key => cases (lead_spec hlead).2.2.symm.trans hfile
      | node location => exact congrArg readKind hfile

/-! ## Making directories -/

/-- A path leads to what stands where it ends. -/
theorem node_eq_ok_iff {steps : List Step} {location : List Text} {node : FileTree} :
    tree.node steps = .ok (location, node) ↔
      tree.resolve false steps = .ok (.node location) ∧ tree.at? location = some node := by
  constructor
  · intro h
    rw [FileTree.node] at h
    obtain ⟨destination, hresolve, h⟩ := exists_of_bind_eq_ok h
    cases destination with
    | free place key => cases h
    | node place =>
        dsimp only at h
        split at h
        · next found hfound =>
            cases h
            exact ⟨hresolve, hfound⟩
        · cases h
  · rintro ⟨hresolve, hnode⟩
    rw [FileTree.node, hresolve]
    simp only [bind, Except.bind, hnode]
    rfl

/-- A tree in which a path leads to a directory has one at its top. -/
theorem kind_of_node {steps : List Step} {location : List Text} {name : Text}
    {entries : List FileTree} (h : tree.node steps = .ok (location, directory name entries)) :
    tree.kind = .directory := by
  obtain ⟨-, hnode⟩ := node_eq_ok_iff.mp h
  have hkind : tree.kindAt location = some .directory := by
    rw [kindAt, hnode]
    rfl
  obtain ⟨top, entries, rfl⟩ := exists_entries_of_kindAt hkind
  rfl

theorem kind_of_isDirectory {steps : List Step} (h : tree.isDirectory steps = true) :
    tree.kind = .directory := by
  rw [isDirectory] at h
  split at h
  · exact kind_of_node (by assumption)
  · cases h

theorem kind_of_addDirectory {steps : List Step} {made : FileTree}
    (h : tree.addDirectory steps = .ok made) : made.kind = .directory := by
  rw [addDirectory, add] at h
  obtain ⟨⟨location, node⟩, hnode, h⟩ := exists_of_bind_eq_ok h
  cases node with
  | directory name entries =>
      dsimp only at h
      split at h
      · split_ifs at h
        · cases h
        · cases h
        · cases h
        · rw [← Except.ok.inj h, kind_putAt, kind_of_node hnode]
      · cases h
  | file name content => cases h
  | link name target => cases h

/-- **Where a directory was ensured**, the top of the tree is one. -/
theorem kind_of_ensureDirectory {steps : List Step} {made : FileTree}
    (h : tree.ensureDirectory steps = .ok made) : made.kind = .directory := by
  fun_induction ensureDirectory tree steps generalizing made with
  | case1 steps tree hadd => exact kind_of_addDirectory (Except.ok.inj h ▸ hadd)
  | case2 | case3 | case6 | case8 => cases h
  | case4 steps _ _ _ hparent made' hadd ih => exact kind_of_addDirectory (Except.ok.inj h ▸ hadd)
  | case5 steps _ _ parent hparent _ _ hdirectory ih =>
      exact kind_of_isDirectory (Except.ok.inj h ▸ hdirectory)
  | case7 steps _ _ _ hdirectory => exact kind_of_isDirectory (Except.ok.inj h ▸ hdirectory)

theorem kind_of_makeDirectory {made : FileTree} (h : tree.makeDirectory path = .ok made) :
    made.kind = .directory := by
  obtain ⟨steps, -, hensure⟩ := exists_of_bind_eq_ok h
  exact kind_of_ensureDirectory hensure

end FileTree

end RuleTable
