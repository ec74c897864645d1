import RuleTable.Proofs.Files.Writing
import RuleTable.Proofs.Text.Lines

/-!
# Names in a directory

The path of a **name** in a directory has the steps of the directory and one step more, down to the
name. So it leads nowhere unless the path of the directory leads into one, and from there it leads
to what has the name, unless that is a link, which leads on.
-/

set_option autoImplicit false

namespace RuleTable

open Text

theorem Text.utf8Size_append (text rest : Text) :
    utf8Size (text ++ rest) = utf8Size text + utf8Size rest := by
  rw [utf8Size, List.flatMap_append, List.length_append]
  rfl

theorem Text.utf8Size_replicate (n : Nat) (c : Char) :
    utf8Size (List.replicate n c) = n * c.utf8Size := by
  rw [utf8Size, List.flatMap_replicate]
  simp

namespace Path

/-! ## Paths of names -/

/-- **A name**: a piece of a path that goes down. -/
def IsName (name : Text) : Prop := '/' ∉ name ∧ stepOf? name = some (.down name)

instance (name : Text) : Decidable (IsName name) := inferInstanceAs (Decidable (_ ∧ _))

/-- The path of names under a directory, each in the one before. -/
def under (directory : Text) (names : List Text) : Text := names.foldl child directory

variable {path directory name : Text} {names : List Text}

theorem IsName.ne_nil (h : IsName name) : name ≠ [] := by
  rintro rfl
  cases h.2

/-- No piece of a path is the slash at its end. -/
theorem stepOf?_ne_slash (piece : Text) : stepOf? piece ≠ some .slash := by
  unfold stepOf?
  split_ifs <;> simp

theorem eq_of_stepOf? {piece : Text} (h : stepOf? piece = some (.down name)) : piece = name := by
  unfold stepOf? at h
  split_ifs at h
  · cases h
  · cases h
  · exact Step.down.inj (Option.some.inj h)

/-- **The steps of a path without the slash at its end** are those of its pieces. -/
theorem dropSlash_steps (path : Text) :
    dropSlash (steps path) = (splitOn '/' path).filterMap stepOf? := by
  unfold steps
  by_cases hslash : path.getLast? = some '/'
  · rw [if_pos hslash, dropSlash, if_pos List.getLast?_concat, List.dropLast_concat]
  · rw [if_neg hslash, List.append_nil, dropSlash, if_neg]
    intro hlast
    obtain ⟨piece, -, hpiece⟩ := List.mem_filterMap.mp (List.mem_of_getLast? hlast)
    exact stepOf?_ne_slash piece hpiece

/-- Slashes at the end of a path are passed over. -/
theorem dropSlash_steps_append (path : Text) (n : Nat) :
    dropSlash (steps (path ++ List.replicate n '/')) = dropSlash (steps path) := by
  induction n with
  | zero => rw [List.replicate_zero, List.append_nil]
  | succ n ih =>
      rw [List.replicate_succ', ← List.append_assoc, ← ih, dropSlash_steps, dropSlash_steps,
        splitOn_append_separator]
      simp [splitOn, stepOf?]

theorem steps_eq_or (path : Text) :
    steps path = dropSlash (steps path) ∨ steps path = dropSlash (steps path) ++ [.slash] := by
  rw [dropSlash_steps, steps]
  split_ifs
  · exact Or.inr rfl
  · exact Or.inl (List.append_nil _)

/-- **The path of a name** is the path of the directory, with a slash unless one is there, and the
name. -/
theorem exists_child_eq (directory name : Text) :
    ∃ front, child directory name = front ++ name ∧ directory <+: front ∧
      (splitOn '/' directory).filterMap stepOf? ++ (splitOn '/' name).filterMap stepOf?
        = (splitOn '/' (front ++ name)).filterMap stepOf? := by
  unfold child
  split_ifs with hends
  · refine ⟨directory, rfl, List.prefix_rfl, ?_⟩
    rcases List.eq_nil_or_concat directory with rfl | ⟨front, c, rfl⟩
    · rfl
    · -- The slash that is there already ends the pieces of the directory with an empty one.
      obtain rfl : c = '/' := by simpa using hends
      simp [splitOn_append_separator, splitOn, stepOf?]
  · refine ⟨directory ++ ['/'], rfl, List.prefix_append _ _, ?_⟩
    simp [splitOn_append_separator]

/-- The path of a name has the length of the path of the directory and of the name. -/
theorem utf8Size_le_child (directory name : Text) :
    utf8Size directory + utf8Size name ≤ utf8Size (child directory name) := by
  obtain ⟨front, hchild, ⟨back, rfl⟩, -⟩ := exists_child_eq directory name
  rw [hchild, utf8Size_append, utf8Size_append]
  omega

/-- **The steps of the path of a name**: those of the directory, and one down to the name. -/
theorem steps_child (h : IsName name) :
    steps (child directory name) = dropSlash (steps directory) ++ [.down name] := by
  obtain ⟨front, hchild, -, hpieces⟩ := exists_child_eq directory name
  have hlast : (front ++ name).getLast? ≠ some '/' := by
    rw [List.getLast?_append_of_ne_nil _ h.ne_nil]
    exact fun hslash => h.1 (List.mem_of_getLast? hslash)
  have hname : (splitOn '/' name).filterMap stepOf? = [.down name] := by
    rw [splitOn_of_not_mem h.1, List.filterMap_cons_some h.2, List.filterMap_nil]
  rw [hchild, steps, if_neg hlast, List.append_nil, ← hpieces, hname, dropSlash_steps]

/-- A slash at the end is no move. -/
theorem moves_eq (path : Text) : moves path = (dropSlash (steps path)).filter Step.isMove := by
  unfold moves
  rcases steps_eq_or path with hsteps | hsteps
  · rw [← hsteps]
  · conv_lhs => rw [hsteps]
    simp [Step.isMove]

/-- **The moves of the path of a name.** -/
theorem moves_child (h : IsName name) :
    moves (child directory name) = moves directory ++ [.down name] := by
  rw [moves, steps_child h, List.filter_append, ← moves_eq]
  rfl

theorem fileName?_child (h : IsName name) : fileName? (child directory name) = some name := by
  rw [fileName?, moves_child h, List.getLast?_concat]

/-- The extension of the path of a name is that of the name. -/
theorem extension?_child (h : IsName name) :
    extension? (child directory name) = (splitName name).2 := by
  rw [extension?, fileName?_child h]
  rfl

/-- **The moves of the path of names.** -/
theorem moves_under (h : ∀ name ∈ names, IsName name) :
    moves (under directory names) = moves directory ++ names.map .down := by
  induction names generalizing directory with
  | nil => exact (List.append_nil _).symm
  | cons name names ih =>
      rw [List.forall_mem_cons] at h
      calc moves (under (child directory name) names)
          = moves (child directory name) ++ names.map .down := ih h.2
        _ = moves directory ++ (name :: names).map .down := by
          rw [moves_child h.1, List.append_assoc]
          rfl

theorem under_concat (directory : Text) (names : List Text) (name : Text) :
    under directory (names ++ [name]) = child (under directory names) name :=
  List.foldl_append

/-- **The paths that files can be looked for with.** -/
theorem checkedSteps_eq_ok_iff {found : List Step} : checkedSteps path = .ok found ↔
    path ≠ [] ∧ '\x00' ∉ path ∧ utf8Size path ≤ maxSize ∧ found = steps path := by
  constructor
  · intro h
    rw [checkedSteps] at h
    split_ifs at h with hempty hnul hlong
    exact ⟨by simpa using hempty, by simpa using hnul, Nat.le_of_not_lt hlong,
      (Except.ok.inj h).symm⟩
  · rintro ⟨hne, hnul, hshort, rfl⟩
    rw [checkedSteps, if_neg (by simpa using hne), if_neg (by simpa using hnul),
      if_neg (Nat.not_lt.mpr hshort)]

end Path

namespace FileTree

variable {tree : FileTree} {links : Nat} {location place : List Text} {steps rest : List Step}
  {directory name : Text} {destination : Destination}

/-! ## Steps after steps -/

section Down

variable {step : Step} {key : Text} {target : List Step}

/-- A step down into a directory. -/
theorem follow_into (h : tree.guideAt location = some .directory) (hstep : down? step = some key)
    (hbelow : tree.guideAt (location ++ [key]) = some .directory) :
    tree.follow false links location (step :: steps)
      = if maxNameSize < utf8Size key then .error .nameTooLong
        else tree.follow false links (location ++ [key]) steps := by
  rw [follow_down (kindAt_of_guideAt h) hstep, kindAt_of_guideAt hbelow, Bool.false_and,
    if_neg Bool.false_ne_true]

/-- A step down through a link. -/
theorem follow_through (h : tree.guideAt location = some .directory)
    (hstep : down? step = some key)
    (hlink : tree.guideAt (location ++ [key]) = some (.link target)) :
    tree.follow false (links + 1) location (step :: steps)
      = if maxNameSize < utf8Size key then .error .nameTooLong
        else tree.follow false links [] (target ++ steps) := by
  rw [follow_down (kindAt_of_guideAt h) hstep, kindAt_of_guideAt hlink, Bool.false_and,
    if_neg Bool.false_ne_true]

/-- A step down to a link when no more links may be followed. -/
theorem exists_error_of_follow_zero (h : tree.guideAt location = some .directory)
    (hstep : down? step = some key)
    (hlink : tree.guideAt (location ++ [key]) = some (.link target)) :
    ∃ error, tree.follow false 0 location (step :: steps) = .error error := by
  rw [follow_down (kindAt_of_guideAt h) hstep, kindAt_of_guideAt hlink, Bool.false_and,
    if_neg Bool.false_ne_true]
  by_cases hlong : maxNameSize < utf8Size key
  · exact ⟨.nameTooLong, if_pos hlong⟩
  · exact ⟨.tooManyLinks, if_neg hlong⟩

/-- A step down to nothing or to a file is the last one. -/
theorem eq_nil_of_follow_end (h : tree.guideAt location = some .directory)
    (hstep : down? step = some key) (hnone : tree.guideAt (location ++ [key]) = none)
    (hfollow : tree.follow false links location (step :: steps) = .ok destination) :
    steps = [] ∧ destination.place = location ++ [key] := by
  rw [follow_down_end (kindAt_of_guideAt h) hstep hnone] at hfollow
  split_ifs at hfollow with _ _ _ hlast hlast
  · cases hfollow
    exact ⟨List.isEmpty_iff.mp hlast, rfl⟩
  · cases hfollow
    exact ⟨List.isEmpty_iff.mp hlast, rfl⟩

end Down

/-- **Steps that lead into a directory** lead on from there. -/
theorem follow_append (h : tree.follow false links location steps = .ok (.node place))
    (hplace : tree.kindAt place = some .directory) :
    ∃ links', ∀ rest, tree.follow false links location (steps ++ rest)
      = tree.follow false links' place rest := by
  fun_induction way tree.guideAt links location steps with
  | case1 links location =>
      rw [follow_nil] at h
      cases h
      exact ⟨links, fun _ => rfl⟩
  | case2 links location step steps hguide hstep ih =>
      have hdirectory := kindAt_of_guideAt hguide
      rw [follow_walk hdirectory hstep] at h
      obtain ⟨links', hrest⟩ := ih h
      refine ⟨links', fun rest => ?_⟩
      rw [List.cons_append, follow_walk hdirectory hstep, hrest]
  | case3 links location step steps hguide key hstep hbelow ih =>
      rw [follow_into hguide hstep hbelow] at h
      split_ifs at h with hlong
      obtain ⟨links', hrest⟩ := ih h
      refine ⟨links', fun rest => ?_⟩
      rw [List.cons_append, follow_into hguide hstep hbelow, if_neg hlong, hrest]
  | case4 location step steps hguide key hstep target hlink =>
      obtain ⟨error, herror⟩ := exists_error_of_follow_zero hguide hstep hlink
      cases herror.symm.trans h
  | case5 location step steps hguide key hstep target hlink links ih =>
      rw [follow_through hguide hstep hlink] at h
      split_ifs at h with hlong
      obtain ⟨links', hrest⟩ := ih h
      refine ⟨links', fun rest => ?_⟩
      rw [List.cons_append, follow_through hguide hstep hlink, if_neg hlong, ← List.append_assoc,
        hrest]
  | case6 links location step steps hguide key hstep hbelow hlink =>
      -- Where neither a directory nor a link is, the steps end, but not in a directory.
      obtain ⟨-, rfl⟩ := eq_nil_of_follow_end hguide hstep (guideAt_eq_none hbelow hlink) h
      exact absurd (guideAt_eq_some_iff.mpr ⟨hplace, rfl⟩) hbelow
  | case7 links location step steps hguide =>
      rw [follow_of_ne (kindAt_ne_of_guideAt_ne hguide)] at h
      cases h

/-- **Only steps that lead into a directory** lead on. -/
theorem exists_of_follow_append (hrest : rest ≠ [])
    (h : tree.follow false links location (steps ++ rest) = .ok destination) :
    ∃ place, tree.follow false links location steps = .ok (.node place) ∧
      tree.kindAt place = some .directory := by
  fun_induction way tree.guideAt links location steps with
  | case1 links location =>
      refine ⟨location, follow_nil _ _ _ _, ?_⟩
      obtain ⟨step, rest, rfl⟩ := List.exists_cons_of_ne_nil hrest
      by_contra hne
      rw [List.nil_append, follow_of_ne hne] at h
      cases h
  | case2 links location step steps hguide hstep ih =>
      have hdirectory := kindAt_of_guideAt hguide
      rw [List.cons_append, follow_walk hdirectory hstep] at h
      rw [follow_walk hdirectory hstep]
      exact ih h
  | case3 links location step steps hguide key hstep hbelow ih =>
      rw [List.cons_append, follow_into hguide hstep hbelow] at h
      split_ifs at h with hlong
      rw [follow_into hguide hstep hbelow, if_neg hlong]
      exact ih h
  | case4 location step steps hguide key hstep target hlink =>
      obtain ⟨error, herror⟩ := exists_error_of_follow_zero hguide hstep hlink
      cases herror.symm.trans h
  | case5 location step steps hguide key hstep target hlink links ih =>
      rw [List.cons_append, follow_through hguide hstep hlink] at h
      split_ifs at h with hlong
      rw [follow_through hguide hstep hlink, if_neg hlong]
      rw [← List.append_assoc] at h
      exact ih h
  | case6 links location step steps hguide key hstep hbelow hlink =>
      obtain ⟨hnil, -⟩ := eq_nil_of_follow_end hguide hstep (guideAt_eq_none hbelow hlink) h
      exact absurd (List.append_eq_nil_iff.mp hnil).2 hrest
  | case7 links location step steps hguide =>
      rw [List.cons_append, follow_of_ne (kindAt_ne_of_guideAt_ne hguide)] at h
      cases h

/-! ## Into a directory -/

/-- **A path leads into a directory** at a location. -/
def LeadsInto (tree : FileTree) (path : Text) (location : List Text) : Prop :=
  tree.resolve false (Path.steps path) = .ok (.node location) ∧
    tree.kindAt location = some .directory

/-- A path leads into one directory. -/
theorem LeadsInto.unique {other : List Text} (h : tree.LeadsInto directory location)
    (h' : tree.LeadsInto directory other) : location = other := by
  cases h.1.symm.trans h'.1
  rfl

/-- To stay in a directory leads nowhere else. -/
theorem follow_slash (h : tree.kindAt location = some .directory) :
    tree.follow false links location [.slash] = .ok (.node location) := by
  rw [follow_walk h rfl, follow_nil]
  rfl

/-- Steps lead into a directory with a slash at their end as without it. -/
theorem follow_concat_slash_iff (hlocation : tree.kindAt location = some .directory) :
    tree.follow false links [] (steps ++ [.slash]) = .ok (.node location)
      ↔ tree.follow false links [] steps = .ok (.node location) := by
  constructor
  · intro h
    obtain ⟨place, hfront, hplace⟩ := exists_of_follow_append (List.cons_ne_nil _ _) h
    obtain ⟨links', hon⟩ := follow_append hfront hplace
    have hsame : Except.ok (ε := FileError) (Destination.node place) = .ok (.node location) := by
      rw [← h, hon, follow_slash hplace]
    cases hsame
    exact hfront
  · intro h
    obtain ⟨links', hon⟩ := follow_append h hlocation
    rw [hon, follow_slash hlocation]

/-- A slash at the end of a path makes no difference. -/
theorem leadsInto_iff : tree.LeadsInto directory location ↔
    tree.resolve false (Path.dropSlash (Path.steps directory)) = .ok (.node location) ∧
      tree.kindAt location = some .directory := by
  refine and_congr_left fun hlocation => ?_
  rcases Path.steps_eq_or directory with hsteps | hsteps
  · rw [← hsteps]
  · conv_lhs => rw [hsteps]
    exact follow_concat_slash_iff hlocation

/-- **The path of a name leads on** from where the path of the directory leads. -/
theorem resolve_child (hname : Path.IsName name) (h : tree.LeadsInto directory location) :
    ∃ links, tree.resolve false (Path.steps (Path.child directory name))
      = tree.follow false links location [.down name] := by
  obtain ⟨hlead, hlocation⟩ := leadsInto_iff.mp h
  obtain ⟨links, hon⟩ := follow_append hlead hlocation
  refine ⟨links, ?_⟩
  rw [Path.steps_child hname]
  exact hon [.down name]

/-- If the path of a name leads anywhere, that of the directory leads into one. -/
theorem exists_leadsInto (hname : Path.IsName name)
    (h : tree.resolve false (Path.steps (Path.child directory name)) = .ok destination) :
    ∃ location, tree.LeadsInto directory location := by
  rw [Path.steps_child hname] at h
  obtain ⟨location, hlead, hlocation⟩ := exists_of_follow_append (List.cons_ne_nil _ _) h
  exact ⟨location, leadsInto_iff.mpr ⟨hlead, hlocation⟩⟩

/-- Without a directory at the top, nothing is led to by names. -/
theorem exists_error_of_lead_child (hroot : tree.kind ≠ .directory) (hname : Path.IsName name)
    (making : Bool) (directory : Text) :
    ∃ error, tree.lead making (Path.child directory name) = .error error := by
  unfold lead
  cases hsteps : Path.checkedSteps (Path.child directory name) with
  | error error => exact ⟨error, rfl⟩
  | ok steps =>
      have htop : tree.kindAt [] ≠ some .directory := fun h => hroot (Option.some.inj h)
      have hne : steps ≠ [] := by
        rw [(Path.checkedSteps_eq_ok_iff.mp hsteps).2.2.2, Path.steps_child hname]
        exact List.append_ne_nil_of_right_ne_nil _ (List.cons_ne_nil _ _)
      obtain ⟨step, later, rfl⟩ := List.exists_cons_of_ne_nil hne
      exact ⟨.notADirectory, follow_of_ne htop step later⟩

/-- **Down to a name that is no link** is where it stands. -/
theorem place_of_follow_down (hlocation : tree.kindAt location = some .directory)
    (hlink : ∀ target, tree.kindAt (location ++ [name]) ≠ some (.link target))
    (h : tree.follow false links location [.down name] = .ok destination) :
    destination.place = location ++ [name] := by
  have hguide : tree.guideAt location = some .directory :=
    guideAt_eq_some_iff.mpr ⟨hlocation, rfl⟩
  by_cases hbelow : tree.guideAt (location ++ [name]) = some .directory
  · rw [follow_into hguide rfl hbelow, follow_nil] at h
    split_ifs at h
    cases h
    rfl
  · have hnone := guideAt_eq_none hbelow fun target h => hlink target (kindAt_of_guideAt h)
    exact (eq_nil_of_follow_end hguide rfl hnone h).2

/-- **Where a file goes that is written to a name in a directory**: into the directory, under the
name, unless a link of that name leads on. -/
theorem landing?_child (hname : Path.IsName name)
    (h : tree.landing? (Path.child directory name) = some place) :
    ∃ location, tree.LeadsInto directory location ∧
      ((∀ target, tree.kindAt (location ++ [name]) ≠ some (.link target)) →
        place = location ++ [name]) := by
  obtain ⟨hplace, -⟩ := Option.filter_eq_some_iff.mp h
  cases hlead : tree.lead true (Path.child directory name) with
  | error error =>
      rw [hlead] at hplace
      cases hplace
  | ok destination =>
      rw [hlead] at hplace
      cases hplace
      obtain ⟨steps, hsteps, hfollow⟩ := exists_of_bind_eq_ok hlead
      rw [(Path.checkedSteps_eq_ok_iff.mp hsteps).2.2.2] at hfollow
      have hread := follow_of_making hfollow
      obtain ⟨location, hinto⟩ := exists_leadsInto hname hread
      obtain ⟨links, hon⟩ := resolve_child hname hinto
      exact ⟨location, hinto, fun hlink =>
        place_of_follow_down hinto.2 hlink (hon.symm.trans hread)⟩

end FileTree

end RuleTable
