import Mathlib.Tactic.SplitIfs
import RuleTable.Proofs.Files.View

/-!
# The way of a path

**The way** of a path is the list of the locations that are looked at while the path is followed,
through directories and links. It depends only on the directories and links of the tree, so files
that are made or written do not change it, nor the place where it ends. Trees that agree on the
way of a path follow it alike.
-/

set_option autoImplicit false

namespace RuleTable

namespace FileTree

/-! ## Directories and links -/

/-- Whether a path can lead on through a node: a directory or a link. -/
def Kind.guides : Kind → Bool
  | file _ => false
  | link _ => true
  | directory => true

/-- **The directory or link at a location**, if there is one. -/
def guideAt (tree : FileTree) (location : List Text) : Option Kind :=
  (tree.kindAt location).filter Kind.guides

/-- The place that a path leads to. -/
def Destination.place : Destination → List Text
  | node location => location
  | free location key => location ++ [key]

/-- The name that a step goes down to. -/
def down? : Step → Option Text
  | .down key => some key
  | _ => none

/-- Where a step leads that does not go down. -/
def walk (location : List Text) : Step → List Text
  | .up => location.dropLast
  | _ => location

/-- **The locations looked at** on the way that steps lead from a location, when so many links may
still be followed. -/
def way (guide : List Text → Option Kind) (links : Nat) (location : List Text) :
    List Step → List (List Text)
  | [] => [location]
  | step :: steps =>
      match guide location with
      | some .directory =>
          match down? step with
          | none => location :: way guide links (walk location step) steps
          | some key =>
              match guide (location ++ [key]) with
              | some .directory =>
                  location :: (location ++ [key]) :: way guide links (location ++ [key]) steps
              | some (.link target) =>
                  match links with
                  | 0 => [location, location ++ [key]]
                  | links + 1 =>
                      location :: (location ++ [key]) :: way guide links [] (target ++ steps)
              | _ => [location, location ++ [key]]
      | _ => [location]
termination_by steps => (links, steps.length)

variable {tree other : FileTree} {making : Bool} {links : Nat} {location : List Text}
  {step : Step} {steps : List Step} {key : Text}

/-- A directory or link at a location is what stands there. -/
theorem guideAt_eq_some_iff {kind : Kind} :
    tree.guideAt location = some kind ↔ tree.kindAt location = some kind ∧ kind.guides = true :=
  Option.filter_eq_some_iff

theorem kindAt_of_guideAt {kind : Kind} (h : tree.guideAt location = some kind) :
    tree.kindAt location = some kind :=
  (guideAt_eq_some_iff.mp h).1

/-- What is no directory and no link does not guide. -/
theorem guideAt_eq_none (hdirectory : tree.guideAt location ≠ some .directory)
    (hlink : ∀ target, tree.guideAt location ≠ some (.link target)) :
    tree.guideAt location = none := by
  rw [Option.eq_none_iff_forall_ne_some]
  intro kind hkind
  cases kind with
  | file content => exact Bool.false_ne_true (guideAt_eq_some_iff.mp hkind).2
  | link target => exact hlink target hkind
  | directory => exact hdirectory hkind

/-- Where there is no directory and no link, there is nothing or a file. -/
theorem kindAt_of_guideAt_eq_none (h : tree.guideAt location = none) :
    tree.kindAt location = none ∨ ∃ content, tree.kindAt location = some (.file content) := by
  cases hkind : tree.kindAt location with
  | none => exact Or.inl rfl
  | some kind =>
      cases kind with
      | file content => exact Or.inr ⟨content, rfl⟩
      | link target => cases h.symm.trans (guideAt_eq_some_iff.mpr ⟨hkind, rfl⟩)
      | directory => cases h.symm.trans (guideAt_eq_some_iff.mpr ⟨hkind, rfl⟩)

/-! ## Following a path by what stands on its way -/

@[simp]
theorem follow_nil (tree : FileTree) (making : Bool) (links : Nat) (location : List Text) :
    tree.follow making links location [] = .ok (.node location) := by
  rw [follow]

/-- Steps lead only from a directory. -/
theorem follow_of_ne (h : tree.kindAt location ≠ some .directory) (step : Step)
    (steps : List Step) :
    tree.follow making links location (step :: steps) = .error .notADirectory := by
  rw [kindAt] at h
  rw [follow.eq_def]
  dsimp only
  rcases hnode : tree.at? location with _ | ⟨_ | _ | _⟩ <;> simp_all [kind]

section Directory

variable (h : tree.kindAt location = some .directory)

include h

theorem exists_directory_of_kindAt :
    ∃ name entries, tree.at? location = some (directory name entries) := by
  obtain ⟨node, hnode, hkind⟩ := Option.map_eq_some_iff.mp h
  obtain ⟨name, entries, rfl⟩ := exists_entries_of_kind hkind
  exact ⟨name, entries, hnode⟩

/-- A step that does not go down is taken whatever stands elsewhere. -/
theorem follow_walk (hstep : down? step = none) : tree.follow making links location (step :: steps)
    = tree.follow making links (walk location step) steps := by
  obtain ⟨name, entries, hnode⟩ := exists_directory_of_kindAt h
  rw [follow.eq_def]
  simp only [hnode]
  cases step with
  | down key => cases hstep
  | _ => rfl

/-- **A step down** is taken by what stands below. -/
theorem follow_down (hstep : down? step = some key) :
    tree.follow making links location (step :: steps)
      = if making && steps = [.slash] then .error .isADirectory
        else if maxNameSize < Text.utf8Size key then .error .nameTooLong
        else
          match tree.kindAt (location ++ [key]) with
          | none => if steps.isEmpty then .ok (.free location key) else .error .notFound
          | some (.link target) =>
              match links with
              | 0 => .error .tooManyLinks
              | links + 1 => tree.follow making links [] (target ++ steps)
          | some _ => tree.follow making links (location ++ [key]) steps := by
  obtain ⟨name, entries, hnode⟩ := exists_directory_of_kindAt h
  cases step with
  | down name =>
      cases hstep
      rw [follow.eq_def, kindAt]
      simp only [hnode]
      rcases tree.at? (location ++ [key]) with _ | ⟨_ | _ | _⟩ <;> rfl
  | _ => cases hstep

/-- A step down to nothing or to a file is the last one. -/
theorem follow_down_end (hstep : down? step = some key)
    (hplace : tree.guideAt (location ++ [key]) = none) :
    tree.follow making links location (step :: steps)
      = if making && steps = [.slash] then .error .isADirectory
        else if maxNameSize < Text.utf8Size key then .error .nameTooLong
        else if tree.kindAt (location ++ [key]) = none then
          if steps.isEmpty then .ok (.free location key) else .error .notFound
        else if steps.isEmpty then .ok (.node (location ++ [key])) else .error .notADirectory := by
  rw [follow_down h hstep]
  rcases kindAt_of_guideAt_eq_none hplace with hnone | ⟨content, hfile⟩
  · simp only [hnone, if_true]
  · have hne : tree.kindAt (location ++ [key]) ≠ some .directory := by simp [hfile]
    simp only [hfile]
    cases steps with
    | nil => simp
    | cons step steps => simp [follow_of_ne hne]

end Directory

/-! ## Trees that agree on a way -/

/-- Where no directory is, none stands. -/
theorem kindAt_ne_of_guideAt_ne (h : tree.guideAt location ≠ some .directory) :
    tree.kindAt location ≠ some .directory :=
  fun hkind => h (guideAt_eq_some_iff.mpr ⟨hkind, rfl⟩)

/-- **Trees that agree on the way of steps follow them alike.** -/
theorem follow_congr
    (h : ∀ place ∈ way tree.guideAt links location steps, tree.kindAt place = other.kindAt place) :
    tree.follow making links location steps = other.follow making links location steps := by
  -- The agreement is on what is looked at, so each case splits off the locations it looks at.
  fun_induction way tree.guideAt links location steps with
  | case1 => rw [follow_nil, follow_nil]
  | case2 links location step steps hguide hstep ih =>
      rw [List.forall_mem_cons] at h
      have hdirectory := kindAt_of_guideAt hguide
      rw [follow_walk hdirectory hstep, follow_walk (h.1 ▸ hdirectory) hstep, ih h.2]
  | case3 links location step steps hguide key hstep hbelow ih =>
      rw [List.forall_mem_cons, List.forall_mem_cons] at h
      have hdirectory := kindAt_of_guideAt hguide
      rw [follow_down hdirectory hstep, follow_down (h.1 ▸ hdirectory) hstep, ← h.2.1,
        kindAt_of_guideAt hbelow]
      dsimp only
      rw [ih h.2.2]
  | case4 location step steps hguide key hstep target hlink =>
      rw [List.forall_mem_cons, List.forall_mem_singleton] at h
      have hdirectory := kindAt_of_guideAt hguide
      rw [follow_down hdirectory hstep, follow_down (h.1 ▸ hdirectory) hstep, ← h.2,
        kindAt_of_guideAt hlink]
  | case5 location step steps hguide key hstep target hlink links ih =>
      rw [List.forall_mem_cons, List.forall_mem_cons] at h
      have hdirectory := kindAt_of_guideAt hguide
      rw [follow_down hdirectory hstep, follow_down (h.1 ▸ hdirectory) hstep, ← h.2.1,
        kindAt_of_guideAt hlink]
      dsimp only
      rw [ih h.2.2]
  | case6 links location step steps hguide key hstep hbelow hlink =>
      rw [List.forall_mem_cons, List.forall_mem_singleton] at h
      have hdirectory := kindAt_of_guideAt hguide
      have hplace := guideAt_eq_none hbelow hlink
      have hplace' : other.guideAt (location ++ [key]) = none := by
        rw [guideAt, ← h.2]
        exact hplace
      rw [follow_down_end hdirectory hstep hplace,
        follow_down_end (h.1 ▸ hdirectory) hstep hplace', ← h.2]
  | case7 links location step steps hguide =>
      rw [List.forall_mem_singleton] at h
      have hne := kindAt_ne_of_guideAt_ne hguide
      rw [follow_of_ne hne, follow_of_ne (h ▸ hne)]

/-! ## Places -/

/-- What stands where a path leads: something, or nothing in a directory. -/
def Destination.Stands (tree : FileTree) : Destination → Prop
  | node location => tree.kindAt location ≠ none
  | free location key =>
      tree.kindAt location = some .directory ∧ tree.kindAt (location ++ [key]) = none

/-- Above a directory something stands. -/
theorem kindAt_dropLast_ne_none (h : tree.kindAt location = some .directory) :
    tree.kindAt location.dropLast ≠ none := by
  rcases List.eq_nil_or_concat location with rfl | ⟨front, key, rfl⟩
  · exact Option.some_ne_none _
  · rw [List.concat_eq_append] at h ⊢
    obtain ⟨name, entries, hnode⟩ := exists_directory_of_kindAt h
    rw [List.dropLast_concat, (name_of_at?_append hnode).2]
    exact Option.some_ne_none _

/-- **Where steps lead**, when they lead anywhere: the place is on their way, and what stands there
is as the destination says. -/
theorem follow_spec (hstart : tree.kindAt location ≠ none) {destination : Destination}
    (h : tree.follow making links location steps = .ok destination) :
    destination.place ∈ way tree.guideAt links location steps ∧ destination.Stands tree := by
  fun_induction way tree.guideAt links location steps with
  | case1 =>
      rw [follow_nil] at h
      cases h
      exact ⟨List.mem_singleton_self _, hstart⟩
  | case2 links location step steps hguide hstep ih =>
      have hdirectory := kindAt_of_guideAt hguide
      rw [follow_walk hdirectory hstep] at h
      have hnext : tree.kindAt (walk location step) ≠ none := by
        cases step with
        | up => exact kindAt_dropLast_ne_none hdirectory
        | _ => exact hstart
      exact (ih hnext h).imp_left (List.mem_cons_of_mem _)
  | case3 links location step steps hguide key hstep hbelow ih =>
      have hnext := kindAt_of_guideAt hbelow
      rw [follow_down (kindAt_of_guideAt hguide) hstep, hnext] at h
      dsimp only at h
      split_ifs at h
      exact (ih (by simp [hnext]) h).imp_left fun hm =>
        List.mem_cons_of_mem _ (List.mem_cons_of_mem _ hm)
  | case4 location step steps hguide key hstep target hlink =>
      rw [follow_down (kindAt_of_guideAt hguide) hstep, kindAt_of_guideAt hlink] at h
      dsimp only at h
      split_ifs at h
  | case5 location step steps hguide key hstep target hlink links ih =>
      rw [follow_down (kindAt_of_guideAt hguide) hstep, kindAt_of_guideAt hlink] at h
      dsimp only at h
      split_ifs at h
      exact (ih (Option.some_ne_none _) h).imp_left fun hm =>
        List.mem_cons_of_mem _ (List.mem_cons_of_mem _ hm)
  | case6 links location step steps hguide key hstep hbelow hlink =>
      have hdirectory := kindAt_of_guideAt hguide
      rw [follow_down_end hdirectory hstep (guideAt_eq_none hbelow hlink)] at h
      have hplace : location ++ [key] ∈ [location, location ++ [key]] :=
        List.mem_cons_of_mem _ (List.mem_singleton_self _)
      split_ifs at h with _ _ hnone
      · cases h
        exact ⟨hplace, hdirectory, hnone⟩
      · cases h
        exact ⟨hplace, hnone⟩
  | case7 links location step steps hguide =>
      rw [follow_of_ne (kindAt_ne_of_guideAt_ne hguide)] at h
      cases h

/-- The place that following steps gives, if they lead anywhere. -/
def placeOf? (result : Except FileError Destination) : Option (List Text) :=
  result.toOption.map Destination.place

/-- **Files do not change where a path leads**: with the same directories and links it leads to the
same place, or in both trees to none. -/
theorem placeOf?_follow_congr (hsame : tree.guideAt = other.guideAt) :
    placeOf? (tree.follow making links location steps)
      = placeOf? (other.follow making links location steps) := by
  fun_induction way tree.guideAt links location steps with
  | case1 => rw [follow_nil, follow_nil]
  | case2 links location step steps hguide hstep ih =>
      rw [follow_walk (kindAt_of_guideAt hguide) hstep,
        follow_walk (kindAt_of_guideAt (hsame ▸ hguide)) hstep, ih]
  | case3 links location step steps hguide key hstep hbelow ih =>
      rw [follow_down (kindAt_of_guideAt hguide) hstep,
        follow_down (kindAt_of_guideAt (hsame ▸ hguide)) hstep, kindAt_of_guideAt hbelow,
        kindAt_of_guideAt (hsame ▸ hbelow)]
      split_ifs <;> first | rfl | exact ih
  | case4 location step steps hguide key hstep target hlink =>
      rw [follow_down (kindAt_of_guideAt hguide) hstep,
        follow_down (kindAt_of_guideAt (hsame ▸ hguide)) hstep, kindAt_of_guideAt hlink,
        kindAt_of_guideAt (hsame ▸ hlink)]
  | case5 location step steps hguide key hstep target hlink links ih =>
      rw [follow_down (kindAt_of_guideAt hguide) hstep,
        follow_down (kindAt_of_guideAt (hsame ▸ hguide)) hstep, kindAt_of_guideAt hlink,
        kindAt_of_guideAt (hsame ▸ hlink)]
      split_ifs <;> first | rfl | exact ih
  | case6 links location step steps hguide key hstep hbelow hlink =>
      have hplace := guideAt_eq_none hbelow hlink
      rw [follow_down_end (kindAt_of_guideAt hguide) hstep hplace,
        follow_down_end (kindAt_of_guideAt (hsame ▸ hguide)) hstep (hsame ▸ hplace)]
      split_ifs <;> rfl
  | case7 links location step steps hguide =>
      rw [follow_of_ne (kindAt_ne_of_guideAt_ne hguide),
        follow_of_ne (kindAt_ne_of_guideAt_ne (hsame ▸ hguide))]

/-- **Where a file can be made, steps lead anyway**: asking for it only adds a reason to fail. -/
theorem follow_of_making {destination : Destination}
    (h : tree.follow true links location steps = .ok destination) :
    tree.follow false links location steps = .ok destination := by
  fun_induction way tree.guideAt links location steps with
  | case1 =>
      rw [follow_nil] at h ⊢
      exact h
  | case2 links location step steps hguide hstep ih =>
      have hdirectory := kindAt_of_guideAt hguide
      rw [follow_walk hdirectory hstep] at h ⊢
      exact ih h
  | case3 links location step steps hguide key hstep hbelow ih =>
      rw [follow_down (kindAt_of_guideAt hguide) hstep, kindAt_of_guideAt hbelow] at h ⊢
      dsimp only at h ⊢
      split_ifs at h with _ hlong
      rw [Bool.false_and, if_neg Bool.false_ne_true, if_neg hlong]
      exact ih h
  | case4 location step steps hguide key hstep target hlink =>
      rw [follow_down (kindAt_of_guideAt hguide) hstep, kindAt_of_guideAt hlink] at h
      dsimp only at h
      split_ifs at h
  | case5 location step steps hguide key hstep target hlink links ih =>
      rw [follow_down (kindAt_of_guideAt hguide) hstep, kindAt_of_guideAt hlink] at h ⊢
      dsimp only at h ⊢
      split_ifs at h with _ hlong
      rw [Bool.false_and, if_neg Bool.false_ne_true, if_neg hlong]
      exact ih h
  | case6 links location step steps hguide key hstep hbelow hlink =>
      rw [follow_down_end (kindAt_of_guideAt hguide) hstep (guideAt_eq_none hbelow hlink)] at h ⊢
      split_ifs at h with _ hlong hnone hlast hlast
      · rw [Bool.false_and, if_neg Bool.false_ne_true, if_neg hlong, if_pos hnone, if_pos hlast]
        exact h
      · rw [Bool.false_and, if_neg Bool.false_ne_true, if_neg hlong, if_neg hnone, if_pos hlast]
        exact h
  | case7 links location step steps hguide =>
      rw [follow_of_ne (kindAt_ne_of_guideAt_ne hguide)] at h
      cases h

end FileTree

end RuleTable
