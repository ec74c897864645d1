import RuleTable.Files.Error

/-!
# Paths

A path is a text of names with slashes between them. Its **steps** say how to follow it: stay,
go up, or go down to a name; staying, like a slash at the end, matters only where it asks for a
directory. **The moves** among the steps lead somewhere else. Every path is followed from the top
of a tree, whether it starts with a slash or not: work is done at the top.

Two paths are compared by their **components**, which are their moves behind the slash or the stay
that they start with; names are compared by code points. So what lies in a directory `a` comes
before a file `a.txt` next to it, and `./a`, `/a` and `a` are three paths.
-/

set_option autoImplicit false

namespace RuleTable

open Text

/-- **A step of a path.** A slash is a step only at the end of a path: it asks for a directory
without naming one. -/
inductive Step
  | stay
  | up
  | down (name : Text)
  | slash
deriving DecidableEq

/-- Whether a step leads somewhere else. -/
def Step.isMove : Step → Bool
  | stay => false
  | up => true
  | down _ => true
  | slash => false

namespace Path

/-! ## Steps -/

/-- The step that a piece of a path between slashes stands for; an empty piece is no step. -/
def stepOf? (piece : Text) : Option Step :=
  if piece = [] then none
  else if piece = ['.'] then some .stay
  else if piece = ['.', '.'] then some .up
  else some (.down piece)

/-- **The steps of a path.** -/
def steps (path : Text) : List Step :=
  (splitOn '/' path).filterMap stepOf? ++ if path.getLast? = some '/' then [.slash] else []

/-- How many bytes a path has at most. -/
def maxSize : Nat := 4095

/-- The steps of a path that files can be looked for with: one that is not empty, is not too long
and does not hold the character NUL. -/
def checkedSteps (path : Text) : Except FileError (List Step) :=
  if path.isEmpty then .error .notFound
  else if path.contains '\x00' then .error .nulInPath
  else if maxSize < utf8Size path then .error .nameTooLong
  else .ok (steps path)

/-- The moves of a path. -/
def moves (path : Text) : List Step := (steps path).filter Step.isMove

/-- Steps without the slash they may end with. -/
def dropSlash (steps : List Step) : List Step :=
  if steps.getLast? = some .slash then steps.dropLast else steps

/-- Steps without those at their end that do not move. -/
def dropIdle (steps : List Step) : List Step :=
  (steps.reverse.dropWhile fun step => ! step.isMove).reverse

/-- Dropping steps adds none. -/
theorem length_dropIdle_le (steps : List Step) : (dropIdle steps).length ≤ steps.length := by
  have h := (List.dropWhile_suffix (l := steps.reverse) fun step => ! step.isMove).length_le
  rwa [List.length_reverse, ← List.length_reverse] at h

/-- **The steps to the parent** of what steps lead to: they end with the last move but one. -/
def parent (steps : List Step) : List Step := dropIdle (dropIdle steps).dropLast

/-- The parent takes fewer steps. -/
theorem length_parent_lt {steps : List Step} (h : steps ≠ []) :
    (parent steps).length < steps.length := by
  have h₁ := length_dropIdle_le steps
  have h₂ := length_dropIdle_le (dropIdle steps).dropLast
  have h₃ := List.length_pos_iff.mpr h
  rw [List.length_dropLast] at h₂
  rw [parent]
  omega

/-! ## Names -/

/-- The name of what a path leads to, unless its last move goes up. -/
def fileName? (path : Text) : Option Text :=
  match (moves path).getLast? with
  | some (.down name) => some name
  | _ => none

/-- A name cut at its last point, as stem and extension. A point that only starts the name does
not cut it. -/
def splitName (name : Text) : Text × Option Text :=
  match name.reverse.dropWhile (· != '.') with
  | _ :: c :: stem => ((c :: stem).reverse, some (name.reverse.takeWhile (· != '.')).reverse)
  | _ => (name, none)

/-- The name of what a path leads to, without its extension. -/
def fileStem? (path : Text) : Option Text := (fileName? path).map fun name => (splitName name).1

/-- The extension of the name of what a path leads to. -/
def extension? (path : Text) : Option Text := (fileName? path).bind fun name => (splitName name).2

/-- The path of a name in a directory. -/
def child (directory name : Text) : Text :=
  if directory.isEmpty || directory.getLast? == some '/' then directory ++ name
  else directory ++ ['/'] ++ name

/-! ## Order -/

/-- The step that a path starts with without moving: the slash of a path from the top, or staying
where one is. -/
def start (path : Text) : List Step :=
  if path.head? = some '/' then [.slash]
  else if (splitOn '/' path).head? = some ['.'] then [.stay]
  else []

/-- **The components of a path.** Within a path slashes and stays are passed over. -/
def components (path : Text) : List Step := start path ++ moves path

/-- What a component is compared by: the start of a path comes before going up, and that before
every name. -/
def stepKey : Step → List Nat
  | .slash => [0]
  | .stay => [1]
  | .up => [2]
  | .down name => 3 :: name.map Char.toNat

/-- What a path is compared by. -/
def key (path : Text) : List (List Nat) := (components path).map stepKey

/-- Whether a key comes before another: where they differ first it has the smaller component, or it
ends. -/
def precedes (first second : List (List Nat)) : Bool :=
  List.lex first second fun move other => List.lex move other fun code code' => code < code'

/-- **The order of paths.** -/
def le (first second : Text) : Bool := ! precedes (key second) (key first)

/-- Paths in order; equal ones stay as they are. -/
def sort (paths : List Text) : List Text := paths.mergeSort le

end Path

end RuleTable
