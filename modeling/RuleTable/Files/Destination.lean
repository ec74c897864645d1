import RuleTable.Files.Error
import RuleTable.Files.Tree

/-!
# Where paths lead

A path is followed step by step through the directories of a tree, and through the links on its
way; no more than a fixed number of links is followed on one way. A path on which a file is to be
made may not end in a slash, not even where a link leads.
-/

set_option autoImplicit false

namespace RuleTable

namespace FileTree

/-! ## Following paths -/

/-- **Where a path leads**: to a node, or to a name that is still free in a directory. Both are
given by names from the top, without links. -/
inductive Destination
  | node (location : List Text)
  | free (location : List Text) (key : Text)
deriving DecidableEq

/-- How many links are followed on one way. -/
def maxLinks : Nat := 40

/-- How many bytes a name has at most. -/
def maxNameSize : Nat := 255

/-- Where steps lead from a location, when so many links may still be followed. `making` says that
a file is to be made there. -/
def follow (tree : FileTree) (making : Bool) (links : Nat) (location : List Text) :
    List Step → Except FileError Destination
  | [] => .ok (.node location)
  | step :: steps =>
      match tree.at? location with
      | some (.directory _ _) =>
          match step with
          | .stay => follow tree making links location steps
          | .slash => follow tree making links location steps
          | .up => follow tree making links location.dropLast steps
          | .down key =>
              if making && steps = [.slash] then .error .isADirectory
              else if maxNameSize < Text.utf8Size key then .error .nameTooLong
              else
                match tree.at? (location ++ [key]) with
                | none => if steps.isEmpty then .ok (.free location key) else .error .notFound
                | some (.link _ target) =>
                    match links with
                    | 0 => .error .tooManyLinks
                    | links + 1 => follow tree making links [] (target ++ steps)
                | some _ => follow tree making links (location ++ [key]) steps
      | _ => .error .notADirectory
termination_by steps => (links, steps.length)

/-- **Where a path leads**, from the top of the tree. -/
def resolve (tree : FileTree) (making : Bool) (path : List Step) :
    Except FileError Destination :=
  follow tree making maxLinks [] path

/-- The node that a path leads to, with its location. -/
def node (tree : FileTree) (path : List Step) : Except FileError (List Text × FileTree) := do
  match ← tree.resolve false path with
  | .free _ _ => throw .notFound
  | .node location =>
      match tree.at? location with
      | some node => return (location, node)
      | none => throw .notFound

/-- Whether steps lead to a directory. -/
def isDirectory (tree : FileTree) (steps : List Step) : Bool :=
  match tree.node steps with
  | .ok (_, directory _ _) => true
  | _ => false

/-- Whether a path leads to a file. One that files cannot be looked for with leads to none. -/
def isFile (tree : FileTree) (path : Text) : Bool :=
  match (Path.checkedSteps path).bind tree.node with
  | .ok (_, file _ _) => true
  | _ => false

/-- Whether the leaf at a path is a file or a link that leads to one. -/
def leadsToFile (tree : FileTree) (path : Text) : FileTree → Bool
  | file _ _ => true
  | link _ _ => tree.isFile path
  | directory _ _ => false

end FileTree

end RuleTable
