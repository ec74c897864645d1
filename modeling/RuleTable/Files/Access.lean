import RuleTable.Files.Destination

/-!
# Reading and writing files

A file is read and written through the links on the way to it, and a directory is read through
them. Directories are made with those above them.
-/

set_option autoImplicit false

namespace RuleTable

namespace FileTree

/-! ## Files -/

/-- **The text of the file** that a path leads to. -/
def readText (tree : FileTree) (path : Text) : Except FileError Text := do
  match ← tree.node (← Path.checkedSteps path) with
  | (_, file _ (.text text)) => return text
  | (_, file _ .bytes) => throw .notText
  | _ => throw .isADirectory

/-- **The entries of the directory** that a path leads to, with its location. -/
def listing (tree : FileTree) (path : Text) : Except FileError (List Text × List FileTree) := do
  match ← tree.node (← Path.checkedSteps path) with
  | (location, directory _ entries) => return (location, entries)
  | _ => throw .notADirectory

/-- **The tree with a file written**: the file that the path leads to holds the new content, and
is made if there is none. -/
def writeFile (tree : FileTree) (path : Text) (content : Content) :
    Except FileError FileTree := do
  match ← tree.resolve true (← Path.checkedSteps path) with
  | .free location key => return tree.putAt location (file key content)
  | .node location =>
      match tree.at? location with
      | some (.file key _) => return tree.putAt location.dropLast (file key content)
      | _ => throw .isADirectory

/-! ## New nodes -/

/-- **The tree with a node added** under the name that steps end with, if it is free there. A link
of that name is not followed, and a slash after the name is passed over. Steps that end without a
name end at something that exists. -/
def add (tree : FileTree) (steps : List Step) (make : Text → FileTree) :
    Except FileError FileTree := do
  let steps := Path.dropSlash steps
  match ← tree.node steps.dropLast with
  | (location, directory _ entries) =>
      match steps.getLast? with
      | some (.down key) =>
          if maxNameSize < Text.utf8Size key then
            throw .nameTooLong
          if entries.any (·.name == key) then
            throw .alreadyExists
          return tree.putAt location (make key)
      | _ => throw .alreadyExists
  | _ => throw .notADirectory

/-- The tree with a directory added. -/
def addDirectory (tree : FileTree) (steps : List Step) : Except FileError FileTree :=
  tree.add steps fun key => directory key []

/-- **The tree with a directory** and the parents it lacks; one that exists is left as it is. The
parents are made first, and then the directory is tried again as it is written: a path that ends
by staying in a directory does not make that directory. -/
def ensureDirectory (tree : FileTree) (steps : List Step) : Except FileError FileTree :=
  match tree.addDirectory steps with
  | .ok tree => .ok tree
  | .error .notFound =>
      if _h : steps = [] then .error .notFound
      else
        match ensureDirectory tree (Path.parent steps) with
        | .error error => .error error
        | .ok tree =>
            match tree.addDirectory steps with
            | .ok tree => .ok tree
            | .error error => if tree.isDirectory steps then .ok tree else .error error
  | .error error => if tree.isDirectory steps then .ok tree else .error error
termination_by steps.length
decreasing_by exact Path.length_parent_lt (by assumption)

/-- **The tree with the directory of a path** and the parents it lacks. The empty path asks for
none but the top. -/
def makeDirectory (tree : FileTree) (path : Text) : Except FileError FileTree :=
  (if path.isEmpty then .ok [] else Path.checkedSteps path).bind tree.ensureDirectory

end FileTree

end RuleTable
