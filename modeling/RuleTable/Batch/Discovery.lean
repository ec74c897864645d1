import RuleTable.Files.Access

/-!
# Finding rule files

The rule files under a directory: the files below it, and the links below it that lead to files,
whose names have the extension of rule files. Links to directories are not followed. Every directory
below is read by its path, so rule files are found only if all of these paths can be followed.
-/

set_option autoImplicit false

namespace RuleTable

open FileTree

/-- **The rule files among leaves**, by their paths. -/
def ruleFiles (tree : FileTree) (extension : Text) (leaves : List (Text × FileTree)) : List Text :=
  (leaves.filter fun (path, leaf) =>
    tree.leadsToFile path leaf && Path.extension? path == some extension).map (·.1)

/-- **The files with an extension under a directory**, in the order of paths; or why a directory
there cannot be read. -/
def findFiles (tree : FileTree) (directoryPath extension : Text) :
    Except FileError (List Text) := do
  let (_, entries) ← tree.listing directoryPath
  let _ ← (branchesOf directoryPath entries).mapM tree.listing
  return Path.sort (ruleFiles tree extension (leavesOf directoryPath entries))

end RuleTable
