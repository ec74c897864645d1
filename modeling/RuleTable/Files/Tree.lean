import RuleTable.Files.Path

/-!
# File trees

Files, directories and links as a value. A link leads to a path from the top of the tree. The
entries of a directory stand in the order in which they are listed.

That is all there is in a tree. A file stands in one place, so there are no hard links, and writing
to one place changes no other; there are no devices, pipes or other special files; and there are no
permissions, so whatever a path leads to may be read, entered and written.
-/

set_option autoImplicit false

namespace RuleTable

/-! ## The tree -/

/-- **What a file holds**: a text, or bytes that are none. -/
inductive Content
  | text (text : Text)
  | bytes
deriving DecidableEq

/-- **A node of a file tree**, with its name in its directory. Hard links, special files and
permissions are not among what a tree has. -/
inductive FileTree
  | file (name : Text) (content : Content)
  | link (name : Text) (target : List Step)
  | directory (name : Text) (entries : List FileTree)

namespace FileTree

/-- The name of a node. -/
def name : FileTree → Text
  | file name _ => name
  | link name _ => name
  | directory name _ => name

/-- The tree with nothing in it. -/
def empty : FileTree := directory [] []

/-- The entries of a directory; other nodes have none. -/
def entries : FileTree → List FileTree
  | directory _ entries => entries
  | _ => []

/-- The entry of a name in a directory. -/
def entry? (tree : FileTree) (key : Text) : Option FileTree :=
  tree.entries.find? (·.name == key)

/-- The node that names lead to, one directory after the other, without following links. -/
def at? (tree : FileTree) : List Text → Option FileTree
  | [] => some tree
  | key :: keys => (tree.entry? key).bind (at? · keys)

/-- The entries with a node put in the place of the one of its name, or at the end. -/
def putEntry (node : FileTree) : List FileTree → List FileTree
  | [] => [node]
  | entry :: entries =>
      if entry.name = node.name then node :: entries else entry :: putEntry node entries

/-- The tree with a node put into the directory that names lead to. -/
def putAt (tree : FileTree) (location : List Text) (node : FileTree) : FileTree :=
  match location, tree with
  | [], directory name entries => directory name (putEntry node entries)
  | key :: keys, directory name entries =>
      directory name (entries.map fun entry =>
        if entry.name = key then putAt entry keys node else entry)
  | _, tree => tree

/-! ## Leaves and branches -/

mutual

/-- **The leaves of a tree**: its files and links, each with its path. Links are not followed. -/
def leaves (path : Text) : FileTree → List (Text × FileTree)
  | file name content => [(path, file name content)]
  | link name target => [(path, link name target)]
  | directory _ entries => leavesOf path entries

/-- The leaves of the entries of a directory. -/
def leavesOf (path : Text) : List FileTree → List (Text × FileTree)
  | [] => []
  | entry :: entries => leaves (Path.child path entry.name) entry ++ leavesOf path entries

end

mutual

/-- **The branches of a tree**: the paths of its directories. -/
def branches (path : Text) : FileTree → List Text
  | file _ _ => []
  | link _ _ => []
  | directory _ entries => path :: branchesOf path entries

/-- The branches of the entries of a directory. -/
def branchesOf (path : Text) : List FileTree → List Text
  | [] => []
  | entry :: entries => branches (Path.child path entry.name) entry ++ branchesOf path entries

end

end FileTree

end RuleTable
