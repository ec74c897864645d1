import RuleTable.Batch.Result
import RuleTable.Files.Access
import RuleTable.Settings

/-!
# Converting a rule file

A rule file is read, converted and written as documents into the output directory. The decision
is named after the file. Nothing is written unless the whole text converts; the documents are
then written one after the other, up to the first that cannot be.
-/

set_option autoImplicit false

namespace RuleTable

open Text

/-- The names of so many documents of a rule file with the given stem. A single document has the
name of the file; several are numbered from one. -/
def documentNames (stem : Text) (count : Nat) : List Text :=
  if count ≤ 1 then [stem ++ ".dmn".toList]
  else (List.range' 1 count).map fun n => stem ++ "_part".toList ++ ofNat n ++ ".dmn".toList

/-- The tree with documents written to their paths, in order, up to the first that cannot be. -/
def writeDocuments (tree : FileTree) :
    List (Text × Text) → FileTree × Except FileError Unit
  | [] => (tree, .ok ())
  | (path, document) :: documents =>
      match tree.writeFile path (.text document) with
      | .ok tree => writeDocuments tree documents
      | .error error => (tree, .error error)

/-- **A run**: what a step of a batch gives, with the tree it leaves and the events it notes. -/
structure Run (α : Type) where
  tree : FileTree
  events : List Event
  value : α

/-- The output of a rule file, or why it has none. -/
def convertFile (suffix : Nat → Text) (settings : BatchSettings) (tree : FileTree) (path : Text) :
    Run (Except ConversionError FileOutput) :=
  match tree.readText path with
  | .error error => ⟨tree, [], .error (.file error)⟩
  | .ok text =>
      let stem := (Path.fileStem? path).getD []
      match Conversion.ofText suffix (.ofStem stem) settings.conversion text with
      | (events, .error error) => ⟨tree, events, .error error⟩
      | (events, .ok conversion) =>
          let paths := (documentNames stem conversion.documents.length).map
            (Path.child settings.outputDirectory)
          match writeDocuments tree (paths.zip conversion.documents) with
          | (tree, .error error) => ⟨tree, events, .error (.file error)⟩
          | (tree, .ok ()) =>
              ⟨tree, events, .ok ⟨conversion.rules, conversion.skipped.length, paths⟩⟩

/-- The event of a result. -/
def FileResult.event (result : FileResult) : Event :=
  match result.outcome with
  | .ok output => .convertedFile result.path output.rules output.documents.length
  | .error error => .failedFile result.path error

/-- **The result of a rule file.** -/
def processFile (suffix : Nat → Text) (settings : BatchSettings) (tree : FileTree) (path : Text) :
    Run FileResult :=
  let run := convertFile suffix settings tree path
  let result : FileResult := ⟨path, run.value⟩
  ⟨run.tree, run.events ++ [result.event], result⟩

end RuleTable
