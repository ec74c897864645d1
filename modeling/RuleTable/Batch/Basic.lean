import RuleTable.Batch.Discovery
import RuleTable.Batch.File

/-!
# Batches

Many rule files are converted on a pool of workers. The workers share one queue of files, so one
worker takes the files in the order of the queue; the report has the results in the order of
paths, whoever was done first.
-/

set_option autoImplicit false

namespace RuleTable

/-- The results of files that one worker takes in order. -/
def processAll (suffix : Nat → Text) (settings : BatchSettings) (tree : FileTree) :
    List Text → Run (List FileResult)
  | [] => ⟨tree, [], []⟩
  | path :: paths =>
      let first := processFile suffix settings tree path
      let others := processAll suffix settings first.tree paths
      ⟨others.tree, first.events ++ others.events, first.value :: others.value⟩

/-- The report of results, which come in any order. -/
def BatchReport.ofResults (results : List FileResult) : BatchReport :=
  ⟨results.mergeSort fun first second => Path.le first.path second.path⟩

/-- The event at the end of a batch. -/
def BatchReport.event (report : BatchReport) : Event :=
  .finishedBatch report.files report.failed report.rules report.documents

/-- How many workers a batch of so many files starts: no more than there are files, but one at
least. -/
def workersFor (settings : BatchSettings) (processors files : Nat) : Nat :=
  max (min (settings.effectiveWorkers processors) files) 1

/-- **The batch of a list of files.** It fails only if there is no output directory and none can
be made. -/
def processFiles (suffix : Nat → Text) (settings : BatchSettings) (processors : Nat)
    (tree : FileTree) (paths : List Text) : Run (Except FileError BatchReport) :=
  match tree.makeDirectory settings.outputDirectory with
  | .error error => ⟨tree, [], .error error⟩
  | .ok tree =>
      let run := processAll suffix settings tree paths
      let report := BatchReport.ofResults run.value
      ⟨run.tree,
        [.startedBatch paths.length (workersFor settings processors paths.length)]
          ++ run.events ++ [report.event],
        .ok report⟩

/-- **The batch of a directory**: of all rule files under it. -/
def processDirectory (suffix : Nat → Text) (settings : BatchSettings) (processors : Nat)
    (tree : FileTree) (directoryPath : Text) : Run (Except FileError BatchReport) :=
  match findFiles tree directoryPath settings.extension with
  | .error error => ⟨tree, [], .error error⟩
  | .ok paths =>
      let run := processFiles suffix settings processors tree paths
      ⟨run.tree, .foundFiles directoryPath paths.length :: run.events, run.value⟩

end RuleTable
