import RuleTable.Batch.Basic
import RuleTable.Proofs.Conversion.Complete
import RuleTable.Proofs.Files.Writing

/-!
# One file of a batch, step by step

A file is read and converted, and then its documents are written one after the other; each step
calls the file system once, so other files may be worked on in between. **Alone**, the steps give
what processing the file gives. What the steps depend on is the **footprint** of the file: the
locations on the ways of its source and of its documents. What they change are the places where
its documents go.
-/

set_option autoImplicit false

namespace RuleTable

open FileTree

/-! ## Files to convert -/

/-- **A file to convert**: its path, and the suffixes that are drawn for the ids of its rules. -/
structure Job where
  path : Text
  suffix : Nat → Text

namespace Job

/-- The paths of the documents of a file that has so many. -/
def documentPaths (settings : BatchSettings) (job : Job) (count : Nat) : List Text :=
  (documentNames ((Path.fileStem? job.path).getD []) count).map
    (Path.child settings.outputDirectory)

variable (settings : BatchSettings) (tree : FileTree) (job : Job)

/-- **What a file is converted to**, before any of it is written: its output, and its documents with
their paths. -/
def convert : Except ConversionError (FileOutput × List (Text × Text)) :=
  match tree.readText job.path with
  | .error error => .error (.file error)
  | .ok text =>
      let stem := (Path.fileStem? job.path).getD []
      match (Conversion.ofText job.suffix (.ofStem stem) settings.conversion text).2 with
      | .error error => .error error
      | .ok conversion =>
          let paths := job.documentPaths settings conversion.documents.length
          .ok (⟨conversion.rules, conversion.skipped.length, paths⟩,
            paths.zip conversion.documents)

/-- What processing a file alone gives. -/
def alone : Run FileResult := processFile job.suffix settings tree job.path

/-- The paths that a file's documents are to be written to. -/
def outputPaths : List Text :=
  match job.convert settings tree with
  | .ok (_, documents) => documents.map (·.1)
  | .error _ => []

/-- **The footprint of a file**: the locations on the ways of its source and of its documents. -/
def footprint : List (List Text) :=
  tree.wayOf job.path ++ (job.outputPaths settings tree).flatMap tree.wayOf

/-- **The places of a file**: those where its documents go. -/
def places : List (List Text) := (job.outputPaths settings tree).filterMap tree.landing?

end Job

/-- The tree and the outcome when the documents that are left have been written. -/
def writeRest (output : FileOutput) (tree : FileTree) (left : List (Text × Text)) :
    FileTree × Except ConversionError FileOutput :=
  match writeDocuments tree left with
  | (tree, .error error) => (tree, .error (.file error))
  | (tree, .ok ()) => (tree, .ok output)

theorem writeRest_cons (output : FileOutput) (tree : FileTree) (path document : Text)
    (left : List (Text × Text)) :
    writeRest output tree ((path, document) :: left)
      = match tree.writeFile path (.text document) with
        | .error error => (tree, .error (.file error))
        | .ok tree => writeRest output tree left := by
  rw [writeRest, writeDocuments]
  cases tree.writeFile path (.text document) <;> rfl

/-- **Processing a file** is to convert it and then to write its documents. -/
theorem Job.alone_eq (settings : BatchSettings) (tree : FileTree) (job : Job) :
    ((job.alone settings tree).tree, (job.alone settings tree).value.outcome)
      = match job.convert settings tree with
        | .error error => (tree, .error error)
        | .ok (output, documents) => writeRest output tree documents := by
  rw [Job.alone, Job.convert, processFile, convertFile]
  cases tree.readText job.path with
  | error error => rfl
  | ok text =>
      dsimp only
      rcases Conversion.ofText _ _ _ text with ⟨events, error | conversion⟩
      · rfl
      · dsimp only [writeRest, Job.documentPaths]
        rcases writeDocuments _ _ with ⟨left, error | _⟩ <;> rfl

/-- **A file with rules is converted** to the documents of its tables, each with its path. -/
theorem Job.convert_of_rules (settings : BatchSettings) {tree : FileTree} {job : Job} {text : Text}
    (hread : tree.readText job.path = .ok text)
    (hrules : (RuleText.read job.suffix text).rules ≠ []) :
    ∃ documents paths, job.convert settings tree = .ok
        (⟨(RuleText.read job.suffix text).rules.length,
          (RuleText.read job.suffix text).skipped.length, paths⟩, paths.zip documents) ∧
      paths = job.documentPaths settings documents.length ∧
      documents.length
        = (chunks settings.conversion.maxRules (RuleText.read job.suffix text).rules).length := by
  rw [convert, hread]
  dsimp only
  obtain ⟨outputDirectory, workers, extension, limit, check⟩ := settings
  rw [Conversion.ofText_of_rules _ _ limit check text hrules]
  refine ⟨_, _, rfl, rfl, ?_⟩
  rw [List.length_map, Conversion.tables, List.length_map]

/-- A file that cannot be read is not converted. -/
theorem Job.convert_of_error (settings : BatchSettings) {tree : FileTree} {job : Job}
    {error : FileError} (hread : tree.readText job.path = .error error) :
    job.convert settings tree = .error (.file error) := by
  rw [convert, hread]

theorem Job.outcome_of_error (settings : BatchSettings) {tree : FileTree} {job : Job}
    {error : FileError} (hread : tree.readText job.path = .error error) :
    (job.alone settings tree).value.outcome = .error (.file error) := by
  have halone := job.alone_eq settings tree
  rw [convert_of_error settings hread] at halone
  exact congrArg Prod.snd halone

/-! ## A file of one rule -/

/-- A text of one rule that applies everywhere. -/
def oneRule : Text := "Otherwise, a is 1.".toList

theorem exists_rule_oneRule (suffix : Nat → Text) :
    ∃ rule, (RuleText.read suffix oneRule).rules = [rule] := by
  have hlines : (Text.lines oneRule).zipIdx 1 = [(oneRule, 1)] := by decide
  have hactions : readActions "a is 1.".toList = .ok [.set "a".toList "1".toList] := by decide +kernel
  have hrule : readRule (suffix 0) oneRule
      = .ok ⟨"rule_otherwise_".toList ++ suffix 0, [.always], [.set "a".toList "1".toList],
        oneRule, List.cons_ne_nil _ _, List.cons_ne_nil _ _⟩ :=
    readRule_eq_ok_iff.mpr ⟨rfl, .otherwise, ", a is 1.".toList, by decide, rfl, rfl,
      "a is 1.".toList, by decide, hactions⟩
  have htrim : Text.trim oneRule = oneRule := by decide
  have hread : RuleText.isIgnored oneRule = false := by decide
  simp only [RuleText.read, hlines, RuleText.readFrom, htrim, hread, hrule, Bool.false_eq_true,
    if_false]
  exact ⟨_, rfl⟩

/-- The path of the document of a file that has one only. -/
def Job.onlyPath (settings : BatchSettings) (job : Job) : Text :=
  Path.child settings.outputDirectory ((Path.fileStem? job.path).getD [] ++ ".dmn".toList)

/-- A file of one rule is converted to one document. -/
theorem Job.convert_oneRule (settings : BatchSettings) {tree : FileTree} {job : Job}
    (hread : tree.readText job.path = .ok oneRule) :
    ∃ skipped document, job.convert settings tree
      = .ok (⟨1, skipped, [job.onlyPath settings]⟩, [(job.onlyPath settings, document)]) := by
  obtain ⟨rule, hrule⟩ := exists_rule_oneRule job.suffix
  obtain ⟨documents, paths, hconvert, rfl, hlength⟩ :=
    job.convert_of_rules settings hread (by rw [hrule]; exact List.cons_ne_nil _ _)
  rw [hrule, chunks_of_fits (by rw [List.length_singleton]; omega)] at hlength
  obtain ⟨document, rfl⟩ := List.length_eq_one_iff.mp hlength
  rw [hrule] at hconvert
  exact ⟨(RuleText.read job.suffix oneRule).skipped.length, document, hconvert⟩

theorem Job.outputPaths_oneRule (settings : BatchSettings) {tree : FileTree} {job : Job}
    (hread : tree.readText job.path = .ok oneRule) :
    job.outputPaths settings tree = [job.onlyPath settings] := by
  obtain ⟨skipped, document, hconvert⟩ := job.convert_oneRule settings hread
  rw [outputPaths, hconvert]
  rfl

/-- **Processing a file of one rule** writes its document. -/
theorem Job.alone_oneRule (settings : BatchSettings) {tree : FileTree} {job : Job}
    (hread : tree.readText job.path = .ok oneRule) {written : Text → FileTree}
    (hwrite : ∀ document,
      tree.writeFile (job.onlyPath settings) (.text document) = .ok (written document)) :
    ∃ skipped document, (job.alone settings tree).tree = written document ∧
      (job.alone settings tree).value.outcome = .ok ⟨1, skipped, [job.onlyPath settings]⟩ := by
  obtain ⟨skipped, document, hconvert⟩ := job.convert_oneRule settings hread
  have halone := job.alone_eq settings tree
  rw [hconvert] at halone
  dsimp only at halone
  rw [writeRest_cons, hwrite] at halone
  exact ⟨skipped, document, Prod.mk.inj halone⟩

/-! ## Steps -/

/-- **How far a file is**: it waits to be read, it has documents left to write, or it has an
outcome. -/
inductive Progress
  | waiting
  | writing (output : FileOutput) (left : List (Text × Text))
  | done (outcome : Except ConversionError FileOutput)

/-- **A file and how far it is.** -/
structure Task where
  job : Job
  progress : Progress

/-- **A step** of a file: it is read and converted, or one document is written, or there is none
left to write. -/
def Task.advance (settings : BatchSettings) (tree : FileTree) (task : Task) : FileTree × Task :=
  match task.progress with
  | .waiting =>
      match task.job.convert settings tree with
      | .error error => (tree, ⟨task.job, .done (.error error)⟩)
      | .ok (output, documents) => (tree, ⟨task.job, .writing output documents⟩)
  | .writing output [] => (tree, ⟨task.job, .done (.ok output)⟩)
  | .writing output ((path, document) :: left) =>
      match tree.writeFile path (.text document) with
      | .error error => (tree, ⟨task.job, .done (.error (.file error))⟩)
      | .ok tree => (tree, ⟨task.job, .writing output left⟩)
  | .done _ => (tree, task)

namespace Task

variable {settings : BatchSettings} {base tree solo : FileTree} {task : Task}

/-- A step is a step of the same file. -/
@[simp]
theorem job_advance (settings : BatchSettings) (tree : FileTree) (task : Task) :
    (task.advance settings tree).2.job = task.job := by
  obtain ⟨job, progress⟩ := task
  fun_cases advance settings tree ⟨job, progress⟩ <;> simp_all

/-- **What a step changes**: nothing, or one file where the path of the next document leads. -/
theorem tree_advance (hroot : tree.kind = .directory) (settings : BatchSettings) (task : Task) :
    (task.advance settings tree).1 = tree ∨
    ∃ output path document left place,
      task.progress = .writing output ((path, document) :: left) ∧
      tree.landing? path = some place ∧
      tree.IsWritten place (.text document) (task.advance settings tree).1 := by
  obtain ⟨job, progress⟩ := task
  cases progress with
  | waiting =>
      refine Or.inl ?_
      rw [advance]
      dsimp only
      rcases job.convert settings tree with error | ⟨output, documents⟩ <;> rfl
  | done outcome => exact Or.inl rfl
  | writing output left =>
      cases left with
      | nil => exact Or.inl rfl
      | cons first left =>
          obtain ⟨path, document⟩ := first
          rw [advance]
          dsimp only
          rcases writeFile_spec hroot path (.text document) with
            ⟨place, written, hplace, hwrite, hwritten⟩ | ⟨-, error, hwrite⟩
          · rw [hwrite]
            exact Or.inr ⟨output, path, document, left, place, rfl, hplace, hwritten⟩
          · rw [hwrite]
            exact Or.inl rfl

/-- **A step changes no directory and no link.** -/
theorem guideAt_advance (hroot : tree.kind = .directory) (settings : BatchSettings) (task : Task) :
    (task.advance settings tree).1.guideAt = tree.guideAt := by
  rcases tree_advance hroot settings task with h | ⟨_, _, _, _, _, -, hplace, hwritten⟩
  · rw [h]
  · refine guideAt_of_isWritten ?_ hwritten
    exact Option.isNone_iff_eq_none.mp (Option.filter_eq_some_iff.mp hplace).2

/-! ## Alone -/

/-- **What a file comes to** from a tree when nothing else is worked on. -/
def finish (settings : BatchSettings) (tree : FileTree) (task : Task) :
    FileTree × Except ConversionError FileOutput :=
  match task.progress with
  | .waiting => ((task.job.alone settings tree).tree, (task.job.alone settings tree).value.outcome)
  | .writing output left => writeRest output tree left
  | .done outcome => (tree, outcome)

/-- **A step leads to the same end.** -/
theorem finish_advance (settings : BatchSettings) (tree : FileTree) (task : Task) :
    (task.advance settings tree).2.finish settings (task.advance settings tree).1
      = task.finish settings tree := by
  obtain ⟨job, progress⟩ := task
  cases progress with
  | waiting =>
      show _ = ((job.alone settings tree).tree, (job.alone settings tree).value.outcome)
      rw [job.alone_eq, advance]
      dsimp only
      rcases job.convert settings tree with error | ⟨output, documents⟩ <;> rfl
  | done outcome => rfl
  | writing output left =>
      cases left with
      | nil => rfl
      | cons first left =>
          obtain ⟨path, document⟩ := first
          show _ = writeRest output tree ((path, document) :: left)
          rw [writeRest_cons, advance]
          dsimp only
          cases tree.writeFile path (.text document) <;> rfl

/-- **A file stands alone in a tree** that started as the base if it comes there to what it comes
to from the base, and what it has left to write are documents it was converted to. -/
structure Alone (settings : BatchSettings) (base : FileTree) (task : Task) (solo : FileTree) :
    Prop where
  finish : task.finish settings solo = (Task.mk task.job .waiting).finish settings base
  waiting : task.progress = .waiting → solo = base
  paths : ∀ {output left}, task.progress = .writing output left →
    ∀ document ∈ left, document.1 ∈ task.job.outputPaths settings base
  guides : solo.guideAt = base.guideAt

/-- What a file was converted to is written to its output paths. -/
theorem mem_outputPaths {job : Job} {output : FileOutput} {documents : List (Text × Text)}
    (h : job.convert settings base = .ok (output, documents)) {document : Text × Text}
    (hd : document ∈ documents) : document.1 ∈ job.outputPaths settings base := by
  rw [Job.outputPaths, h]
  exact List.mem_map_of_mem hd

/-- **A step of a file alone** leaves it alone. -/
theorem Alone.advance (hroot : solo.kind = .directory) (h : Alone settings base task solo) :
    Alone settings base (task.advance settings solo).2 (task.advance settings solo).1 where
  finish := by rw [finish_advance, job_advance, h.finish]
  guides := (guideAt_advance hroot settings task).trans h.guides
  waiting := by
    fun_cases Task.advance settings solo task with
    | case6 outcome hprogress => exact fun hwaiting => nomatch hprogress.symm.trans hwaiting
    | _ => exact nofun
  paths := by
    rw [job_advance]
    fun_cases Task.advance settings solo task with
    | case2 hprogress output documents hconvert =>
        intro output left hleft document hd
        cases hleft
        exact mem_outputPaths (h.waiting hprogress ▸ hconvert) hd
    | case5 output path document left hprogress written hwrite =>
        intro output left hleft document hd
        cases hleft
        exact h.paths hprogress document (List.mem_cons_of_mem _ hd)
    | case6 outcome hprogress => exact fun hwriting => nomatch hprogress.symm.trans hwriting
    | _ => exact nofun

/-! ## Among others -/

/-- A file is converted alike in trees that agree on the way of its path. -/
theorem convert_congr {job : Job} (h : tree.AgreeOn solo (tree.wayOf job.path)) :
    job.convert settings tree = job.convert settings solo := by
  rw [Job.convert, Job.convert, readText_congr h]

/-- **A step is the same wherever its footprint is**: trees that agree on the footprint of a file
give the same step, and agree on it afterwards. -/
theorem advance_congr (hbase : base.kind = .directory) (hguides : tree.guideAt = base.guideAt)
    (h : Alone settings base task solo)
    (hagree : tree.AgreeOn solo (task.job.footprint settings base)) :
    (task.advance settings tree).2 = (task.advance settings solo).2 ∧
      (task.advance settings tree).1.AgreeOn (task.advance settings solo).1
        (task.job.footprint settings base) := by
  have hways : tree.wayOf = base.wayOf := funext (wayOf_congr hguides)
  obtain ⟨job, progress⟩ := task
  cases progress with
  | waiting =>
      have hsource : tree.AgreeOn solo (tree.wayOf job.path) := fun place hplace =>
        hagree place (List.mem_append_left _ (hways ▸ hplace))
      rw [advance, advance]
      dsimp only
      rw [convert_congr hsource]
      rcases job.convert settings solo with error | ⟨output, documents⟩ <;> exact ⟨rfl, hagree⟩
  | done outcome => exact ⟨rfl, hagree⟩
  | writing output left =>
      cases left with
      | nil => exact ⟨rfl, hagree⟩
      | cons first left =>
          -- The way of the next document is on the footprint, whoever changed files meanwhile.
          obtain ⟨path, document⟩ := first
          have hmem : path ∈ job.outputPaths settings base := h.paths rfl _ List.mem_cons_self
          have hpath : tree.AgreeOn solo (tree.wayOf path) := fun place hplace =>
            hagree place (List.mem_append_right _
              (List.mem_flatMap.mpr ⟨path, hmem, hways ▸ hplace⟩))
          rw [advance, advance]
          dsimp only
          rcases writeFile_congr (kind_of_guideAt_eq hguides hbase)
              (kind_of_guideAt_eq h.guides hbase) hpath (.text document) with
            ⟨error, hwrite, hwrite'⟩ | ⟨place, written, written', hwrite, hw, hwrite', hw'⟩
          · rw [hwrite, hwrite']
            exact ⟨rfl, hagree⟩
          · rw [hwrite, hwrite']
            exact ⟨rfl, hagree.isWritten hw hw'⟩

/-- **A step changes only places of its file.** -/
theorem kindAt_advance (hbase : base.kind = .directory) (hguides : tree.guideAt = base.guideAt)
    (h : Alone settings base task solo) {location : List Text}
    (hlocation : location ∉ task.job.places settings base) :
    (task.advance settings tree).1.kindAt location = tree.kindAt location := by
  rcases tree_advance (kind_of_guideAt_eq hguides hbase) settings task with
    hsame | ⟨output, path, document, left, place, hprogress, hplace, hwritten⟩
  · rw [hsame]
  · have hmem : place ∈ task.job.places settings base :=
      List.mem_filterMap.mpr ⟨path, h.paths hprogress _ List.mem_cons_self,
        landing?_congr hguides path ▸ hplace⟩
    have hne : location ≠ place := fun hsame => hlocation (hsame ▸ hmem)
    rw [hwritten, if_neg hne]

end Task

end RuleTable
