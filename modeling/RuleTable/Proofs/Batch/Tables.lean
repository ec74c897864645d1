import Mathlib.Data.Finset.Card
import RuleTable.Proofs.Batch.Discovery
import RuleTable.Proofs.Batch.Documents
import RuleTable.Proofs.Batch.Names
import RuleTable.Proofs.Batch.Schedule

/-!
# The documents that a report lists

All documents of a batch go to one directory, under names that are made of the stems of their
files. So two results list a path together exactly if their files clash, and exactly then the
report counts more documents than there are paths. If the files keep apart, neither happens, and
each path that is listed holds a document of its own file. Two files of one name in different
directories do clash: the second document takes the place of the first.
-/

set_option autoImplicit false

namespace RuleTable

open FileTree

/-! ## Listed paths -/

namespace FileResult

/-- **The paths that a result lists**: those of the documents of a file that was converted. -/
def tables (result : FileResult) : List Text :=
  match result.outcome with
  | .ok output => output.documents
  | .error _ => []

theorem tables_of_ok {result : FileResult} {output : FileOutput}
    (h : result.outcome = .ok output) : result.tables = output.documents := by
  rw [tables, h]

/-- The stem that the documents of a file are named after. -/
def stem (result : FileResult) : Text := (Path.fileStem? result.path).getD []

/-- **Two results clash** if both files were converted and have documents of one name. -/
def Clashes (result other : FileResult) : Prop :=
  ∃ output output', result.outcome = .ok output ∧ other.outcome = .ok output' ∧
    NamesClash result.stem output.documents.length other.stem output'.documents.length

/-- **Paths are named after their file**: a result lists the paths of so many documents. -/
def Named (settings : BatchSettings) (result : FileResult) : Prop :=
  ∀ output, result.outcome = .ok output → output.documents
    = (documentNames result.stem output.documents.length).map (Path.child settings.outputDirectory)

variable {settings : BatchSettings} {result other : FileResult}

theorem Named.nodup_tables (h : result.Named settings) : result.tables.Nodup := by
  obtain ⟨path, error | output⟩ := result
  · exact List.nodup_nil
  · show output.documents.Nodup
    rw [h output rfl]
    exact (nodup_documentNames _ _).map (Path.child_injective _)

/-- **Two results list a path together exactly if they clash.** -/
theorem Named.disjoint_tables_iff (h : result.Named settings) (h' : other.Named settings) :
    result.tables.Disjoint other.tables ↔ ¬ result.Clashes other := by
  obtain ⟨path, error | output⟩ := result
  · refine iff_of_true (List.disjoint_nil_left _) ?_
    rintro ⟨_, _, houtcome, -⟩
    cases houtcome
  obtain ⟨path', error | output'⟩ := other
  · refine iff_of_true (List.disjoint_nil_right _) ?_
    rintro ⟨_, _, -, houtcome, -⟩
    cases houtcome
  have hclash : Clashes ⟨path, .ok output⟩ ⟨path', .ok output'⟩ ↔
      NamesClash (stem ⟨path, .ok output⟩) output.documents.length
        (stem ⟨path', .ok output'⟩) output'.documents.length := by
    refine ⟨?_, fun hnames => ⟨output, output', rfl, rfl, hnames⟩⟩
    rintro ⟨_, _, ⟨⟩, ⟨⟩, hnames⟩
    exact hnames
  rw [hclash, ← disjoint_documentNames_iff]
  have hpaths : tables ⟨path, .ok output⟩ = (documentNames _ output.documents.length).map
    (Path.child settings.outputDirectory) := h output rfl
  have hpaths' : tables ⟨path', .ok output'⟩ = (documentNames _ output'.documents.length).map
    (Path.child settings.outputDirectory) := h' output' rfl
  rw [hpaths, hpaths']
  refine ⟨fun hdisjoint name hname hname' => ?_, List.disjoint_map (Path.child_injective _)⟩
  exact hdisjoint (List.mem_map_of_mem hname) (List.mem_map_of_mem hname')

end FileResult

/-- All paths that a report lists, result by result. -/
def BatchReport.listed (report : BatchReport) : List Text := report.results.flatMap (·.tables)

/-- A report counts the paths it lists. -/
theorem BatchReport.documents_eq (report : BatchReport) :
    report.documents = report.listed.length := by
  obtain ⟨results⟩ := report
  induction results with
  | nil => rfl
  | cons result results ih =>
      obtain ⟨path, error | output⟩ := result
      · exact ih
      · rw [listed, List.flatMap_cons, List.length_append]
        exact congrArg (output.documents.length + ·) ih

/-- **A report counts each path once exactly if no results clash.** -/
theorem BatchReport.documents_eq_card_iff {settings : BatchSettings} {report : BatchReport}
    (h : ∀ result ∈ report.results, result.Named settings) :
    report.documents = report.listed.toFinset.card
      ↔ report.results.Pairwise fun result other => ¬ result.Clashes other := by
  rw [documents_eq, eq_comm]
  refine Multiset.toFinset_card_eq_card_iff_nodup.trans ?_
  rw [Multiset.coe_nodup, listed, List.nodup_flatMap]
  constructor
  · exact fun hnodup => hnodup.2.imp_of_mem fun hr ho =>
      ((h _ hr).disjoint_tables_iff (h _ ho)).mp
  · exact fun hclash => ⟨fun result hr => (h result hr).nodup_tables,
      hclash.imp_of_mem fun hr ho => ((h _ hr).disjoint_tables_iff (h _ ho)).mpr⟩

/-! ## Documents of a file -/

/-- A document that a file is converted to. -/
def Job.Gives (settings : BatchSettings) (tree : FileTree) (job : Job) (document : Text) : Prop :=
  ∃ text conversion, tree.readText job.path = .ok text ∧
    (Conversion.ofText job.suffix (.ofStem ((Path.fileStem? job.path).getD []))
      settings.conversion text).2 = .ok conversion ∧ document ∈ conversion.documents

/-- A conversion gives at least one document. -/
theorem Conversion.documents_ne_nil {suffix : Nat → Text} {decision : Decision}
    {settings : ConversionSettings} {text : Text} {conversion : Conversion}
    (h : (ofText suffix decision settings text).2 = .ok conversion) :
    conversion.documents ≠ [] := by
  obtain ⟨limit, check⟩ := settings
  by_cases hrules : (RuleText.read suffix text).rules = []
  · rw [ofText_of_no_rules suffix decision limit check text hrules] at h
    cases h
  · rw [ofText_of_rules suffix decision limit check text hrules] at h
    cases h
    simp [tables, chunks_ne_nil]

theorem length_documentNames {stem : Text} {count : Nat} (h : 0 < count) :
    (documentNames stem count).length = count := by
  rw [documentNames]
  split
  · rw [List.length_singleton]
    omega
  · rw [List.length_map, List.length_range']

namespace Job

variable {settings : BatchSettings} {tree : FileTree} {job : Job} {output : FileOutput}
  {documents : List (Text × Text)}

/-- **What a file is converted to**: as many paths as documents, the paths named after the file. -/
theorem convert_spec (h : job.convert settings tree = .ok (output, documents)) :
    output.documents = job.documentPaths settings output.documents.length ∧
      documents.map (·.1) = output.documents ∧
      ∀ document ∈ documents, job.Gives settings tree document.2 := by
  rw [convert] at h
  split at h
  · cases h
  · rename_i text hread
    dsimp only at h
    split at h
    · cases h
    · rename_i conversion hconversion
      cases h
      have hlength : (job.documentPaths settings conversion.documents.length).length
          = conversion.documents.length := by
        rw [documentPaths, List.length_map, length_documentNames]
        exact List.length_pos_iff.mpr (Conversion.documents_ne_nil hconversion)
      refine ⟨?_, ?_, ?_⟩
      · dsimp only
        rw [hlength]
      · exact List.map_fst_zip (Nat.le_of_eq hlength)
      · intro document hd
        exact ⟨text, conversion, hread, hconversion, (List.of_mem_zip hd).2⟩

/-- A file that is converted alone writes all its documents. -/
theorem alone_spec (h : (job.alone settings tree).value.outcome = .ok output) :
    ∃ documents, job.convert settings tree = .ok (output, documents) ∧
      writeDocuments tree documents = ((job.alone settings tree).tree, .ok ()) := by
  have halone := job.alone_eq settings tree
  rw [h] at halone
  cases hconvert : job.convert settings tree with
  | error error =>
      rw [hconvert] at halone
      cases (Prod.mk.inj halone).2
  | ok converted =>
      obtain ⟨output', documents⟩ := converted
      rw [hconvert] at halone
      dsimp only [writeRest] at halone
      rcases hwrite : writeDocuments tree documents with ⟨written, error | _⟩
      · rw [hwrite] at halone
        cases (Prod.mk.inj halone).2
      · rw [hwrite] at halone
        obtain ⟨htree, houtcome⟩ := Prod.mk.inj halone
        cases houtcome
        exact ⟨documents, rfl, htree ▸ hwrite⟩

end Job

/-- **A file that is converted alone** has written its output paths, and each of them holds one of
its documents. -/
theorem Job.tables_alone {settings : BatchSettings} {tree : FileTree} {job : Job}
    (hroot : tree.kind = .directory) {path : Text}
    (hpath : path ∈ (job.alone settings tree).value.tables) :
    path ∈ job.outputPaths settings tree ∧ (∃ place, tree.landing? path = some place) ∧
      ∃ document, job.Gives settings tree document ∧
        (job.alone settings tree).tree.readText path = .ok document := by
  rw [FileResult.tables] at hpath
  split at hpath
  · rename_i output houtcome
    obtain ⟨documents, hconvert, hwrite⟩ := alone_spec houtcome
    obtain ⟨-, hpaths, hgives⟩ := convert_spec hconvert
    obtain ⟨hwritten, hall⟩ := writeDocuments_spec hroot documents
    have hland := hall.mp (congrArg Prod.snd hwrite)
    rw [hland.landed_eq, hwrite] at hwritten
    rw [← hpaths] at hpath
    obtain ⟨document, hdocument, rfl⟩ := List.mem_map.mp hpath
    obtain ⟨place, hplace⟩ := hland document hdocument
    obtain ⟨last, hlast⟩ := exists_lastAt? hdocument hplace
    obtain ⟨path, hmem, -⟩ := exists_of_lastAt? hlast
    exact ⟨Task.mem_outputPaths hconvert hdocument, ⟨place, hplace⟩, last,
      hgives (path, last) hmem, hwritten.readText hplace hlast⟩
  · cases hpath

/-! ## Results of a pool -/

/-- The output that a file has when it is done, from the time when it was converted. -/
def Progress.output? : Progress → Option FileOutput
  | .waiting => none
  | .writing output _ => some output
  | .done (.ok output) => some output
  | .done (.error _) => none

/-- Paths of a task are named after its file. -/
def Task.Named (settings : BatchSettings) (task : Task) : Prop :=
  ∀ output, task.progress.output? = some output →
    output.documents = task.job.documentPaths settings output.documents.length

/-- A step keeps the names. -/
theorem Task.Named.advance {settings : BatchSettings} {tree : FileTree} {task : Task}
    (h : task.Named settings) : (task.advance settings tree).2.Named settings := by
  fun_cases Task.advance settings tree task with
  | case1 hprogress error hconvert =>
      intro output houtput
      cases houtput
  | case2 hprogress output documents hconvert =>
      rintro _ ⟨⟩
      exact (Job.convert_spec hconvert).1
  | case3 output hprogress =>
      rintro _ ⟨⟩
      exact h output (by rw [hprogress]; rfl)
  | case4 output path document left hprogress error hwrite =>
      intro output houtput
      cases houtput
  | case5 output path document left hprogress written hwrite =>
      rintro _ ⟨⟩
      exact h output (by rw [hprogress]; rfl)
  | case6 outcome hprogress => exact h

namespace Pool

variable {settings : BatchSettings} {base tree : FileTree} {jobs : List Job} {pool : Pool}
  {workers : Nat}

/-- **The paths of every result are named after its file.** -/
theorem named_of_reaches (hrun : Reaches settings (start base jobs workers) pool) :
    ∀ result ∈ pool.report.results, result.Named settings := by
  have htasks : ∀ task ∈ pool.tasks, task.Named settings := by
    refine invariant_of_reaches (fun _ tasks => ∀ task ∈ tasks, task.Named settings)
      (fun hperm h task htask => h task (hperm.mem_iff.mpr htask)) (fun h => ?_) hrun ?_
    · rw [List.forall_mem_cons] at h ⊢
      exact ⟨h.1.advance, h.2⟩
    · rw [tasks_start]
      intro task htask output houtput
      obtain ⟨job, -, rfl⟩ := List.mem_map.mp htask
      cases houtput
  intro result hresult output houtcome
  obtain ⟨⟨job, outcome⟩, hmem, rfl⟩ :=
    List.mem_map.mp ((BatchReport.perm_ofResults _).mem_iff.mp hresult)
  have htask : ⟨job, .done outcome⟩ ∈ pool.tasks :=
    List.mem_append_right _ (List.mem_map_of_mem hmem)
  cases houtcome
  exact htasks _ htask output rfl

/-- Files that keep apart list no path together. -/
theorem disjoint_tables_of_apart (hroot : base.kind = .directory) {job other : Job}
    (h : job.Apart settings base other) :
    (job.alone settings base).value.tables.Disjoint (other.alone settings base).value.tables := by
  -- The place where a shared path leads would be a place of one file on the way of the other.
  intro path hpath hpath'
  obtain ⟨houtput, ⟨place, hplace⟩, -⟩ := Job.tables_alone hroot hpath
  obtain ⟨houtput', -, -⟩ := Job.tables_alone hroot hpath'
  refine h.1 place (List.mem_filterMap.mpr ⟨path, houtput, hplace⟩) ?_
  exact List.mem_append_right _
    (List.mem_flatMap.mpr ⟨path, houtput', mem_wayOf_of_landing? hplace⟩)

/-- **A pool keeps its documents** if no two results list a path together, the report counts the
paths, and each path that a result lists holds a document of its own file. -/
structure KeepsDocuments (settings : BatchSettings) (base : FileTree) (jobs : List Job)
    (pool : Pool) : Prop where
  disjoint : pool.report.results.Pairwise fun result other => result.tables.Disjoint other.tables
  documents : pool.report.documents = pool.report.listed.toFinset.card
  own : ∀ result ∈ pool.report.results, ∀ path ∈ result.tables,
    ∃ job ∈ jobs, job.path = result.path ∧
      ∃ document, job.Gives settings base document ∧ pool.tree.readText path = .ok document

/-- **A pool that shows what its files give alone keeps its documents.** -/
theorem ShowsAlone.keepsDocuments (hroot : base.kind = .directory)
    (hapart : jobs.Pairwise (Job.Apart settings base))
    (hrun : Reaches settings (start base jobs workers) pool)
    (h : ShowsAlone settings base jobs pool) : KeepsDocuments settings base jobs pool := by
  have hdisjoint : pool.report.results.Pairwise
      fun result other => result.tables.Disjoint other.tables := by
    refine h.results.symm.pairwise (List.pairwise_map.mpr ?_) List.Disjoint.symm
    exact hapart.imp (disjoint_tables_of_apart hroot)
  have hnamed := named_of_reaches hrun
  refine ⟨hdisjoint, (BatchReport.documents_eq_card_iff hnamed).mpr ?_, ?_⟩
  · exact hdisjoint.imp_of_mem fun hr ho => ((hnamed _ hr).disjoint_tables_iff (hnamed _ ho)).mp
  · intro result hresult path hpath
    obtain ⟨job, hjob, rfl⟩ := List.mem_map.mp (h.results.mem_iff.mp hresult)
    obtain ⟨houtput, -, document, hgives, hread⟩ := Job.tables_alone hroot hpath
    exact ⟨job, hjob, rfl, document, hgives, (h.documents job hjob path houtput).trans hread⟩

/-- **When a batch overwrites its documents.** In every run of a batch, two results list a path
together exactly if their files clash, and the report counts each path once exactly if no two
results clash. At the end, a batch whose files keep apart has all its documents. -/
theorem tables_of_reaches
    (hbase : tree.makeDirectory settings.outputDirectory = .ok base)
    (hworkers : 0 < workers) (hrun : Reaches settings (start base jobs workers) pool) :
    (∀ result ∈ pool.report.results, ∀ other ∈ pool.report.results,
      result.tables.Disjoint other.tables ↔ ¬ result.Clashes other) ∧
    (pool.report.documents = pool.report.listed.toFinset.card
      ↔ pool.report.results.Pairwise fun result other => ¬ result.Clashes other) ∧
    (pool.Finished → jobs.Pairwise (Job.Apart settings base) →
      KeepsDocuments settings base jobs pool) := by
  have hnamed := named_of_reaches hrun
  have hroot : base.kind = .directory := kind_of_makeDirectory hbase
  refine ⟨fun result hr other ho => (hnamed _ hr).disjoint_tables_iff (hnamed _ ho),
    BatchReport.documents_eq_card_iff hnamed, fun hfinished hapart => ?_⟩
  have hshows := showsAlone_of_finished hroot hapart hworkers hrun hfinished
  exact hshows.keepsDocuments hroot hapart hrun

end Pool

/-- **The two files with different names** keep their documents. -/
theorem keepsDocuments_twoFiles : ∃ pool, Pool.Reaches {} (.start twoFiles twoJobs 2) pool ∧
    pool.Finished ∧ twoJobs.Pairwise (Job.Apart {} twoFiles) ∧
    Pool.KeepsDocuments {} twoFiles twoJobs pool := by
  obtain ⟨pool, hrun, hfinished, -, -⟩ := Pool.exists_run_of_processAll {} (fun _ => []) twoFiles
    ["in/a.txt".toList, "in/b.txt".toList] Nat.zero_lt_two
  obtain ⟨-, -, hkeeps⟩ :=
    Pool.tables_of_reaches makeDirectory_twoFiles Nat.zero_lt_two hrun
  exact ⟨pool, hrun, hfinished, apart_twoJobs, hkeeps hfinished apart_twoJobs⟩

/-! ## Files of one name -/

/-- Two rule files of one name, in different directories. -/
def sameNames : FileTree :=
  .directory [] [.directory "in".toList [.file "a.txt".toList (.text oneRule),
    .directory "b".toList [.file "a.txt".toList (.text oneRule)]]]

/-- The same files, and a directory of documents. -/
def sameNamesWith (documents : List FileTree) : FileTree :=
  .directory [] [.directory "in".toList [.file "a.txt".toList (.text oneRule),
    .directory "b".toList [.file "a.txt".toList (.text oneRule)]],
    .directory "output".toList documents]

/-- The file in the directory. -/
def outerFile : Job := ⟨"in/a.txt".toList, fun _ => []⟩

/-- The file in the directory within. -/
def innerFile : Job := ⟨"in/b/a.txt".toList, fun _ => []⟩

/-- The first document is written. -/
theorem writeFile_sameNames (document : Text) :
    (sameNamesWith []).writeFile (outerFile.onlyPath {}) (.text document)
      = .ok (sameNamesWith [.file "a.dmn".toList (.text document)]) := by
  have hpath : outerFile.onlyPath {} = "output/a.dmn".toList := by decide
  rw [hpath]
  cbv

/-- The second document is written in its place. -/
theorem writeFile_sameNamesWith (document other : Text) :
    (sameNamesWith [.file "a.dmn".toList (.text document)]).writeFile (innerFile.onlyPath {})
        (.text other)
      = .ok (sameNamesWith [.file "a.dmn".toList (.text other)]) := by
  have hpath : innerFile.onlyPath {} = "output/a.dmn".toList := by decide
  rw [hpath]
  cbv

/-- The batch of the directory converts one file after the other. -/
theorem processDirectory_sameNames :
    (processDirectory (fun _ => []) {} 1 sameNames "in".toList).value
      = .ok (.ofResults [(outerFile.alone {} (sameNamesWith [])).value,
          (innerFile.alone {} (outerFile.alone {} (sameNamesWith [])).tree).value]) := by
  have hread : sameNames.listing "in".toList = .ok (["in".toList],
      [.file "a.txt".toList (.text oneRule),
        .directory "b".toList [.file "a.txt".toList (.text oneRule)]]) := by cbv
  have hread' : sameNames.listing "in/b".toList = .ok (["in".toList, "b".toList],
      [.file "a.txt".toList (.text oneRule)]) := by cbv
  have hfiles : findFiles sameNames "in".toList "txt".toList
      = .ok [outerFile.path, innerFile.path] := by
    refine (findFiles_eq_ok_iff hread).mpr
      ⟨List.forall_mem_singleton.mpr ⟨_, hread'⟩, ?_⟩
    exact Path.StrictlySorted.sort_eq (List.pairwise_pair.mpr (by decide)) (.refl _) (by decide)
  have houtput : sameNames.makeDirectory "output".toList = .ok (sameNamesWith []) := by cbv
  rw [processDirectory, hfiles]
  dsimp only
  rw [processFiles, houtput]
  rfl

/-- **Files of one name overwrite each other's document**: the batch of their directory reports two
documents, and both results list the one path. -/
theorem listed_sameNames : ∃ report result other,
    (processDirectory (fun _ => []) {} 1 sameNames "in".toList).value = .ok report ∧
    report.results.Perm [result, other] ∧ result.path ≠ other.path ∧
    ¬ result.tables.Disjoint other.tables ∧
    report.documents = 2 ∧ report.listed.toFinset.card = 1 := by
  have hread : (sameNamesWith []).readText outerFile.path = .ok oneRule := by cbv
  have hread' : ∀ document, (sameNamesWith [.file "a.dmn".toList (.text document)]).readText
      innerFile.path = .ok oneRule := fun _ => by cbv
  obtain ⟨_, document, htree, houtcome⟩ := outerFile.alone_oneRule {} hread writeFile_sameNames
  obtain ⟨_, _, -, houtcome'⟩ :=
    innerFile.alone_oneRule {} (hread' document) (writeFile_sameNamesWith document)
  rw [← htree] at houtcome'
  have hpath : innerFile.onlyPath {} = outerFile.onlyPath {} := by decide
  have htables := FileResult.tables_of_ok houtcome
  have htables' := (FileResult.tables_of_ok houtcome').trans (congrArg ([·]) hpath)
  have hlisted : (BatchReport.ofResults [(outerFile.alone {} (sameNamesWith [])).value,
      (innerFile.alone {} (outerFile.alone {} (sameNamesWith [])).tree).value]).listed.Perm
        [outerFile.onlyPath {}, outerFile.onlyPath {}] := by
    refine ((BatchReport.perm_ofResults _).flatMap_right _).trans ?_
    rw [List.flatMap_cons, List.flatMap_cons, htables, htables']
    exact .refl _
  refine ⟨_, _, _, processDirectory_sameNames, BatchReport.perm_ofResults _, ?_, ?_, ?_, ?_⟩
  · show outerFile.path ≠ innerFile.path
    decide
  · rw [htables, htables']
    exact fun hdisjoint => hdisjoint (List.mem_singleton_self _) (List.mem_singleton_self _)
  · rw [BatchReport.documents_eq, hlisted.length_eq]
    rfl
  · rw [List.toFinset_eq_of_perm _ _ hlisted]
    rfl

end RuleTable
