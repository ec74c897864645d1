import RuleTable.Proofs.Batch.Sequential

/-!
# Schedules

Whatever the order in which the workers of a batch take their steps, the report has one result for
each file, in the order of paths. **Files that keep apart**, so that no document of one goes where
another one's source or documents are looked for, do not notice each other: each of them gives the
result and the documents that it gives alone, so that the report and the files that are written
depend neither on the schedule nor on the number of workers.
-/

set_option autoImplicit false

namespace RuleTable

open FileTree

variable {settings : BatchSettings} {base tree : FileTree} {jobs : List Job} {pool : Pool}

/-! ## Files that keep apart -/

/-- **Two files keep apart** if no document of one goes to the footprint of the other. -/
def Job.Apart (settings : BatchSettings) (base : FileTree) (job other : Job) : Prop :=
  (∀ place ∈ job.places settings base, place ∉ other.footprint settings base) ∧
    ∀ place ∈ other.places settings base, place ∉ job.footprint settings base

/-- Files keep apart from each other. -/
theorem Job.Apart.symm {job other : Job} (h : job.Apart settings base other) :
    other.Apart settings base job :=
  ⟨h.2, h.1⟩

/-- **Tasks that do not notice each other**: each of them finds on its footprint what it would find
there alone, and elsewhere the tree is as it was. -/
structure Unnoticed (settings : BatchSettings) (base tree : FileTree) (tasks : List Task) :
    Prop where
  guides : tree.guideAt = base.guideAt
  apart : (tasks.map (·.job)).Pairwise (Job.Apart settings base)
  alone : ∀ task ∈ tasks, ∃ solo, task.Alone settings base solo ∧
    tree.AgreeOn solo (task.job.footprint settings base)
  elsewhere : ∀ location, (∀ task ∈ tasks, location ∉ task.job.places settings base) →
    tree.kindAt location = base.kindAt location

namespace Unnoticed

theorem perm {tasks others : List Task} (hperm : tasks.Perm others)
    (h : Unnoticed settings base tree tasks) : Unnoticed settings base tree others where
  guides := h.guides
  apart := (hperm.map Task.job).pairwise h.apart Job.Apart.symm
  alone task htask := h.alone task (hperm.mem_iff.mpr htask)
  elsewhere location hlocation :=
    h.elsewhere location fun task htask => hlocation task (hperm.mem_iff.mp htask)

/-- At the start nothing has happened. -/
theorem start (hapart : jobs.Pairwise (Job.Apart settings base)) :
    Unnoticed settings base base (jobs.map (⟨·, .waiting⟩)) where
  guides := rfl
  apart := by
    rw [List.map_map]
    exact (List.map_id jobs).symm ▸ hapart
  alone := by
    intro task htask
    obtain ⟨job, -, rfl⟩ := List.mem_map.mp htask
    exact ⟨base, ⟨rfl, fun _ => rfl, nofun, rfl⟩, fun _ _ => rfl⟩
  elsewhere _ _ := rfl

/-- **A step of one task is not noticed by the others.** -/
theorem advance (hbase : base.kind = .directory) {task : Task} {others : List Task}
    (h : Unnoticed settings base tree (task :: others)) :
    Unnoticed settings base (task.advance settings tree).1
      ((task.advance settings tree).2 :: others) := by
  obtain ⟨solo, halone, hagree⟩ := h.alone task List.mem_cons_self
  have hroot := kind_of_guideAt_eq h.guides hbase
  obtain ⟨hstep, hagree'⟩ := Task.advance_congr hbase h.guides halone hagree
  have hapart := h.apart
  rw [List.map_cons, List.pairwise_cons] at hapart
  refine ⟨(Task.guideAt_advance hroot settings task).trans h.guides, ?_, ?_, ?_⟩
  · rw [List.map_cons, Task.job_advance]
    exact h.apart
  · intro other hother
    rcases List.mem_cons.mp hother with rfl | hother
    · refine ⟨(task.advance settings solo).1, ?_, ?_⟩
      · rw [hstep]
        exact halone.advance (kind_of_guideAt_eq halone.guides hbase)
      · rw [Task.job_advance]
        exact hagree'
    -- What another task finds on its footprint is no place of this one, so the step left it.
    · obtain ⟨solo', halone', hagree''⟩ := h.alone other (List.mem_cons_of_mem _ hother)
      refine ⟨solo', halone', fun place hplace => ?_⟩
      have hnot : place ∉ task.job.places settings base := fun hmem =>
        (hapart.1 _ (List.mem_map_of_mem hother)).1 place hmem hplace
      rw [Task.kindAt_advance hbase h.guides halone hnot]
      exact hagree'' place hplace
  · intro location hlocation
    rw [List.forall_mem_cons, Task.job_advance] at hlocation
    rw [Task.kindAt_advance hbase h.guides halone hlocation.1]
    exact h.elsewhere location (List.forall_mem_cons.mpr hlocation)

end Unnoticed

namespace Pool

/-! ## At the end of a run -/

/-- **A report has one result for each file**, in the order of paths. -/
structure Accounts (jobs : List Job) (report : BatchReport) : Prop where
  paths : (report.results.map (·.path)).Perm (jobs.map (·.path))
  order : report.results.map (fun result => Path.key result.path)
    = (Path.sort (jobs.map (·.path))).map Path.key

/-- **A pool shows what its files give alone**: the result of each, what each leaves on its
footprint and so each document, and nothing else. -/
structure ShowsAlone (settings : BatchSettings) (base : FileTree) (jobs : List Job) (pool : Pool) :
    Prop where
  results : pool.report.results.Perm (jobs.map fun job => (job.alone settings base).value)
  footprints : ∀ job ∈ jobs,
    pool.tree.AgreeOn (job.alone settings base).tree (job.footprint settings base)
  documents : ∀ job ∈ jobs, ∀ path ∈ job.outputPaths settings base,
    pool.tree.readText path = (job.alone settings base).tree.readText path
  elsewhere : ∀ location, (∀ job ∈ jobs, location ∉ job.places settings base) →
    pool.tree.kindAt location = base.kindAt location

/-- **Pools that show the same**: the same results, in the same order but for results whose paths
compare equal, and the same files. -/
structure ShowsSame (pool other : Pool) : Prop where
  results : pool.report.results.Perm other.report.results
  files : ∀ location, pool.tree.kindAt location = other.tree.kindAt location
  report : (∀ first ∈ pool.report.results, ∀ second ∈ pool.report.results,
    Path.key first.path = Path.key second.path → first = second) → pool.report = other.report

variable {workers : Nat}

/-- The files of the results are those of the batch. -/
theorem perm_results (hworkers : 0 < workers)
    (hrun : Reaches settings (start base jobs workers) pool) (hfinished : pool.Finished) :
    (pool.results.map (·.1)).Perm jobs := by
  have hjobs := perm_jobs_of_reaches hrun
  rw [tasks_of_finished hworkers hrun hfinished, List.map_map] at hjobs
  exact hjobs

/-- **At the end of a run each file has its result.** -/
theorem accounts_of_finished (hworkers : 0 < workers)
    (hrun : Reaches settings (start base jobs workers) pool) (hfinished : pool.Finished) :
    Accounts jobs pool.report := by
  have hpaths : (pool.report.results.map (·.path)).Perm (jobs.map (·.path)) := by
    refine ((BatchReport.perm_ofResults _).map _).trans ?_
    rw [List.map_map]
    have hperm := (perm_results hworkers hrun hfinished).map Job.path
    rwa [List.map_map] at hperm
  refine ⟨hpaths, ?_⟩
  have horder := Path.map_key_of_sorted (BatchReport.sorted_ofResults _) hpaths
  rwa [List.map_map] at horder

/-- **Files that keep apart do not notice each other** during any run. -/
theorem unnoticed_of_reaches (hbase : base.kind = .directory)
    (hapart : jobs.Pairwise (Job.Apart settings base))
    (hrun : Reaches settings (start base jobs workers) pool) :
    Unnoticed settings base pool.tree pool.tasks := by
  refine invariant_of_reaches (Unnoticed settings base) Unnoticed.perm
    (Unnoticed.advance hbase) hrun ?_
  rw [tasks_start]
  exact .start hapart

/-- A file that is done has the outcome that it has alone, and leaves what it leaves alone. -/
theorem alone_of_done {tasks : List Task} (h : Unnoticed settings base tree tasks) {job : Job}
    {outcome : Except ConversionError FileOutput} (hmem : ⟨job, .done outcome⟩ ∈ tasks) :
    outcome = (job.alone settings base).value.outcome ∧
      tree.AgreeOn (job.alone settings base).tree (job.footprint settings base) := by
  obtain ⟨solo, halone, hagree⟩ := h.alone _ hmem
  have hfinish : (solo, outcome)
      = ((job.alone settings base).tree, (job.alone settings base).value.outcome) := halone.finish
  obtain ⟨rfl, houtcome⟩ := Prod.mk.inj hfinish
  exact ⟨houtcome, hagree⟩

/-- **At the end of a run, files that kept apart show what they give alone.** -/
theorem showsAlone_of_finished (hbase : base.kind = .directory)
    (hapart : jobs.Pairwise (Job.Apart settings base)) (hworkers : 0 < workers)
    (hrun : Reaches settings (start base jobs workers) pool) (hfinished : pool.Finished) :
    ShowsAlone settings base jobs pool := by
  have hunnoticed := unnoticed_of_reaches hbase hapart hrun
  have htasks := tasks_of_finished hworkers hrun hfinished
  have hjobs := perm_results hworkers hrun hfinished
  rw [htasks] at hunnoticed
  have hdone : ∀ {job outcome}, (job, outcome) ∈ pool.results →
      outcome = (job.alone settings base).value.outcome ∧
        pool.tree.AgreeOn (job.alone settings base).tree (job.footprint settings base) :=
    fun hmem => alone_of_done hunnoticed (List.mem_map_of_mem hmem)
  have hfootprints : ∀ job ∈ jobs,
      pool.tree.AgreeOn (job.alone settings base).tree (job.footprint settings base) := by
    intro job hjob
    obtain ⟨⟨_, outcome⟩, hresult, rfl⟩ := List.mem_map.mp (hjobs.mem_iff.mpr hjob)
    exact (hdone hresult).2
  refine ⟨?_, hfootprints, ?_, ?_⟩
  · refine (BatchReport.perm_ofResults _).trans ?_
    have hvalues : pool.results.map (fun sent => (⟨sent.1.path, sent.2⟩ : FileResult))
        = (pool.results.map (·.1)).map fun job => (job.alone settings base).value := by
      rw [List.map_map]
      refine List.map_congr_left fun sent hmem => ?_
      exact congrArg (FileResult.mk sent.1.path) (hdone hmem).1
    rw [hvalues]
    exact hjobs.map _
  · intro job hjob path hpath
    refine readText_congr fun place hplace => hfootprints job hjob place ?_
    refine List.mem_append_right _ (List.mem_flatMap.mpr ⟨path, hpath, ?_⟩)
    rwa [← wayOf_congr hunnoticed.guides]
  · intro location hlocation
    refine hunnoticed.elsewhere location fun task htask => ?_
    obtain ⟨⟨job, outcome⟩, hmem, rfl⟩ := List.mem_map.mp htask
    exact hlocation job (hjobs.mem_iff.mp (List.mem_map_of_mem hmem))

/-- The places of a file are on its footprint. -/
theorem mem_footprint_of_mem_places {job : Job} {place : List Text}
    (h : place ∈ job.places settings base) : place ∈ job.footprint settings base := by
  obtain ⟨path, hpath, hplace⟩ := List.mem_filterMap.mp h
  exact List.mem_append_right _ (List.mem_flatMap.mpr ⟨path, hpath, mem_wayOf_of_landing? hplace⟩)

/-- **Pools that show what their files give alone show the same.** -/
theorem ShowsAlone.showsSame {other : Pool} (h : ShowsAlone settings base jobs pool)
    (h' : ShowsAlone settings base jobs other) : ShowsSame pool other := by
  refine ⟨h.results.trans h'.results.symm, fun location => ?_, fun hsame => ?_⟩
  · by_cases hplace : ∃ job ∈ jobs, location ∈ job.places settings base
    · obtain ⟨job, hjob, hmem⟩ := hplace
      have hfootprint := mem_footprint_of_mem_places hmem
      rw [h.footprints job hjob location hfootprint, h'.footprints job hjob location hfootprint]
    · have hnot : ∀ job ∈ jobs, location ∉ job.places settings base :=
        fun job hjob hmem => hplace ⟨job, hjob, hmem⟩
      rw [h.elsewhere location hnot, h'.elsewhere location hnot]
  · have hraw := BatchReport.perm_ofResults
      (pool.results.map fun sent => ⟨sent.1.path, sent.2⟩)
    refine BatchReport.ofResults_eq_of_perm ?_ fun first hf second hs =>
      hsame first (hraw.mem_iff.mpr hf) second (hraw.mem_iff.mpr hs)
    exact hraw.symm.trans ((h.results.trans h'.results.symm).trans (BatchReport.perm_ofResults _))

/-- **A batch accounts for its files whatever its schedule.** Its output directory was made, and
its workers take their steps in any order. Every run comes to an end, and then the report has one
result for each file, in the order of paths. If the files keep apart, every result and every
document is the one that the file gives alone; and any other run, with any number of workers, shows
the same. -/
theorem shows_of_reaches
    (hbase : tree.makeDirectory settings.outputDirectory = .ok base)
    (hworkers : 0 < workers) (hrun : Reaches settings (start base jobs workers) pool) :
    (∃ final, Reaches settings pool final ∧ final.Finished) ∧
    (pool.Finished → Accounts jobs pool.report ∧
      (jobs.Pairwise (Job.Apart settings base) → ShowsAlone settings base jobs pool ∧
        ∀ workers' other, 0 < workers' → Reaches settings (start base jobs workers') other →
          other.Finished → ShowsSame pool other)) := by
  have hroot : base.kind = .directory := kind_of_makeDirectory hbase
  refine ⟨exists_finished settings pool, fun hfinished => ?_⟩
  refine ⟨accounts_of_finished hworkers hrun hfinished, fun hapart => ?_⟩
  have halone := showsAlone_of_finished hroot hapart hworkers hrun hfinished
  refine ⟨halone, fun workers' other hworkers' hrun' hfinished' => ?_⟩
  exact halone.showsSame (showsAlone_of_finished hroot hapart hworkers' hrun' hfinished')

end Pool

/-! ## Two files -/

/-- A directory with two rule files, and an empty directory for documents. -/
def twoFiles : FileTree :=
  .directory [] [
    .directory "in".toList
      [.file "a.txt".toList (.text oneRule), .file "b.txt".toList (.text oneRule)],
    .directory "output".toList []]

/-- The files of the directory, with suffixes that are all empty. -/
def twoJobs : List Job :=
  [⟨"in/a.txt".toList, fun _ => []⟩, ⟨"in/b.txt".toList, fun _ => []⟩]

/-- The output directory is there. -/
theorem makeDirectory_twoFiles : twoFiles.makeDirectory "output".toList = .ok twoFiles := by
  cbv

/-- **Two files with different names keep apart.** -/
theorem apart_twoJobs : twoJobs.Pairwise (Job.Apart {} twoFiles) := by
  let first : Job := ⟨"in/a.txt".toList, fun _ => []⟩
  let second : Job := ⟨"in/b.txt".toList, fun _ => []⟩
  have houtputs : first.outputPaths {} twoFiles = [first.onlyPath {}] :=
    first.outputPaths_oneRule {} (by cbv)
  have houtputs' : second.outputPaths {} twoFiles = [second.onlyPath {}] :=
    second.outputPaths_oneRule {} (by cbv)
  have hlead : twoFiles.lead true (first.onlyPath {})
      = .ok (.free ["output".toList] "a.dmn".toList) := by cbv
  have hlead' : twoFiles.lead true (second.onlyPath {})
      = .ok (.free ["output".toList] "b.dmn".toList) := by cbv
  have hplaces : first.places {} twoFiles = [["output".toList, "a.dmn".toList]] := by
    rw [Job.places, houtputs, List.filterMap_cons_some (landing?_of_lead hlead rfl)]
    rfl
  have hplaces' : second.places {} twoFiles = [["output".toList, "b.dmn".toList]] := by
    rw [Job.places, houtputs', List.filterMap_cons_some (landing?_of_lead hlead' rfl)]
    rfl
  have hways : first.footprint {} twoFiles = [[], ["in".toList], ["in".toList],
      ["in".toList, "a.txt".toList], [], ["output".toList], ["output".toList],
      ["output".toList, "a.dmn".toList]] := by
    rw [Job.footprint, houtputs]
    cbv
  have hways' : second.footprint {} twoFiles = [[], ["in".toList], ["in".toList],
      ["in".toList, "b.txt".toList], [], ["output".toList], ["output".toList],
      ["output".toList, "b.dmn".toList]] := by
    rw [Job.footprint, houtputs']
    cbv
  refine List.pairwise_pair.mpr ?_
  rw [Job.Apart, hplaces, hplaces', hways, hways', List.forall_mem_singleton,
    List.forall_mem_singleton]
  decide

/-- **Two workers convert the two files** as if each were alone. -/
theorem shows_twoFiles : ∃ pool, Pool.Reaches {} (.start twoFiles twoJobs 2) pool ∧
    pool.Finished ∧ Pool.Accounts twoJobs pool.report ∧
    twoJobs.Pairwise (Job.Apart {} twoFiles) ∧ Pool.ShowsAlone {} twoFiles twoJobs pool := by
  obtain ⟨pool, hrun, hfinished, -, -⟩ := Pool.exists_run_of_processAll {} (fun _ => []) twoFiles
    ["in/a.txt".toList, "in/b.txt".toList] Nat.zero_lt_two
  obtain ⟨haccounts, hshows⟩ :=
    (Pool.shows_of_reaches makeDirectory_twoFiles Nat.zero_lt_two hrun).2 hfinished
  exact ⟨pool, hrun, hfinished, haccounts, apart_twoJobs, (hshows apart_twoJobs).1⟩

/-! ## Paths are not enough -/

/-- **Files whose paths keep apart**: the path of no document is the path of a source or of another
file's document. -/
structure PathsApart (settings : BatchSettings) (base : FileTree) (jobs : List Job) : Prop where
  sources : ∀ job ∈ jobs, ∀ path ∈ job.outputPaths settings base, path ∉ jobs.map (·.path)
  documents : jobs.Pairwise fun job other =>
    ∀ path ∈ job.outputPaths settings base, path ∉ other.outputPaths settings base

/-- A file, and a path that leads through its document. -/
def crossingPaths : List Text := ["in/a.txt".toList, "output/a.dmn/b.txt".toList]

/-- The files of these paths. -/
def crossingJobs : List Job := crossingPaths.map (⟨·, fun _ => []⟩)

/-- The two directories with a document. -/
def twoFilesWith (document : Text) : FileTree :=
  .directory [] [
    .directory "in".toList
      [.file "a.txt".toList (.text oneRule), .file "b.txt".toList (.text oneRule)],
    .directory "output".toList [.file "a.dmn".toList (.text document)]]

/-- **Files whose paths keep apart may still get in each other's way**: alone, there is nothing at
a path through the document of another file; after that file, its way leads through a file. -/
theorem not_alone_of_pathsApart : PathsApart {} twoFiles crossingJobs ∧
    ∃ pool, Pool.Reaches {} (.start twoFiles crossingJobs 1) pool ∧ pool.Finished ∧
      ¬ pool.report.results.Perm
        (crossingJobs.map fun job => (job.alone {} twoFiles).value) := by
  let first : Job := ⟨"in/a.txt".toList, fun _ => []⟩
  let second : Job := ⟨"output/a.dmn/b.txt".toList, fun _ => []⟩
  have hread : twoFiles.readText first.path = .ok oneRule := by cbv
  have hnone : twoFiles.readText second.path = .error .notFound := by cbv
  have houtputs : first.outputPaths {} twoFiles = ["output/a.dmn".toList] :=
    (first.outputPaths_oneRule {} hread).trans (by decide)
  have houtputs' : second.outputPaths {} twoFiles = [] := by
    rw [Job.outputPaths, Job.convert_of_error {} hnone]
  refine ⟨⟨?_, ?_⟩, ?_⟩
  · intro job hjob
    rcases List.mem_pair.mp hjob with rfl | rfl
    · rw [houtputs, List.forall_mem_singleton]
      decide
    · rw [houtputs']
      exact List.forall_mem_nil _
  · refine List.pairwise_pair.mpr ?_
    rw [houtputs']
    exact fun _ _ => List.not_mem_nil
  · obtain ⟨pool, hrun, hfinished, -, hreport⟩ :=
      Pool.exists_run_of_processAll {} (fun _ => []) twoFiles crossingPaths Nat.zero_lt_one
    refine ⟨pool, hrun, hfinished, fun hperm => ?_⟩
    obtain ⟨_, document, hwritten, -⟩ := first.alone_oneRule {} hread
      (show ∀ document, twoFiles.writeFile "output/a.dmn".toList (.text document)
        = .ok (twoFilesWith document) from fun document => by cbv)
    have hblocked : (first.alone {} twoFiles).tree.readText second.path
        = .error .notADirectory := by
      rw [hwritten]
      cbv
    -- In the batch the second file fails in another way than alone.
    have hmem : (second.alone {} (first.alone {} twoFiles).tree).value ∈ pool.report.results := by
      rw [hreport]
      exact (BatchReport.perm_ofResults _).mem_iff.mpr (List.mem_cons_of_mem _ List.mem_cons_self)
    rcases List.mem_pair.mp (hperm.mem_iff.mp hmem) with hsame | hsame
    · exact absurd (congrArg FileResult.path hsame) (by decide)
    · have houtcome := congrArg FileResult.outcome hsame
      rw [Job.outcome_of_error {} hblocked, Job.outcome_of_error {} hnone] at houtcome
      cases houtcome

end RuleTable
