import RuleTable.Proofs.Batch.Pool

/-!
# One worker does it all

Converting the files of a batch one after the other, in the order in which they are listed, is one
of the runs of its pool: the first worker takes every file, and then all workers stop.
-/

set_option autoImplicit false

namespace RuleTable

open FileTree

namespace Pool

variable (settings : BatchSettings) (queue : List Job) (back : List Worker)
  (results : List (Job × Except ConversionError FileOutput))

/-- **A worker left alone finishes its file.** -/
theorem reaches_finish (tree : FileTree) (task : Task) :
    Reaches settings ⟨tree, queue, .busy task :: back, results⟩
      ⟨(task.finish settings tree).1, queue,
        .busy ⟨task.job, .done (task.finish settings tree).2⟩ :: back, results⟩ := by
  -- A step leads to the same end, so it is enough to take one whenever the file is not done.
  induction hpool : (⟨tree, queue, .busy task :: back, results⟩ : Pool)
    using (wellFounded_step settings).induction generalizing tree task with
  | _ pool ih =>
      subst hpool
      by_cases hdone : ∃ outcome, task.progress = .done outcome
      · obtain ⟨job, progress⟩ := task
        obtain ⟨outcome, rfl⟩ := hdone
        exact .refl
      · have hprogress : ∀ outcome, task.progress ≠ .done outcome := not_exists.mp hdone
        have hstep : Step settings _ _ := .work tree task queue [] back results hprogress
        have hrest := ih _ hstep _ _ rfl
        rw [Task.finish_advance, Task.job_advance] at hrest
        exact .head hstep hrest

/-- The results of files that one worker takes in order, as they are sent. -/
def sent (suffix : Nat → Text) (tree : FileTree) (paths : List Text) :
    List (Job × Except ConversionError FileOutput) :=
  (processAll suffix settings tree paths).value.map fun result =>
    (⟨result.path, suffix⟩, result.outcome)

/-- **A worker left alone takes all files** in the order of the queue. -/
theorem reaches_processAll (suffix : Nat → Text) (tree : FileTree) (paths : List Text) :
    Reaches settings ⟨tree, paths.map (⟨·, suffix⟩), .idle :: back, results⟩
      ⟨(processAll suffix settings tree paths).tree, [], .idle :: back,
        results ++ sent settings suffix tree paths⟩ := by
  induction paths generalizing tree results with
  | nil =>
      have hnone : sent settings suffix tree [] = [] := rfl
      rw [hnone, List.append_nil]
      exact .refl
  | cons path paths ih =>
      have htake : Step settings _ _ :=
        .take tree ⟨path, suffix⟩ (paths.map (⟨·, suffix⟩)) [] back results
      have hwork := reaches_finish settings (paths.map (⟨·, suffix⟩)) back results tree
        ⟨⟨path, suffix⟩, .waiting⟩
      have hsend : Step settings _ _ := .send
        (processFile suffix settings tree path).tree ⟨path, suffix⟩
        (processFile suffix settings tree path).value.outcome (paths.map (⟨·, suffix⟩))
        [] back results
      have hrest := ih
        (results ++ [(⟨path, suffix⟩, (processFile suffix settings tree path).value.outcome)])
        (processFile suffix settings tree path).tree
      rw [List.append_assoc] at hrest
      exact .head htake (hwork.trans (.head hsend hrest))

/-- **Idle workers stop** when the queue is empty. -/
theorem reaches_stopped (tree : FileTree) (stopped idle : Nat) :
    Reaches settings
      ⟨tree, [], List.replicate stopped .stopped ++ List.replicate idle .idle, results⟩
      ⟨tree, [], List.replicate (stopped + idle) .stopped, results⟩ := by
  induction idle generalizing stopped with
  | zero =>
      rw [List.replicate_zero, List.append_nil]
      exact .refl
  | succ idle ih =>
      have hstop : Step settings _ _ :=
        .stop tree (List.replicate stopped .stopped) (List.replicate idle .idle) results
      have hrest := ih (stopped + 1)
      rw [List.replicate_succ', List.append_assoc, Nat.add_assoc, Nat.add_comm 1] at hrest
      exact .head hstop hrest

/-- **Converting the files one after the other is a run** of any number of workers. -/
theorem exists_run_of_processAll (suffix : Nat → Text) (tree : FileTree) (paths : List Text)
    {workers : Nat} (hworkers : 0 < workers) :
    ∃ pool, Reaches settings (start tree (paths.map (⟨·, suffix⟩)) workers) pool ∧
      pool.Finished ∧ pool.tree = (processAll suffix settings tree paths).tree ∧
      pool.report = .ofResults (processAll suffix settings tree paths).value := by
  obtain ⟨others, rfl⟩ : ∃ others, workers = others + 1 := ⟨workers - 1, by omega⟩
  have hfiles := reaches_processAll settings (List.replicate others .idle) [] suffix tree paths
  have hstop := reaches_stopped settings (sent settings suffix tree paths)
    (processAll suffix settings tree paths).tree 0 (others + 1)
  refine ⟨_, hfiles.trans hstop, fun worker => List.eq_of_mem_replicate, rfl, ?_⟩
  rw [report, sent, List.map_map]
  exact congrArg BatchReport.ofResults (List.map_id _)

end Pool

/-- **The batch of a list of files is a run** of the workers that it starts, in the tree with its
output directory. -/
theorem processFiles_eq_run (suffix : Nat → Text) (settings : BatchSettings) (processors : Nat)
    {tree base : FileTree} (paths : List Text)
    (hbase : tree.makeDirectory settings.outputDirectory = .ok base) :
    ∃ pool, Pool.Reaches settings
        (.start base (paths.map (⟨·, suffix⟩)) (workersFor settings processors paths.length)) pool ∧
      pool.Finished ∧
      pool.tree = (processFiles suffix settings processors tree paths).tree ∧
      (processFiles suffix settings processors tree paths).value = .ok pool.report := by
  have hworkers : 0 < workersFor settings processors paths.length := by
    rw [workersFor]
    omega
  obtain ⟨pool, hrun, hfinished, htree, hreport⟩ :=
    Pool.exists_run_of_processAll settings suffix base paths hworkers
  refine ⟨pool, hrun, hfinished, ?_, ?_⟩
  · rw [htree, processFiles, hbase]
  · rw [hreport, processFiles, hbase]

end RuleTable
