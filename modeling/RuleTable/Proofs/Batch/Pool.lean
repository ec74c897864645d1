import Mathlib.Algebra.GroupWithZero.Nat
import Mathlib.Data.Prod.Lex
import RuleTable.Proofs.Batch.Order
import RuleTable.Proofs.Batch.Task

/-!
# Pools of workers

The workers of a batch share the file system, a queue of files and the list of results. A worker
takes the next file, works on it step by step, sends its result and takes the next one; it stops
when the queue is empty. **A run** is any order in which the workers take their steps. Each file
stays exactly one task all along: in the queue, with a worker or among the results. Every run
comes to an end, and at the end there is one result for each file.
-/

set_option autoImplicit false

namespace RuleTable

/-! ## Pools -/

/-- **A worker** is idle, is busy with a file, or has stopped. -/
inductive Worker
  | idle
  | busy (task : Task)
  | stopped

/-- The file that a worker is busy with. -/
def Worker.task? : Worker → Option Task
  | busy task => some task
  | _ => none

/-- **A pool**: the file system, the files that no worker has taken, the workers, and the results
in the order in which they were sent. -/
structure Pool where
  tree : FileTree
  queue : List Job
  workers : List Worker
  results : List (Job × Except ConversionError FileOutput)

namespace Pool

/-- A pool at its start: all files are in the queue, and so many workers are idle. -/
def start (tree : FileTree) (jobs : List Job) (workers : Nat) : Pool :=
  ⟨tree, jobs, List.replicate workers .idle, []⟩

/-- **A step of a pool**: some worker takes a file, works on it, sends its result or stops. -/
inductive Step (settings : BatchSettings) : Pool → Pool → Prop
  | take (tree : FileTree) (job : Job) (queue : List Job) (front back : List Worker)
      (results : List (Job × Except ConversionError FileOutput)) :
      Step settings ⟨tree, job :: queue, front ++ .idle :: back, results⟩
        ⟨tree, queue, front ++ .busy ⟨job, .waiting⟩ :: back, results⟩
  | work (tree : FileTree) (task : Task) (queue : List Job) (front back : List Worker)
      (results : List (Job × Except ConversionError FileOutput))
      (hprogress : ∀ outcome, task.progress ≠ .done outcome) :
      Step settings ⟨tree, queue, front ++ .busy task :: back, results⟩
        ⟨(task.advance settings tree).1, queue,
          front ++ .busy (task.advance settings tree).2 :: back, results⟩
  | send (tree : FileTree) (job : Job) (outcome : Except ConversionError FileOutput)
      (queue : List Job) (front back : List Worker)
      (results : List (Job × Except ConversionError FileOutput)) :
      Step settings ⟨tree, queue, front ++ .busy ⟨job, .done outcome⟩ :: back, results⟩
        ⟨tree, queue, front ++ .idle :: back, results ++ [(job, outcome)]⟩
  | stop (tree : FileTree) (front back : List Worker)
      (results : List (Job × Except ConversionError FileOutput)) :
      Step settings ⟨tree, [], front ++ .idle :: back, results⟩
        ⟨tree, [], front ++ .stopped :: back, results⟩

/-- **The pools that a run can reach** from a pool. -/
abbrev Reaches (settings : BatchSettings) : Pool → Pool → Prop :=
  Relation.ReflTransGen (Step settings)

/-- A pool is finished when all its workers have stopped. -/
def Finished (pool : Pool) : Prop := ∀ worker ∈ pool.workers, worker = .stopped

/-- The report on the results that were sent. -/
def report (pool : Pool) : BatchReport :=
  .ofResults (pool.results.map fun sent => ⟨sent.1.path, sent.2⟩)

/-! ## Tasks -/

/-- **The tasks of a pool**: the files in the queue, with the workers and among the results. -/
def tasks (pool : Pool) : List Task :=
  pool.queue.map (⟨·, .waiting⟩) ++ pool.workers.filterMap (·.task?)
    ++ pool.results.map fun (job, outcome) => ⟨job, .done outcome⟩

section Worker

variable (tree : FileTree) (queue : List Job) (front back : List Worker)
  (results : List (Job × Except ConversionError FileOutput))

/-- The task of a busy worker is one beside the others. -/
theorem tasks_busy (task : Task) :
    (tasks ⟨tree, queue, front ++ .busy task :: back, results⟩).Perm
      (task :: tasks ⟨tree, queue, front ++ back, results⟩) := by
  simp only [tasks, List.filterMap_append, List.filterMap_cons, Worker.task?]
  rw [← List.append_assoc, ← List.append_assoc, List.append_assoc _ (task :: _),
    List.append_assoc _ (List.filterMap _ back)]
  exact List.perm_middle

/-- A worker that is idle or has stopped has no task. -/
theorem tasks_free {worker : Worker} (h : worker.task? = none) :
    tasks ⟨tree, queue, front ++ worker :: back, results⟩
      = tasks ⟨tree, queue, front ++ back, results⟩ := by
  simp only [tasks, List.filterMap_append, List.filterMap_cons, h]

end Worker

variable {settings : BatchSettings} {pool next : Pool}

/-- **A step keeps the tasks**, or works on one of them. -/
theorem tasks_of_step (h : Step settings pool next) :
    (next.tree = pool.tree ∧ pool.tasks.Perm next.tasks) ∨
    ∃ task others, pool.tasks.Perm (task :: others) ∧
      next.tree = (task.advance settings pool.tree).1 ∧
      next.tasks.Perm ((task.advance settings pool.tree).2 :: others) := by
  cases h with
  | take tree job queue front back results =>
      refine Or.inl ⟨rfl, ?_⟩
      calc tasks ⟨tree, job :: queue, front ++ .idle :: back, results⟩
          = ⟨job, .waiting⟩ :: tasks ⟨tree, queue, front ++ back, results⟩ :=
            tasks_free tree (job :: queue) front back results rfl
        List.Perm _ (tasks ⟨tree, queue, front ++ .busy ⟨job, .waiting⟩ :: back, results⟩) :=
            (tasks_busy tree queue front back results _).symm
  | work tree task queue front back results hprogress =>
      exact Or.inr ⟨task, _, tasks_busy tree queue front back results task, rfl,
        tasks_busy _ queue front back results _⟩
  | send tree job outcome queue front back results =>
      refine Or.inl ⟨rfl, (tasks_busy tree queue front back results _).trans ?_⟩
      rw [tasks_free tree queue front back _ rfl]
      simp only [tasks, List.map_append, List.map_singleton, ← List.append_assoc]
      exact (List.perm_append_singleton _ _).symm
  | stop tree front back results =>
      refine Or.inl ⟨rfl, ?_⟩
      rw [tasks_free tree [] front back results rfl, tasks_free tree [] front back results rfl]

/-- **What holds of the tree and the tasks at the start** and is kept by every step of a task holds
of every pool that is reached. -/
theorem invariant_of_reaches (holds : FileTree → List Task → Prop)
    (hperm : ∀ {tree tasks others}, List.Perm tasks others → holds tree tasks → holds tree others)
    (hstep : ∀ {tree task others}, holds tree (task :: others) →
      holds (task.advance settings tree).1 ((task.advance settings tree).2 :: others))
    (hrun : Reaches settings pool next) (h : holds pool.tree pool.tasks) :
    holds next.tree next.tasks := by
  induction hrun with
  | refl => exact h
  | tail hrun hlast ih =>
      rcases tasks_of_step hlast with ⟨htree, htasks⟩ | ⟨task, others, hbefore, htree, hafter⟩
      · exact htree ▸ hperm htasks ih
      · exact htree ▸ hperm hafter.symm (hstep (hperm hbefore ih))

/-- At the start every file waits. -/
theorem tasks_start (tree : FileTree) (jobs : List Job) (workers : Nat) :
    (start tree jobs workers).tasks = jobs.map (⟨·, .waiting⟩) := by
  have hidle : (List.replicate workers Worker.idle).filterMap (·.task?) = [] := by
    rw [List.filterMap_eq_nil_iff]
    intro worker hworker
    rw [List.eq_of_mem_replicate hworker]
    rfl
  simp only [start, tasks, hidle, List.append_nil, List.map_nil]

/-- **No file is lost and none is added**: the tasks are those of the files of the batch. -/
theorem perm_jobs_of_reaches {tree : FileTree} {jobs : List Job} {workers : Nat}
    (hrun : Reaches settings (start tree jobs workers) pool) :
    (pool.tasks.map (·.job)).Perm jobs := by
  refine invariant_of_reaches (fun _ tasks => (tasks.map (·.job)).Perm jobs)
    (fun htasks h => (htasks.symm.map Task.job).trans h) (fun h => ?_) hrun ?_
  · rw [List.map_cons, Task.job_advance]
    exact h
  · rw [tasks_start, List.map_map]
    exact .of_eq (List.map_id jobs)

/-! ## The end of a run -/

/-- **A worker stops only when the queue is empty**, and then it stays so. -/
theorem queue_of_reaches {tree : FileTree} {jobs : List Job} {workers : Nat}
    (hrun : Reaches settings (start tree jobs workers) pool)
    (hstopped : .stopped ∈ pool.workers) : pool.queue = [] := by
  -- Stopping needs an empty queue, and no step fills it again.
  induction hrun with
  | refl => cases List.eq_of_mem_replicate hstopped
  | tail hrun hlast ih =>
      cases hlast with
      | take tree job queue front back results =>
          have hbefore := ih (by simpa using hstopped)
          cases hbefore
      | work tree task queue front back results hprogress => exact ih (by simpa using hstopped)
      | send tree job outcome queue front back results => exact ih (by simpa using hstopped)
      | stop tree front back results => rfl

/-- No worker is hired or dismissed. -/
theorem length_workers_of_reaches (hrun : Reaches settings pool next) :
    next.workers.length = pool.workers.length := by
  induction hrun with
  | refl => rfl
  | tail hrun hlast ih => rw [← ih]; cases hlast <;> simp

/-- **At the end there is nothing but results.** -/
theorem tasks_of_finished {tree : FileTree} {jobs : List Job} {workers : Nat}
    (hworkers : 0 < workers) (hrun : Reaches settings (start tree jobs workers) pool)
    (hfinished : pool.Finished) :
    pool.tasks = pool.results.map fun (job, outcome) => ⟨job, .done outcome⟩ := by
  have hlength : pool.workers.length = workers := by
    rw [length_workers_of_reaches hrun, start, List.length_replicate]
  obtain ⟨worker, hworker⟩ := List.exists_mem_of_length_pos (hlength ▸ hworkers)
  have hqueue : pool.queue = [] := queue_of_reaches hrun (hfinished worker hworker ▸ hworker)
  have hfree : pool.workers.filterMap (·.task?) = [] := by
    rw [List.filterMap_eq_nil_iff]
    intro worker hworker
    rw [hfinished worker hworker]
    rfl
  rw [tasks, hqueue, hfree]
  rfl

/-! ## Every run comes to an end -/

/-- Whether a worker has taken a file that it has not read. -/
def unread : Worker → Nat
  | .busy ⟨_, .waiting⟩ => 1
  | _ => 0

/-- How many steps a worker has before it once it has read its file. -/
def ahead : Worker → Nat
  | .idle => 1
  | .busy ⟨_, .done _⟩ => 2
  | .busy ⟨_, .writing _ left⟩ => left.length + 3
  | _ => 0

/-- What is left to do in a pool: first to take and read files, each of which gives more to do, and
then the rest. -/
def remaining (pool : Pool) : Nat ×ₗ Nat :=
  toLex (2 * pool.queue.length + (pool.workers.map unread).sum, (pool.workers.map ahead).sum)

/-- A step of a task leaves less to do. -/
theorem remaining_advance (settings : BatchSettings) (tree : FileTree) {task : Task}
    (hprogress : ∀ outcome, task.progress ≠ .done outcome) :
    unread (.busy (task.advance settings tree).2) < unread (.busy task) ∨
    unread (.busy (task.advance settings tree).2) = unread (.busy task) ∧
      ahead (.busy (task.advance settings tree).2) < ahead (.busy task) := by
  obtain ⟨job, progress⟩ := task
  cases progress with
  | waiting =>
      refine Or.inl ?_
      rw [Task.advance]
      dsimp only
      rcases job.convert settings tree with error | ⟨output, documents⟩ <;> exact Nat.zero_lt_one
  | done outcome => exact absurd rfl (hprogress outcome)
  | writing output left =>
      cases left with
      | nil => exact Or.inr ⟨rfl, Nat.lt_succ_self 2⟩
      | cons first left =>
          obtain ⟨path, document⟩ := first
          refine Or.inr ?_
          rw [Task.advance]
          dsimp only
          cases tree.writeFile path (.text document) with
          | error error => exact ⟨rfl, by simp [ahead]⟩
          | ok written => exact ⟨rfl, by simp [ahead]⟩

/-- **Every step leaves less to do.** -/
theorem remaining_lt_of_step (h : Step settings pool next) : next.remaining < pool.remaining := by
  cases h with
  | take tree job queue front back results =>
      refine Prod.Lex.toLex_lt_toLex.mpr (Or.inl ?_)
      simp only [List.map_append, List.map_cons, List.sum_append, List.sum_cons,
        List.length_cons, unread]
      omega
  | work tree task queue front back results hprogress =>
      refine Prod.Lex.toLex_lt_toLex.mpr ?_
      rcases remaining_advance settings tree hprogress with hless | ⟨hsame, hless⟩
      · refine Or.inl ?_
        simp only [List.map_append, List.map_cons, List.sum_append, List.sum_cons]
        omega
      · refine Or.inr ⟨?_, ?_⟩
        · simp [hsame]
        · simp only [List.map_append, List.map_cons, List.sum_append, List.sum_cons]
          omega
  | send tree job outcome queue front back results =>
      refine Prod.Lex.toLex_lt_toLex.mpr (Or.inr ⟨?_, ?_⟩)
      · simp [unread]
      · simp [ahead]
  | stop tree front back results =>
      refine Prod.Lex.toLex_lt_toLex.mpr (Or.inr ⟨?_, ?_⟩)
      · simp [unread]
      · simp [ahead]

/-- **No run goes on for ever.** -/
theorem wellFounded_step (settings : BatchSettings) :
    WellFounded fun next pool => Step settings pool next :=
  Subrelation.wf remaining_lt_of_step (InvImage.wf remaining wellFounded_lt)

/-- A pool that is not finished takes a step. -/
theorem exists_step_of_not_finished (h : ¬ pool.Finished) : ∃ next, Step settings pool next := by
  obtain ⟨tree, queue, workers, results⟩ := pool
  obtain ⟨worker, hworker, hstopped⟩ : ∃ worker ∈ workers, worker ≠ .stopped := by
    simpa [Finished] using h
  obtain ⟨front, back, rfl⟩ := List.append_of_mem hworker
  cases worker with
  | stopped => exact absurd rfl hstopped
  | idle =>
      cases queue with
      | nil => exact ⟨_, .stop tree front back results⟩
      | cons job queue => exact ⟨_, .take tree job queue front back results⟩
  | busy task =>
      obtain ⟨job, progress⟩ := task
      cases progress with
      | done outcome => exact ⟨_, .send tree job outcome queue front back results⟩
      | waiting => exact ⟨_, .work tree _ queue front back results nofun⟩
      | writing output left => exact ⟨_, .work tree _ queue front back results nofun⟩

/-- **Every run comes to an end.** -/
theorem exists_finished (settings : BatchSettings) (pool : Pool) :
    ∃ final, Reaches settings pool final ∧ final.Finished := by
  induction pool using (wellFounded_step settings).induction with
  | _ pool ih =>
      by_cases hfinished : pool.Finished
      · exact ⟨pool, .refl, hfinished⟩
      · obtain ⟨next, hstep⟩ := exists_step_of_not_finished hfinished
        obtain ⟨final, hrun, hfinal⟩ := ih next hstep
        exact ⟨final, .head hstep hrun, hfinal⟩

end Pool

end RuleTable
