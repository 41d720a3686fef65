import ShootGame.Analysis.AnswerAddressing
import ShootGame.Library.Progress

/-!
# How long a request waits for the database

The worker takes every node that is submitted, and executes its whole batch before it takes
another one; the main thread fetches every node that is finished, and runs `DoLogic` on each
before it fetches again.  So both are done with a node after a number of their own steps that
the state tells (`executed_iff_turns`, `answered_iff_turns`), and a request is answered by
then (`answered_within`).
-/

set_option autoImplicit false

namespace ShootGame.Analysis

open ShootGame.Library ShootGame.Model

/-! ## The worker -/

section Worker

variable {ν : Type}

/-- The nodes that the worker has still to execute, the oldest first. -/
def unexecuted (db : DBSqlThread ν) : List ν := db.batch ++ db.vecWrite

/-- The sections of the worker that execute the next `n` nodes. -/
def workerTurns (db : DBSqlThread ν) (n : ℕ) : ℕ :=
  if n = 0 then 0
  else
    match db.worker with
    | .takeAll => 2
    | .execute tmp => if n ≤ tmp.length then 1 else 3

def isWorkerSection : DBSqlCall ν → Bool
  | .runTakeAll => true
  | .runExecute => true
  | _ => false

def isDoDBSql : DBSqlEffect ν → Bool
  | .doDBSql _ => true
  | _ => false

/-- The worker is never more than three sections away. -/
theorem workerTurns_le (db : DBSqlThread ν) (n : ℕ) : workerTurns db n ≤ 3 := by
  unfold workerTurns
  split_ifs
  · omega
  · split <;> try split_ifs
    all_goals omega

/-- Only for no node no section is needed. -/
theorem workerTurns_eq_zero_iff (db : DBSqlThread ν) (n : ℕ) : workerTurns db n = 0 ↔ n = 0 := by
  unfold workerTurns
  split_ifs with hn
  · simp [hn]
  · split <;> try split_ifs
    all_goals simp [hn]

/-- As many effects execute a node as there are nodes executed. -/
theorem countP_isDoDBSql (o : List (DBSqlEffect ν)) :
    o.countP isDoDBSql = (o.filterMap executedNode).length := by
  rw [List.length_filterMap_eq_countP]
  congr 1
  funext effect
  cases effect <;> rfl

/-- A step appends the node that is submitted and takes those executed from the front. -/
theorem unexecuted_step {db db' : DBSqlThread ν} {call : DBSqlCall ν}
    {o : List (DBSqlEffect ν)} (h : Advanced db call db' o) :
    unexecuted db ++ o.filterMap submittedNode = o.filterMap executedNode ++ unexecuted db' := by
  cases h with
  | add pNode => simp [unexecuted, submittedNode, executedNode, DBSqlThread.batch]
  | take hworker => simp [unexecuted, DBSqlThread.batch, hworker]
  | execute tmp hworker =>
    rw [filterMap_doDBSql, filterMap_other fun _ => rfl]
    simp [unexecuted, DBSqlThread.batch, hworker]
  | fetch =>
    rw [filterMap_other fun _ => rfl, filterMap_other fun _ => rfl]
    simp [unexecuted, DBSqlThread.batch]

/-- A section of the worker takes one off those that are needed, for the nodes left after it;
another step takes none. -/
theorem workerTurns_step {db db' : DBSqlThread ν} {call : DBSqlCall ν}
    {o : List (DBSqlEffect ν)} (h : Advanced db call db' o) {n : ℕ} (hpos : 0 < n)
    (hn : n ≤ (unexecuted db).length) :
    workerTurns db n = workerTurns db' (n - (o.filterMap executedNode).length) +
      if isWorkerSection call then 1 else 0 := by
  cases h with
  | add pNode => rfl
  | take hworker =>
    -- the batch will be all that waits
    have hbatch : n ≤ db.vecWrite.length := by
      simpa [unexecuted, DBSqlThread.batch, hworker] using hn
    simp [workerTurns, hworker, hpos.ne', hbatch, isWorkerSection]
  | execute tmp hworker =>
    rw [filterMap_doDBSql]
    by_cases hle : n ≤ tmp.length
    · simp [workerTurns, hworker, hpos.ne', hle, isWorkerSection, Nat.sub_eq_zero_of_le hle]
    · have hleft : n - tmp.length ≠ 0 := by omega
      simp [workerTurns, hworker, hpos.ne', hle, isWorkerSection, hleft]
  | fetch =>
    rw [filterMap_other fun _ => rfl]
    rfl

/-- The worker works off what waits for it. -/
theorem worksOff_worker : WorksOff (DBSqlThread.step (ν := ν)) (fun _ => True)
    (fun db => (unexecuted db).length) workerTurns isWorkerSection isDoDBSql where
  inv _ _ := trivial
  free := workerTurns_eq_zero_iff
  left _ hstep := by
    have hconserved := congrArg List.length (unexecuted_step (advanced_of_step hstep))
    rw [List.length_append, List.length_append] at hconserved
    rw [countP_isDoDBSql]
    omega
  next _ hstep hpos hn := by
    rw [countP_isDoDBSql]
    exact workerTurns_step (advanced_of_step hstep) hpos hn

/-- From any state on, and whatever is submitted and fetched meanwhile, the first `n` nodes
that wait have been executed, in their order, exactly when the worker has passed
`workerTurns db n` sections, which are at most three. -/
theorem executed_iff_turns {db db' : DBSqlThread ν} {k : List (DBSqlCall ν × List (DBSqlEffect ν))}
    (hrun : Runs DBSqlThread.step db k db') {n : ℕ} (hn : n ≤ (unexecuted db).length) :
    ((unexecuted db).take n <+: executed k ↔
        workerTurns db n ≤ (inputs k).countP isWorkerSection) ∧
      workerTurns db n ≤ 3 := by
  have hconserved := hrun.conserved unexecuted submittedNode executedNode
    fun _ hstep => unexecuted_step (advanced_of_step hstep)
  refine ⟨?_, workerTurns_le db n⟩
  unfold executed
  rw [take_prefix_iff hconserved hn, ← worksOff_worker.done_iff hrun trivial hn,
    countP_isDoDBSql]

/-- A node is submitted while the worker holds another one. -/
theorem executed_iff_turns_behind_batch :
    ∃ (k : _) (db' : DBSqlThread ℕ),
      Runs DBSqlThread.step ⟨[2], [], .execute [1]⟩ k db' ∧
      inputs k = [.runExecute, .addWaitNode 3, .runTakeAll, .getFinishDBWait, .runExecute] ∧
      ([1, 2].take 2 <+: executed k ↔
        workerTurns (ν := ℕ) ⟨[2], [], .execute [1]⟩ 2 ≤ (inputs k).countP isWorkerSection) ∧
      workerTurns (ν := ℕ) ⟨[2], [], .execute [1]⟩ 2 ≤ 3 := by
  have hexec : (exec DBSqlThread.step (⟨[2], [], .execute [1]⟩ : DBSqlThread ℕ)
      [.runExecute, .addWaitNode 3, .runTakeAll, .getFinishDBWait, .runExecute]).isSome = true :=
    rfl
  obtain ⟨k, db', hrun, hin⟩ := exists_runs_of_exec hexec
  exact ⟨k, db', hrun, hin, executed_iff_turns hrun (by decide)⟩

end Worker

/-! ## The main thread -/

/-- The nodes that have been executed and not answered, the oldest first. -/
def finished (work : SqlWork) : List ℕ := work.vecAllFinishWaitNode ++ work.thread.vecWriteFinish

/-- The steps of the main thread that answer the next `n` nodes. -/
def answerTurns (work : SqlWork) (n : ℕ) : ℕ :=
  if n ≤ work.vecAllFinishWaitNode.length then n else n + 1

/-- `DealSqlMsg`, step by step. -/
def isMainSection : SqlWorkCall → Bool
  | .getFinishDBWait => true
  | .doLogic _ _ _ => true
  | _ => false

def isDoLogic : SqlWorkEffect → Bool
  | .doLogic _ _ _ => true
  | _ => false

/-- A fetch may be needed before the answers. -/
theorem answerTurns_le (work : SqlWork) (n : ℕ) : answerTurns work n ≤ n + 1 := by
  unfold answerTurns
  split_ifs <;> omega

/-- Only for no node no step is needed. -/
theorem answerTurns_eq_zero_iff (work : SqlWork) (n : ℕ) : answerTurns work n = 0 ↔ n = 0 := by
  unfold answerTurns
  constructor
  · intro hzero
    split_ifs at hzero
    exact hzero
  · rintro rfl
    simp

/-- As many effects run `DoLogic` as there are nodes visited. -/
theorem countP_isDoLogic (o : List SqlWorkEffect) :
    o.countP isDoLogic = (o.filterMap visitedNode).length := by
  rw [List.length_filterMap_eq_countP]
  congr 1
  funext effect
  cases effect <;> rfl

/-- The nodes visited in a run, counted by its effects. -/
theorem length_visited (k : List (SqlWorkCall × List SqlWorkEffect)) :
    (visited k).length = (outputs k).countP isDoLogic := (countP_isDoLogic _).symm

/-- The nodes visited in two runs, one behind the other. -/
theorem visited_append (k l : List (SqlWorkCall × List SqlWorkEffect)) :
    visited (k ++ l) = visited k ++ visited l := by
  rw [visited, outputs_append, List.filterMap_append]
  rfl

/-- A request under way is finished or still to be executed. -/
theorem pending_eq_finished (work : SqlWork) :
    pending work = finished work ++ unexecuted work.thread := by
  simp [pending, finished, inPipeline, unexecuted]

/-- A step loses no finished node but those it visits. -/
theorem finished_step {work work' : SqlWork} {call : SqlWorkCall} {o : List SqlWorkEffect}
    (h : Worked work call work' o) :
    (finished work).length ≤ (o.filterMap visitedNode).length + (finished work').length := by
  cases h with
  | request iSessionID request junk hidle => exact Nat.le_add_left _ _
  | take hworker => exact Nat.le_add_left _ _
  | execute database junk tmp hworker =>
    obtain ⟨-, hthread, hnext⟩ := foldl_executeNode database junk tmp { work with
      thread := { work.thread with
        vecWriteFinish := work.thread.vecWriteFinish ++ tmp, worker := .takeAll } }
    unfold finished
    rw [hthread, hnext]
    simp
  | fetch hidle => simp [finished, hidle]
  | visit outside junk now pNode rest node hnext hnode =>
    simp only [finished, hnext, List.length_append, List.length_cons, List.filterMap_cons,
      visitedNode, List.filterMap_nil, List.length_nil]
    omega

/-- A step of the main thread takes one off those that are needed, for the nodes left after it;
another step takes none. -/
theorem answerTurns_step {work work' : SqlWork} {call : SqlWorkCall} {o : List SqlWorkEffect}
    (h : Worked work call work' o) {n : ℕ} (hpos : 0 < n) (hn : n ≤ (finished work).length) :
    answerTurns work n = answerTurns work' (n - (o.filterMap visitedNode).length) +
      if isMainSection call then 1 else 0 := by
  cases h with
  | request iSessionID request junk hidle => rfl
  | take hworker => rfl
  | execute database junk tmp hworker =>
    obtain ⟨-, -, hnext⟩ := foldl_executeNode database junk tmp { work with
      thread := { work.thread with
        vecWriteFinish := work.thread.vecWriteFinish ++ tmp, worker := .takeAll } }
    unfold answerTurns
    rw [hnext]
    rfl
  | fetch hidle =>
    -- what has been fetched is all that was finished
    have hfetched : n ≤ work.thread.vecWriteFinish.length := by simpa [finished, hidle] using hn
    simp [answerTurns, hidle, hpos.ne', hfetched, isMainSection]
  | visit outside junk now pNode rest node hnext hnode =>
    obtain ⟨m, rfl⟩ := Nat.exists_eq_succ_of_ne_zero hpos.ne'
    by_cases hle : m ≤ rest.length <;>
      simp [answerTurns, hnext, visitedNode, isMainSection, hle]

/-- The main thread works off what is finished. -/
theorem worksOff_main : WorksOff SqlWork.step (fun _ => True) (fun work => (finished work).length)
    answerTurns isMainSection isDoLogic where
  inv _ _ := trivial
  free := answerTurns_eq_zero_iff
  left _ hstep := by
    rw [countP_isDoLogic]
    exact finished_step (worked_of_step hstep)
  next _ hstep hpos hn := by
    rw [countP_isDoLogic]
    exact answerTurns_step (worked_of_step hstep) hpos hn

/-- From any state on, and whatever is requested and executed meanwhile, the first `n` nodes
that are finished have been answered, in their order, exactly when the main thread has taken
`answerTurns work n` steps, which is at most one more than answers. -/
theorem answered_iff_turns {work work' : SqlWork} {k : List (SqlWorkCall × List SqlWorkEffect)}
    (hrun : Runs SqlWork.step work k work') {n : ℕ} (hn : n ≤ (finished work).length) :
    ((finished work).take n <+: visited k ↔
        answerTurns work n ≤ (inputs k).countP isMainSection) ∧
      answerTurns work n ≤ n + 1 := by
  have hconserved := hrun.conserved pending createdNode visitedNode
    fun _ hstep => pending_step (worked_of_step hstep)
  have htake : (finished work).take n = (pending work).take n := by
    rw [pending_eq_finished, List.take_append_of_le_length hn]
  have hlength : n ≤ (pending work).length := by
    rw [pending_eq_finished, List.length_append]
    omega
  refine ⟨?_, answerTurns_le work n⟩
  unfold visited
  rw [htake, take_prefix_iff hconserved hlength, ← worksOff_main.done_iff hrun trivial hn,
    countP_isDoLogic]

/-- Two logins, one of which is being answered. -/
def twoLoginCalls : List SqlWorkCall :=
  [.request 5 (.login [65] [66] 0) ⟨0, 0, true⟩, .request 6 (.login [67] [68] 0) ⟨0, 0, true⟩,
    .runTakeAll, .runExecute (fun _ _ => ⟨false, 0, none⟩) fun _ => 0, .getFinishDBWait,
    .doLogic (fun _ => ⟨0, [], [], 0, 0⟩) zeroedDeal 0]

/-- The second of two logins, after the first has been answered. -/
theorem answered_iff_turns_second_login :
    ∃ h work k work', SqlWorkRun h work ∧ inputs h = twoLoginCalls ∧
      Runs SqlWork.step work k work' ∧
      inputs k = [.runTakeAll, .doLogic (fun _ => ⟨0, [], [], 0, 0⟩) zeroedDeal 0] ∧
      ((finished work).take 1 <+: visited k ↔
        answerTurns work 1 ≤ (inputs k).countP isMainSection) ∧
      answerTurns work 1 ≤ 1 + 1 := by
  obtain ⟨h, work, hexec, hlen, hmore⟩ : ∃ h work,
      exec SqlWork.step SqlWork.start twoLoginCalls = some (work, h) ∧
      1 ≤ (finished work).length ∧
      (exec SqlWork.step work
        [.runTakeAll, .doLogic (fun _ => ⟨0, [], [], 0, 0⟩) zeroedDeal 0]).isSome = true :=
    ⟨_, _, rfl, le_rfl, rfl⟩
  obtain ⟨hreach, hin₀⟩ := runs_of_exec hexec
  obtain ⟨k, work', hrun, hin⟩ := exists_runs_of_exec hmore
  exact ⟨h, work, k, work', hreach, hin₀, hrun, hin, answered_iff_turns hrun hlen⟩

/-! ## Both -/

/-- A section of the worker, among the calls on the nodes. -/
def isWorkerCall : SqlWorkCall → Bool
  | .runTakeAll => true
  | .runExecute _ _ => true
  | _ => false

/-- A step of the nodes is a section of the database thread, or a `DoLogic` and no section. -/
theorem exists_thread_step {work work' : SqlWork} {call : SqlWorkCall} {o : List SqlWorkEffect}
    (h : Worked work call work' o) :
    ∃ k, Runs DBSqlThread.step work.thread k work'.thread ∧
      (inputs k).countP isWorkerSection = [call].countP isWorkerCall ∧
      finished work ++ executed k = o.filterMap visitedNode ++ finished work' := by
  cases h with
  | request iSessionID request junk hidle =>
    refine ⟨_, .single (i := .addWaitNode work.nodes.length) rfl, rfl, ?_⟩
    exact List.append_nil _
  | take hworker =>
    have hstep : work.thread.step .runTakeAll = some (
        { work.thread with vecWrite := [], worker := .execute work.thread.vecWrite }, []) := by
      simp [DBSqlThread.step, hworker]
    refine ⟨_, .single hstep, rfl, ?_⟩
    simp [finished, executed]
  | execute database junk tmp hworker =>
    obtain ⟨-, hthread, hnext⟩ := foldl_executeNode database junk tmp { work with
      thread := { work.thread with
        vecWriteFinish := work.thread.vecWriteFinish ++ tmp, worker := .takeAll } }
    have hstep : work.thread.step .runExecute = some (
        { work.thread with
          vecWriteFinish := work.thread.vecWriteFinish ++ tmp, worker := .takeAll },
        tmp.map .doDBSql) := by
      simp [DBSqlThread.step, hworker, executeLoop_eq]
    have hexecuted : executed [(.runExecute, tmp.map .doDBSql)] = tmp := by
      rw [executed, outputs_cons, outputs_nil, List.append_nil, filterMap_doDBSql]
    refine ⟨_, by rw [hthread]; exact .single hstep, rfl, ?_⟩
    unfold finished
    rw [hthread, hnext, hexecuted]
    simp
  | fetch hidle =>
    refine ⟨_, .single (i := .getFinishDBWait) rfl, rfl, ?_⟩
    have hnone : (work.thread.vecWriteFinish.map DBSqlEffect.delivered).filterMap executedNode =
        [] := filterMap_other (fun _ => rfl) _
    simp [finished, executed, hidle, hnone]
  | visit outside junk now pNode rest node hnext hnode =>
    refine ⟨[], .start, rfl, ?_⟩
    simp [finished, executed, hnext, visitedNode]

/-- In a run of the nodes the database thread has a run of its own, and what it executes is
what is answered and what is finished and was not before. -/
theorem exists_thread_run {s t : SqlWork} {k : List (SqlWorkCall × List SqlWorkEffect)}
    (hrun : Runs SqlWork.step s k t) :
    ∃ k', Runs DBSqlThread.step s.thread k' t.thread ∧
      (inputs k').countP isWorkerSection = (inputs k).countP isWorkerCall ∧
      finished s ++ executed k' = visited k ++ finished t := by
  induction hrun with
  | start => exact ⟨[], .start, rfl, by simp [executed, visited]⟩
  | @next k u v call o hrun hstep ih =>
    obtain ⟨k₁, hthread, hsections, hfinished⟩ := ih
    obtain ⟨k₂, hthread', hsections', hfinished'⟩ := exists_thread_step (worked_of_step hstep)
    refine ⟨k₁ ++ k₂, hthread.trans hthread', ?_, ?_⟩
    · rw [inputs_append, inputs_append, List.countP_append, List.countP_append, hsections,
        hsections']
      rfl
    · have hexecuted : executed (k₁ ++ k₂) = executed k₁ ++ executed k₂ := by
        rw [executed, outputs_append, List.filterMap_append]
        rfl
      have hvisited : visited [(call, o)] = o.filterMap visitedNode := by
        simp [visited]
      rw [hexecuted, visited_append, hvisited, ← List.append_assoc, hfinished, List.append_assoc,
        hfinished', List.append_assoc]

/-- `DoLogic` runs on no node twice. -/
theorem visited_nodup {h : List (SqlWorkCall × List SqlWorkEffect)} {work : SqlWork}
    (hrun : SqlWorkRun h work) : (visited h).Nodup := by
  have hall : (visited h ++ pending work).Nodup := by
    rw [visited_eq_range hrun]
    exact List.nodup_range
  exact (List.nodup_append.mp hall).1

/-- From any state on: once the worker has passed three sections, and the main thread has
then taken one more step than there were requests, these have been answered first and in
their order, and in a run of the program no node has been answered twice.  What is requested
and executed meanwhile makes no difference. -/
theorem answered_within {s t u : SqlWork} {k₁ k₂ : List (SqlWorkCall × List SqlWorkEffect)}
    (hrun₁ : Runs SqlWork.step s k₁ t) (hworker : 3 ≤ (inputs k₁).countP isWorkerCall)
    (hrun₂ : Runs SqlWork.step t k₂ u)
    (hmain : (pending s).length + 1 ≤ (inputs k₂).countP isMainSection) :
    pending s <+: visited (k₁ ++ k₂) ∧
      ∀ h₀, SqlWorkRun h₀ s → (visited (h₀ ++ (k₁ ++ k₂))).Nodup := by
  refine ⟨?_, fun h₀ hreach => visited_nodup (hreach.trans (hrun₁.trans hrun₂))⟩
  obtain ⟨k', hthread, hsections, hfinished⟩ := exists_thread_run hrun₁
  -- the worker has executed all that waited for it
  have hexecuted : (unexecuted s.thread).length ≤ (executed k').length := by
    rw [executed, ← countP_isDoDBSql, worksOff_worker.done_iff hthread trivial le_rfl, hsections]
    exact (workerTurns_le _ _).trans hworker
  have hlength := congrArg List.length hfinished
  rw [List.length_append, List.length_append] at hlength
  have hpending := congrArg List.length (pending_eq_finished s)
  rw [List.length_append] at hpending
  -- and what is left of the requests is finished
  have hleft : (pending s).length - (visited k₁).length ≤ (finished t).length := by omega
  have hanswered : (pending s).length - (visited k₁).length ≤ (visited k₂).length := by
    rw [length_visited k₂, worksOff_main.done_iff hrun₂ trivial hleft]
    have hle := answerTurns_le t ((pending s).length - (visited k₁).length)
    omega
  have hconserved := (hrun₁.trans hrun₂).conserved pending createdNode visitedNode
    fun _ hstep => pending_step (worked_of_step hstep)
  have hall : (pending s).length ≤ (visited (k₁ ++ k₂)).length := by
    rw [visited_append, List.length_append]
    omega
  have hfirst := (take_prefix_iff hconserved le_rfl).mpr hall
  rwa [List.take_length] at hfirst

/-- A registration comes while the worker has a login in its batch; the worker passes three
sections, and the main thread fetches and answers both. -/
def lateRequestCalls : List SqlWorkCall :=
  [.request 5 (.login [65] [66] 0) ⟨0, 0, true⟩, .runTakeAll,
    .request 6 (.register [67] [68]) ⟨0, 0, true⟩]

def lateWorkerCalls : List SqlWorkCall :=
  [.runExecute (fun _ _ => ⟨false, 0, none⟩) fun _ => 0, .runTakeAll,
    .request 7 (.register [69] [70]) ⟨0, 0, true⟩,
    .runExecute (fun _ _ => ⟨false, 0, none⟩) fun _ => 0]

def lateMainCalls : List SqlWorkCall :=
  [.getFinishDBWait, .doLogic (fun _ => ⟨0, [], [], 0, 0⟩) zeroedDeal 0, .runTakeAll,
    .doLogic (fun _ => ⟨0, [], [], 0, 0⟩) zeroedDeal 0]

/-- Both requests are answered, although another one comes meanwhile. -/
theorem answered_within_late_request :
    ∃ h s k₁ t k₂ u, SqlWorkRun h s ∧ inputs h = lateRequestCalls ∧ pending s = [0, 1] ∧
      Runs SqlWork.step s k₁ t ∧ inputs k₁ = lateWorkerCalls ∧
      Runs SqlWork.step t k₂ u ∧ inputs k₂ = lateMainCalls ∧
      pending s <+: visited (k₁ ++ k₂) ∧ (visited (h ++ (k₁ ++ k₂))).Nodup := by
  obtain ⟨h, s, k₁, t, hexec, hpending, hexec₁, hmore⟩ : ∃ h s k₁ t,
      exec SqlWork.step SqlWork.start lateRequestCalls = some (s, h) ∧ pending s = [0, 1] ∧
      exec SqlWork.step s lateWorkerCalls = some (t, k₁) ∧
      (exec SqlWork.step t lateMainCalls).isSome = true := ⟨_, _, _, _, rfl, rfl, rfl, rfl⟩
  obtain ⟨hreach, hin⟩ := runs_of_exec hexec
  obtain ⟨hrun₁, hin₁⟩ := runs_of_exec hexec₁
  obtain ⟨k₂, u, hrun₂, hin₂⟩ := exists_runs_of_exec hmore
  have hworker : 3 ≤ (inputs k₁).countP isWorkerCall := by
    rw [hin₁]
    decide
  have hmain : (pending s).length + 1 ≤ (inputs k₂).countP isMainSection := by
    rw [hpending, hin₂]
    decide
  obtain ⟨hfirst, honce⟩ := answered_within hrun₁ hworker hrun₂ hmain
  exact ⟨h, s, k₁, t, k₂, u, hreach, hin, hpending, hrun₁, hin₁, hrun₂, hin₂, hfirst,
    honce h hreach⟩

end ShootGame.Analysis
