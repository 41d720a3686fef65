import Mathlib.Data.List.Nodup
import ShootGame.Model.DBSqlThread

/-!
# The pipeline of the database thread

Two conservation laws, one for the whole pipeline and one for its last part, say where
every submitted node is and which nodes `DoDBSql` has run on.
-/

set_option autoImplicit false

namespace ShootGame.Analysis

open ShootGame.Library ShootGame.Model

section Pipeline

variable {ν : Type}

def submittedNode : DBSqlEffect ν → Option ν
  | .submitted pNode => some pNode
  | _ => none

def executedNode : DBSqlEffect ν → Option ν
  | .doDBSql pNode => some pNode
  | _ => none

def deliveredNode : DBSqlEffect ν → Option ν
  | .delivered pNode => some pNode
  | _ => none

/-- The nodes submitted over a history, in the order of the calls. -/
def submitted (h : List (DBSqlCall ν × List (DBSqlEffect ν))) : List ν :=
  (outputs h).filterMap submittedNode

def executed (h : List (DBSqlCall ν × List (DBSqlEffect ν))) : List ν :=
  (outputs h).filterMap executedNode

def delivered (h : List (DBSqlCall ν × List (DBSqlEffect ν))) : List ν :=
  (outputs h).filterMap deliveredNode

/-- The worker runs `DoDBSql` on every node of its batch and appends each in turn. -/
theorem executeLoop_eq (tmp vecWriteFinish : List ν) :
    DBSqlThread.executeLoop tmp vecWriteFinish =
      (vecWriteFinish ++ tmp, tmp.map DBSqlEffect.doDBSql) := by
  induction tmp generalizing vecWriteFinish with
  | nil => simp [DBSqlThread.executeLoop]
  | cons pNode tmp ih => simp [DBSqlThread.executeLoop, ih]

/-- The sections that are enabled, and what they do. -/
inductive Advanced (db : DBSqlThread ν) :
    DBSqlCall ν → DBSqlThread ν → List (DBSqlEffect ν) → Prop
  | add (pNode : ν) :
      Advanced db (.addWaitNode pNode) { db with vecWrite := db.vecWrite ++ [pNode] }
        [.submitted pNode]
  | take (hworker : db.worker = .takeAll) :
      Advanced db .runTakeAll { db with vecWrite := [], worker := .execute db.vecWrite } []
  | execute (tmp : List ν) (hworker : db.worker = .execute tmp) :
      Advanced db .runExecute
        { db with vecWriteFinish := db.vecWriteFinish ++ tmp, worker := .takeAll }
        (tmp.map .doDBSql)
  | fetch :
      Advanced db .getFinishDBWait { db with vecWriteFinish := [] }
        (db.vecWriteFinish.map .delivered)

/-- Every step of the thread is one of the four. -/
theorem advanced_of_step {db db' : DBSqlThread ν} {call : DBSqlCall ν}
    {o : List (DBSqlEffect ν)} (h : db.step call = some (db', o)) : Advanced db call db' o := by
  cases call with
  | addWaitNode pNode =>
    cases h
    exact .add pNode
  | runTakeAll =>
    unfold DBSqlThread.step at h
    cases hworker : db.worker with
    | takeAll =>
      simp only [hworker, Option.some.injEq, Prod.mk.injEq] at h
      obtain ⟨rfl, rfl⟩ := h
      exact .take hworker
    | execute tmp => simp [hworker] at h
  | runExecute =>
    unfold DBSqlThread.step at h
    cases hworker : db.worker with
    | takeAll => simp [hworker] at h
    | execute tmp =>
      simp only [hworker, executeLoop_eq, Option.some.injEq, Prod.mk.injEq] at h
      obtain ⟨rfl, rfl⟩ := h
      exact .execute tmp hworker
  | getFinishDBWait =>
    cases h
    exact .fetch

/-! ## Conservation -/

/-- A batch executes its nodes in order. -/
@[simp] theorem filterMap_doDBSql (nodes : List ν) :
    (nodes.map DBSqlEffect.doDBSql).filterMap executedNode = nodes := by
  induction nodes with
  | nil => rfl
  | cons pNode nodes ih => simpa [executedNode] using ih

/-- A fetch delivers its nodes in order. -/
@[simp] theorem filterMap_delivered (nodes : List ν) :
    (nodes.map DBSqlEffect.delivered).filterMap deliveredNode = nodes := by
  induction nodes with
  | nil => rfl
  | cons pNode nodes ih => simpa [deliveredNode] using ih

/-- An effect of one kind is none of another kind. -/
theorem filterMap_other {f : ν → DBSqlEffect ν} {g : DBSqlEffect ν → Option ν}
    (h : ∀ pNode, g (f pNode) = none) (nodes : List ν) : (nodes.map f).filterMap g = [] := by
  simp [h]

/-- What is on its way, the oldest submission first. -/
def inPipeline (db : DBSqlThread ν) : List ν := db.vecWriteFinish ++ db.batch ++ db.vecWrite

/-- A step appends the node that is submitted and takes those delivered from the front. -/
theorem inPipeline_step {db db' : DBSqlThread ν} {call : DBSqlCall ν}
    {o : List (DBSqlEffect ν)} (h : Advanced db call db' o) :
    inPipeline db ++ o.filterMap submittedNode =
      o.filterMap deliveredNode ++ inPipeline db' := by
  cases h with
  | add pNode => simp [inPipeline, submittedNode, deliveredNode, DBSqlThread.batch]
  | take hworker => simp [inPipeline, DBSqlThread.batch, hworker]
  | execute tmp hworker =>
    rw [filterMap_other fun _ => rfl, filterMap_other fun _ => rfl]
    simp [inPipeline, DBSqlThread.batch, hworker]
  | fetch =>
    rw [filterMap_other fun _ => rfl, filterMap_delivered]
    simp [inPipeline, DBSqlThread.batch]

/-- A step appends the nodes that are executed to those finished and takes those delivered from
the front. -/
theorem vecWriteFinish_step {db db' : DBSqlThread ν} {call : DBSqlCall ν}
    {o : List (DBSqlEffect ν)} (h : Advanced db call db' o) :
    db.vecWriteFinish ++ o.filterMap executedNode =
      o.filterMap deliveredNode ++ db'.vecWriteFinish := by
  cases h with
  | add pNode => exact List.append_nil _
  | take hworker => exact List.append_nil _
  | execute tmp hworker =>
    rw [filterMap_doDBSql, filterMap_other fun _ => rfl]
    rfl
  | fetch =>
    rw [filterMap_other fun _ => rfl, filterMap_delivered]

variable {h : List (DBSqlCall ν × List (DBSqlEffect ν))} {db : DBSqlThread ν}

/-- What was submitted has been delivered or is in the pipeline, in this order. -/
theorem submitted_eq (hrun : DBSqlRun h db) : submitted h = delivered h ++ inPipeline db := by
  have hlaw := hrun.conserved inPipeline submittedNode deliveredNode
    fun _ hstep => inPipeline_step (advanced_of_step hstep)
  rwa [show inPipeline (DBSqlThread.start : DBSqlThread ν) = [] from rfl, List.nil_append] at hlaw

/-- What was executed has been delivered or waits for it, in this order. -/
theorem executed_eq (hrun : DBSqlRun h db) : executed h = delivered h ++ db.vecWriteFinish := by
  have hlaw := hrun.conserved DBSqlThread.vecWriteFinish executedNode deliveredNode
    fun _ hstep => vecWriteFinish_step (advanced_of_step hstep)
  exact hlaw

/-- The nodes delivered, finished, taken and waiting are the nodes submitted, in order;
those delivered or finished are the ones that `DoDBSql` ran on, once for each
submission, and on no other. -/
theorem pipeline_conserves [DecidableEq ν] (hrun : DBSqlRun h db) :
    delivered h ++ db.vecWriteFinish ++ db.batch ++ db.vecWrite = submitted h ∧
      executed h = delivered h ++ db.vecWriteFinish ∧
      ((submitted h).Nodup →
        (∀ pNode ∈ delivered h ++ db.vecWriteFinish, (executed h).count pNode = 1) ∧
          ∀ pNode ∈ db.batch ++ db.vecWrite, pNode ∉ executed h) := by
  have hsubmitted := submitted_eq hrun
  have hexecuted := executed_eq hrun
  refine ⟨by rw [hsubmitted, inPipeline]; simp, hexecuted, fun hdistinct => ?_⟩
  have hsplit : submitted h = executed h ++ (db.batch ++ db.vecWrite) := by
    rw [hsubmitted, hexecuted, inPipeline]
    simp
  rw [hsplit, List.nodup_append'] at hdistinct
  obtain ⟨hdone, -, hdisjoint⟩ := hdistinct
  constructor
  · intro pNode hmem
    exact List.count_eq_one_of_mem hdone (hexecuted ▸ hmem)
  · intro pNode hmem hran
    exact hdisjoint hran hmem

/-- A node submitted while the worker holds its batch. -/
theorem pipeline_conserves_between_locks :
    ∃ (h : _) (db : DBSqlThread ℕ), DBSqlRun h db ∧
      inputs h = [.addWaitNode 1, .addWaitNode 2, .runTakeAll, .addWaitNode 3, .runExecute,
        .getFinishDBWait, .runTakeAll] ∧
      delivered h ++ db.vecWriteFinish ++ db.batch ++ db.vecWrite = submitted h ∧
      executed h = delivered h ++ db.vecWriteFinish ∧
      ((submitted h).Nodup →
        (∀ pNode ∈ delivered h ++ db.vecWriteFinish, (executed h).count pNode = 1) ∧
          ∀ pNode ∈ db.batch ++ db.vecWrite, pNode ∉ executed h) := by
  have hexec : (exec DBSqlThread.step (DBSqlThread.start : DBSqlThread ℕ)
      [.addWaitNode 1, .addWaitNode 2, .runTakeAll, .addWaitNode 3, .runExecute,
        .getFinishDBWait, .runTakeAll]).isSome = true := rfl
  obtain ⟨h, db, hrun, hin⟩ := exists_runs_of_exec hexec
  exact ⟨h, db, hrun, hin, pipeline_conserves hrun⟩

end Pipeline

end ShootGame.Analysis
