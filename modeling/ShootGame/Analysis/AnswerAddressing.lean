import ShootGame.Analysis.DatabasePipeline
import ShootGame.Analysis.Decoding
import ShootGame.Model.SqlWork

/-!
# Where the answers of the database thread are sent

Every node reaches `DoLogic` in the order of the requests (`visited_eq_range`), so the
link from a request to its answer is there.  It is not used: nothing between the
constructor and `DoLogic` assigns `m_dwSessionID`, so the answer goes to whatever the
storage of the node held (`sent_to_storage`).
-/

set_option autoImplicit false

namespace ShootGame.Analysis

open ShootGame.Library ShootGame.Model

/-! ## What a step does -/

/-- A round of the loop of `run`. -/
def executeNode (database : ℕ → List UInt8 → DBAnswer) (junk : ℕ → Int) (work : SqlWork)
    (pNode : ℕ) : SqlWork :=
  match work.nodes[pNode]? with
  | none => work
  | some node =>
    let r := node.doDBSql (database pNode) (junk pNode) work.vecServerList
    { work with nodes := work.nodes.set pNode r.1, vecServerList := r.2 }

/-- The steps that are enabled, and what they do. -/
inductive Worked (work : SqlWork) : SqlWorkCall → SqlWork → List SqlWorkEffect → Prop
  | request (iSessionID : Int) (request : NodeRequest) (junk : NodeJunk)
      (hidle : work.vecAllFinishWaitNode = []) :
      Worked work (.request iSessionID request junk)
        { work with
          thread := { work.thread with vecWrite := work.thread.vecWrite ++ [work.nodes.length] }
          nodes := work.nodes ++ [WaitNode.new junk request] }
        [.created work.nodes.length iSessionID]
  | take (hworker : work.thread.worker = .takeAll) :
      Worked work .runTakeAll
        { work with
          thread := { work.thread with vecWrite := [], worker := .execute work.thread.vecWrite } }
        []
  | execute (database : ℕ → List UInt8 → DBAnswer) (junk : ℕ → Int) (tmp : List ℕ)
      (hworker : work.thread.worker = .execute tmp) :
      Worked work (.runExecute database junk)
        (tmp.foldl (executeNode database junk)
          { work with
            thread := { work.thread with
              vecWriteFinish := work.thread.vecWriteFinish ++ tmp, worker := .takeAll } })
        []
  | fetch (hidle : work.vecAllFinishWaitNode = []) :
      Worked work .getFinishDBWait
        { work with
          thread := { work.thread with vecWriteFinish := [] }
          vecAllFinishWaitNode := work.thread.vecWriteFinish }
        []
  | visit (outside : ℕ → ServerData) (junk : DealJunk) (now : Int64) (pNode : ℕ)
      (rest : List ℕ) (node : WaitNode) (hnext : work.vecAllFinishWaitNode = pNode :: rest)
      (hnode : work.nodes[pNode]? = some node) :
      Worked work (.doLogic outside junk now)
        { work with
          vecAllFinishWaitNode := rest
          dbms := (node.doLogic outside junk now work.vecServerList work.dbms).1 }
        [.doLogic pNode node (node.doLogic outside junk now work.vecServerList work.dbms).2]

/-- Fetching appends the nodes to those that the main thread has still to visit. -/
theorem foldl_delivered (database : ℕ → List UInt8 → DBAnswer) (junk : ℕ → Int)
    (nodes : List ℕ) (work : SqlWork) :
    (nodes.map DBSqlEffect.delivered).foldl (SqlWork.perform database junk) work =
      { work with vecAllFinishWaitNode := work.vecAllFinishWaitNode ++ nodes } := by
  induction nodes generalizing work with
  | nil => simp
  | cons pNode nodes ih =>
    rw [List.map_cons, List.foldl_cons, ih]
    simp [SqlWork.perform]

/-- The effects of a batch run `DoDBSql` on its nodes, one after the other. -/
theorem foldl_doDBSql (database : ℕ → List UInt8 → DBAnswer) (junk : ℕ → Int)
    (tmp : List ℕ) (work : SqlWork) :
    (tmp.map DBSqlEffect.doDBSql).foldl (SqlWork.perform database junk) work =
      tmp.foldl (executeNode database junk) work := by
  rw [List.foldl_map]
  rfl

/-- A step that is a call of the thread advances the thread and performs its effects. -/
theorem callThread_inv {database : ℕ → List UInt8 → DBAnswer} {junk : ℕ → Int}
    {call : DBSqlCall ℕ} {work work' : SqlWork} {created o : List SqlWorkEffect}
    (h : (work.callThread database junk call).map (fun work => (work, created)) =
      some (work', o)) :
    ∃ thread effects, Advanced work.thread call thread effects ∧ o = created ∧
      work' = effects.foldl (SqlWork.perform database junk) { work with thread := thread } := by
  simp only [SqlWork.callThread, Option.map_map, Option.map_eq_some_iff, Function.comp_apply,
    Prod.mk.injEq] at h
  obtain ⟨⟨thread, effects⟩, hstep, rfl, rfl⟩ := h
  exact ⟨thread, effects, advanced_of_step hstep, rfl, rfl⟩

/-- Every step of the nodes is one of the five. -/
theorem worked_of_step {work work' : SqlWork} {call : SqlWorkCall} {o : List SqlWorkEffect}
    (h : work.step call = some (work', o)) : Worked work call work' o := by
  cases call with
  | request iSessionID request junk =>
    simp only [SqlWork.step, SqlWork.callThreadOnly] at h
    split_ifs at h with hidle
    obtain ⟨thread, effects, hadvanced, rfl, rfl⟩ := callThread_inv h
    cases hadvanced
    exact .request iSessionID request junk hidle
  | runTakeAll =>
    simp only [SqlWork.step, SqlWork.callThreadOnly] at h
    obtain ⟨thread, effects, hadvanced, rfl, rfl⟩ := callThread_inv h
    cases hadvanced with
    | take hworker => exact .take hworker
  | runExecute database junk =>
    obtain ⟨thread, effects, hadvanced, rfl, rfl⟩ := callThread_inv h
    cases hadvanced with
    | execute tmp hworker =>
      rw [foldl_doDBSql]
      exact .execute database junk tmp hworker
  | getFinishDBWait =>
    simp only [SqlWork.step, SqlWork.callThreadOnly] at h
    split_ifs at h with hidle
    obtain ⟨thread, effects, hadvanced, rfl, rfl⟩ := callThread_inv h
    cases hadvanced
    rw [foldl_delivered, hidle, List.nil_append]
    exact .fetch hidle
  | doLogic outside junk now =>
    unfold SqlWork.step at h
    cases hnext : work.vecAllFinishWaitNode with
    | nil => simp [hnext] at h
    | cons pNode rest =>
      cases hnode : work.nodes[pNode]? with
      | none => simp [hnext, hnode] at h
      | some node =>
        simp only [hnext, hnode, Option.some.injEq, Prod.mk.injEq] at h
        obtain ⟨rfl, rfl⟩ := h
        exact .visit outside junk now pNode rest node hnext hnode

/-! ## What `DoDBSql` leaves alone -/

def sessionIDs (work : SqlWork) : List (Cell UInt32) := work.nodes.map WaitNode.dwSessionID

/-- Neither `DoDBSql` assigns `m_dwSessionID`. -/
theorem dwSessionID_doDBSql (database : List UInt8 → DBAnswer) (junk : Int)
    (vecServerList : List ServerData) (node : WaitNode) :
    (node.doDBSql database junk vecServerList).1.dwSessionID = node.dwSessionID := by
  cases node <;> rfl

/-- A round of the worker assigns no `m_dwSessionID`. -/
theorem sessionIDs_executeNode (database : ℕ → List UInt8 → DBAnswer) (junk : ℕ → Int)
    (work : SqlWork) (pNode : ℕ) :
    sessionIDs (executeNode database junk work pNode) = sessionIDs work := by
  unfold executeNode
  cases hnode : work.nodes[pNode]? with
  | none => rfl
  | some node =>
    unfold sessionIDs
    rw [List.map_set, dwSessionID_doDBSql]
    apply List.ext_getElem?
    intro i
    rw [List.getElem?_set]
    split_ifs with hi hlt
    · rw [← hi, List.getElem?_map, hnode]
      rfl
    · rw [List.getElem?_eq_none (by omega)]
    · rfl

/-- The queues of a batch that is executed stay as they are. -/
theorem queues_executeNode (database : ℕ → List UInt8 → DBAnswer) (junk : ℕ → Int)
    (work : SqlWork) (pNode : ℕ) :
    (executeNode database junk work pNode).thread = work.thread ∧
      (executeNode database junk work pNode).vecAllFinishWaitNode =
        work.vecAllFinishWaitNode := by
  unfold executeNode
  cases work.nodes[pNode]? with
  | none => exact ⟨rfl, rfl⟩
  | some node => exact ⟨rfl, rfl⟩

/-- A batch keeps what each of its rounds keeps, by induction on the rounds. -/
theorem foldl_executeNode (database : ℕ → List UInt8 → DBAnswer) (junk : ℕ → Int)
    (tmp : List ℕ) (work : SqlWork) :
    sessionIDs (tmp.foldl (executeNode database junk) work) = sessionIDs work ∧
      (tmp.foldl (executeNode database junk) work).thread = work.thread ∧
      (tmp.foldl (executeNode database junk) work).vecAllFinishWaitNode =
        work.vecAllFinishWaitNode := by
  induction tmp generalizing work with
  | nil => exact ⟨rfl, rfl, rfl⟩
  | cons pNode tmp ih =>
    obtain ⟨hsessions, hthread, hnext⟩ := ih (executeNode database junk work pNode)
    obtain ⟨hthread', hnext'⟩ := queues_executeNode database junk work pNode
    rw [List.foldl_cons]
    exact ⟨hsessions.trans (sessionIDs_executeNode database junk work pNode),
      hthread.trans hthread', hnext.trans hnext'⟩

/-! ## Over a run -/

/-- What the storage of a new node holds where `m_dwSessionID` is. -/
def storageOf : SqlWorkCall → Option UInt32
  | .request _ _ junk => some junk.field
  | _ => none

/-- What the storages held, in the order of the constructions. -/
def storage (h : List (SqlWorkCall × List SqlWorkEffect)) : List UInt32 :=
  (inputs h).filterMap storageOf

/-- A step assigns no `m_dwSessionID`; a request adds the storage of its node. -/
theorem sessionIDs_step {work work' : SqlWork} {call : SqlWorkCall} {o : List SqlWorkEffect}
    (h : Worked work call work' o) :
    sessionIDs work' = sessionIDs work ++ (storageOf call).toList.map Cell.unset := by
  cases h with
  | request iSessionID request junk hidle =>
    have hnew : (WaitNode.new junk request).dwSessionID = .unset junk.field := by
      cases request <;> rfl
    simp [sessionIDs, storageOf, hnew]
  | take hworker => simp [sessionIDs, storageOf]
  | execute database junk tmp hworker =>
    rw [(foldl_executeNode database junk tmp _).1]
    simp [sessionIDs, storageOf]
  | fetch hidle => simp [sessionIDs, storageOf]
  | visit outside junk now pNode rest node hnext hnode => simp [sessionIDs, storageOf]

variable {h : List (SqlWorkCall × List SqlWorkEffect)} {work : SqlWork}

/-- Every `m_dwSessionID` is what the storage held, whatever ran since. -/
theorem sessionIDs_of_run (hrun : SqlWorkRun h work) :
    sessionIDs work = (storage h).map Cell.unset := by
  apply hrun.invariant fun h work => sessionIDs work = (storage h).map Cell.unset
  · rfl
  · intro h u call v o _ ih hstep
    rw [sessionIDs_step (worked_of_step hstep), ih]
    cases hcall : storageOf call <;> simp [storage, hcall]

def createdNode : SqlWorkEffect → Option ℕ
  | .created pNode _ => some pNode
  | _ => none

def visitedNode : SqlWorkEffect → Option ℕ
  | .doLogic pNode _ _ => some pNode
  | _ => none

/-- The nodes that `DoLogic` ran on. -/
def visited (h : List (SqlWorkCall × List SqlWorkEffect)) : List ℕ :=
  (outputs h).filterMap visitedNode

/-- The nodes that `DoLogic` has still to run on, the oldest request first. -/
def pending (work : SqlWork) : List ℕ := work.vecAllFinishWaitNode ++ inPipeline work.thread

/-- A step appends the node it creates to those that wait, and takes the one it answers from the
front. -/
theorem pending_step {work' : SqlWork} {call : SqlWorkCall} {o : List SqlWorkEffect}
    (h : Worked work call work' o) :
    pending work ++ o.filterMap createdNode = o.filterMap visitedNode ++ pending work' := by
  cases h with
  | request iSessionID request junk hidle =>
    simp [pending, inPipeline, DBSqlThread.batch, createdNode, visitedNode]
  | take hworker => simp [pending, inPipeline, DBSqlThread.batch, hworker]
  | execute database junk tmp hworker =>
    obtain ⟨-, hthread, hnext⟩ := foldl_executeNode database junk tmp { work with
      thread := { work.thread with
        vecWriteFinish := work.thread.vecWriteFinish ++ tmp, worker := .takeAll } }
    unfold pending
    rw [hthread, hnext]
    simp [inPipeline, DBSqlThread.batch, hworker]
  | fetch hidle => simp [pending, inPipeline, DBSqlThread.batch, hidle]
  | visit outside junk now pNode rest node hnext hnode =>
    simp [pending, hnext, createdNode, visitedNode]

/-- Every node has an `m_dwSessionID`. -/
theorem nodes_length_eq (work : SqlWork) : work.nodes.length = (sessionIDs work).length := by
  rw [sessionIDs, List.length_map]

/-- A node that is created gets the next number. -/
theorem range_step {work' : SqlWork} {call : SqlWorkCall} {o : List SqlWorkEffect}
    (h : Worked work call work' o) :
    List.range work'.nodes.length = List.range work.nodes.length ++ o.filterMap createdNode := by
  have hlength := congrArg List.length (sessionIDs_step h)
  rw [List.length_append, ← nodes_length_eq, ← nodes_length_eq] at hlength
  cases h with
  | request iSessionID request junk hidle =>
    simp [createdNode, List.range_succ]
  | take hworker => simp
  | execute database junk tmp hworker =>
    rw [hlength]
    simp [storageOf]
  | fetch hidle => simp
  | visit outside junk now pNode rest node hnext hnode => simp [createdNode]

/-- `DoLogic` runs on each node once, in the order of the requests. -/
theorem visited_eq_range (hrun : SqlWorkRun h work) :
    visited h ++ pending work = List.range work.nodes.length := by
  apply hrun.invariant fun h work => visited h ++ pending work = List.range work.nodes.length
  · rfl
  · intro h u call v o _ ih hstep
    have hworked := worked_of_step hstep
    rw [range_step hworked, ← ih, List.append_assoc, pending_step hworked]
    simp [visited, List.filterMap_append]

/-- The loop of `DealSqlMsg` is never stuck. -/
theorem doLogic_enabled (hrun : SqlWorkRun h work) (hnext : work.vecAllFinishWaitNode ≠ [])
    (outside : ℕ → ServerData) (junk : DealJunk) (now : Int64) :
    (work.step (.doLogic outside junk now)).isSome = true := by
  obtain ⟨pNode, rest, hcons⟩ := List.exists_cons_of_ne_nil hnext
  have hmem : pNode ∈ List.range work.nodes.length := by
    rw [← visited_eq_range hrun, pending, hcons]
    simp
  have hnode := List.getElem?_eq_getElem (List.mem_range.mp hmem)
  simp [SqlWork.step, hcons, hnode]

/-- The reply of every `DoLogic` is sent to what the storage of its node held. -/
theorem sent_to_storage (hrun : SqlWorkRun h work) {pNode : ℕ} {node : WaitNode}
    {sends : List (Int × HMessage)} (hmem : .doLogic pNode node sends ∈ outputs h) :
    ∃ junk answer, (storage h)[pNode]? = some junk ∧ node.dwSessionID = .unset junk ∧
      sends = [(toInt junk.toNat, answer)] := by
  obtain ⟨call, o, hin, hout⟩ := mem_outputs.mp hmem
  obtain ⟨h₁, h₂, rfl⟩ := List.append_of_mem hin
  obtain ⟨t, v, ht, hstep, -⟩ := hrun.step_of_split
  have hsessions := sessionIDs_of_run ht
  cases worked_of_step hstep with
  | request iSessionID request junk hidle => simp at hout
  | take hworker => simp at hout
  | execute database junk tmp hworker => simp at hout
  | fetch hidle => simp at hout
  | visit outside junk now p rest n hnext hnode =>
    rw [List.mem_singleton, SqlWorkEffect.doLogic.injEq] at hout
    obtain ⟨rfl, rfl, rfl⟩ := hout
    have hsession : (sessionIDs t)[pNode]? = some node.dwSessionID := by
      rw [sessionIDs, List.getElem?_map, hnode, Option.map_some]
    rw [hsessions, List.getElem?_map, Option.map_eq_some_iff] at hsession
    obtain ⟨field, hfield, hunset⟩ := hsession
    refine ⟨field, ?_⟩
    have hprefix : (storage (h₁ ++ (.doLogic outside junk now,
        [.doLogic pNode node (node.doLogic outside junk now t.vecServerList t.dbms).2]) ::
          h₂))[pNode]? = some field := by
      unfold storage at hfield ⊢
      rw [inputs_append, List.filterMap_append,
        List.getElem?_append_left (List.getElem?_eq_some_iff.mp hfield).1, hfield]
    cases node with
    | register node =>
      have hread : node.dwSessionID = .unset field := hunset.symm
      refine ⟨node.reply junk, hprefix, hread, ?_⟩
      simp [WaitNode.doLogic, CRegisterWaitNode.doLogic, hread, Cell.read]
    | login node =>
      have hread : node.dwSessionID = .unset field := hunset.symm
      refine ⟨node.reply outside junk t.vecServerList, hprefix, hread, ?_⟩
      simp [WaitNode.doLogic, CLoginWaitNode.doLogic, hread, Cell.read]

/-! ## Answers to the asker -/

/-- `DoLogic` sent the one reply of the node to the session that it was built for, by an
assigned `m_dwSessionID`. -/
def SentToAsker (h : List (SqlWorkCall × List SqlWorkEffect)) (pNode : ℕ) (node : WaitNode)
    (sends : List (Int × HMessage)) : Prop :=
  node.dwSessionID.IsAssigned ∧
    ∃ iSessionID answer, .created pNode iSessionID ∈ outputs h ∧ sends = [(iSessionID, answer)]

/-- Every answer of a history goes to the asker. -/
def AnswersAsker (h : List (SqlWorkCall × List SqlWorkEffect)) : Prop :=
  ∀ pNode node sends, .doLogic pNode node sends ∈ outputs h → SentToAsker h pNode node sends

def RunsLogic : SqlWorkCall → Prop
  | .doLogic _ _ _ => True
  | _ => False

/-- No reply of `DoLogic` is sent to its asker by an assigned number. -/
theorem not_sentToAsker (hrun : SqlWorkRun h work) {pNode : ℕ} {node : WaitNode}
    {sends : List (Int × HMessage)} (hmem : .doLogic pNode node sends ∈ outputs h) :
    ¬SentToAsker h pNode node sends := by
  obtain ⟨junk, answer, -, hunset, -⟩ := sent_to_storage hrun hmem
  rintro ⟨hassigned, -⟩
  rw [hunset] at hassigned
  exact hassigned

/-- A call of `DoLogic` is what has its effect. -/
theorem runsLogic_iff {work' : SqlWork} {call : SqlWorkCall} {o : List SqlWorkEffect}
    (h : Worked work call work' o) :
    RunsLogic call ↔ ∃ pNode node sends, .doLogic pNode node sends ∈ o := by
  cases h with
  | request iSessionID request junk hidle => simp [RunsLogic]
  | take hworker => simp [RunsLogic]
  | execute database junk tmp hworker => simp [RunsLogic]
  | fetch hidle => simp [RunsLogic]
  | visit outside junk now pNode rest node hnext hnode =>
    exact iff_of_true trivial ⟨pNode, node, _, List.mem_singleton_self _⟩

/-- No answer goes to the asker: only where no `DoLogic` runs is none missent. -/
theorem answersAsker_iff (hrun : SqlWorkRun h work) :
    AnswersAsker h ↔ ∀ call ∈ inputs h, ¬RunsLogic call := by
  constructor
  · intro hasker call hcall hruns
    obtain ⟨o, hmem⟩ := mem_inputs.mp hcall
    obtain ⟨k, t, v, ht, hstep⟩ := hrun.step_of_mem hmem
    obtain ⟨pNode, node, sends, ho⟩ := (runsLogic_iff (worked_of_step hstep)).mp hruns
    have hout : .doLogic pNode node sends ∈ outputs h := mem_outputs.mpr ⟨call, o, hmem, ho⟩
    exact not_sentToAsker hrun hout (hasker pNode node sends hout)
  · intro hnone pNode node sends hout
    obtain ⟨call, o, hmem, ho⟩ := mem_outputs.mp hout
    obtain ⟨k, t, v, ht, hstep⟩ := hrun.step_of_mem hmem
    have hruns := (runsLogic_iff (worked_of_step hstep)).mpr ⟨pNode, node, sends, ho⟩
    exact absurd hruns (hnone call (mem_inputs.mpr ⟨o, hmem⟩))

/-! ## Two sessions -/

def createdFor : SqlWorkEffect → List (ℕ × Int)
  | .created pNode iSessionID => [(pNode, iSessionID)]
  | _ => []

def sentTo : SqlWorkEffect → List (ℕ × Int)
  | .doLogic pNode _ sends => sends.map fun send => (pNode, send.1)
  | _ => []

/-- Session 5 logs in and session 6 registers; the storage of the first node happens to
hold a 6. -/
def twoAskers : List SqlWorkCall :=
  [.request 5 (.login [65] [66] 7) ⟨6, 0, false⟩, .request 6 (.register [67] [68]) ⟨0, 0, false⟩,
    .runTakeAll, .runExecute (fun _ _ => ⟨false, 0, none⟩) (fun _ => 0), .getFinishDBWait,
    .doLogic (fun _ => ⟨0, [], [], 0, 0⟩) zeroedDeal 100,
    .doLogic (fun _ => ⟨0, [], [], 0, 0⟩) zeroedDeal 100]

/-- Two sessions ask, and one node is answered. -/
theorem answersAsker_iff_twoAskers :
    ∃ h work, SqlWorkRun h work ∧ inputs h = twoAskers ∧
      (AnswersAsker h ↔ ∀ call ∈ inputs h, ¬RunsLogic call) := by
  have hexec : (exec SqlWork.step SqlWork.start twoAskers).isSome = true := rfl
  obtain ⟨h, work, hrun, hin⟩ := exists_runs_of_exec hexec
  exact ⟨h, work, hrun, hin, answersAsker_iff hrun⟩

/-- The answer to the login of session 5 is sent to session 6, and that to the
registration of session 6 to session 0. -/
theorem answers_missent :
    ∃ h work, SqlWorkRun h work ∧ inputs h = twoAskers ∧
      (outputs h).flatMap createdFor = [(0, 5), (1, 6)] ∧
      (outputs h).flatMap sentTo = [(0, 6), (1, 0)] ∧ ¬AnswersAsker h := by
  have hexec : (exec SqlWork.step SqlWork.start twoAskers).map
      (fun r => ((outputs r.2).flatMap createdFor, (outputs r.2).flatMap sentTo)) =
      some ([(0, 5), (1, 6)], [(0, 6), (1, 0)]) := by
    decide +kernel
  obtain ⟨h, work, hrun, hin, hboth⟩ := exists_runs_of_exec_map
    (fun h => ((outputs h).flatMap createdFor, (outputs h).flatMap sentTo)) hexec
  obtain ⟨hcreated, hsent⟩ := Prod.mk.inj hboth
  refine ⟨h, work, hrun, hin, hcreated, hsent, ?_⟩
  intro hasker
  have hmem : ((0, 6) : ℕ × Int) ∈ (outputs h).flatMap sentTo := by
    rw [hsent]
    exact List.mem_cons_self
  obtain ⟨effect, heffect, hsend⟩ := List.mem_flatMap.mp hmem
  cases effect with
  | created pNode iSessionID => cases hsend
  | doLogic pNode node sends =>
    exact not_sentToAsker hrun heffect (hasker pNode node sends heffect)

end ShootGame.Analysis
