import ShootGame.Analysis.Callbacks
import ShootGame.Analysis.NodesOnConnection

/-!
# Requests after the connection is lost

Once `con` is null nothing makes it anything else: no query reaches `KeepAlive`, and `init`
is called by `KeepAlive` and by `GetInstance` only.  So every node that is executed from
then on fails without a call of the MySQL library, and every request made from then on is
answered, to the end of the program, with the code for failure.
-/

set_option autoImplicit false

namespace ShootGame.Analysis

open ShootGame.Library ShootGame.Model

/-! ## One node -/

/-- What `DoDBSql` leaves in a node whose request failed. -/
def RequestFailed : WaitNode → Prop
  | .register node => node.outdata.read ≤ 0
  | .login node => node.checkisOK.read = false

/-- Without a connection a query makes no call and changes nothing. -/
theorem query_of_lost {α : Type} {connect : ThreadConnect} (hlost : connect.db.con = none)
    (sql : List UInt8) (answers : LoadAnswers) (noConn failed : α)
    (rows : Option ℕ → Option (ℕ × ResultSet) → α × List NodeCall) :
    connect.query sql answers noConn failed rows = (noConn, connect, []) := by
  simp [ThreadConnect.query, hlost]

/-- Without a connection a node fails, and nothing but the node is changed. -/
theorem doDBSqlOn_of_lost {connect : ThreadConnect} (hlost : connect.db.con = none)
    (answers : NodeAnswers) (vecServerList : List ServerData) (node : WaitNode) :
    let done := node.doDBSqlOn answers vecServerList connect
    RequestFailed done.node ∧ done.vecServerList = vecServerList ∧ done.connect = connect ∧
      done.calls = [] := by
  cases node with
  | register node =>
    simp only [WaitNode.doDBSqlOn, ThreadConnect.checkAndInsertAccountAndPasswd,
      query_of_lost hlost]
    split_ifs <;> simp [RequestFailed, Cell.read]
  | login node =>
    simp only [WaitNode.doDBSqlOn, ThreadConnect.checkLoginData,
      ThreadConnect.getAllPerganaFromSql, query_of_lost hlost]
    simp [RequestFailed, Cell.read]

/-- A login answer that nothing is put behind. -/
theorem loginAnswer_head_alone {msg : ZS2CALogin}
    (hmain : msg.iMainProtocol = MainProtocol.fmZdqLogin.code)
    (hsub : msg.iSubProtocol = SubProtocol.zs2cALogin.code) (junk junkMsg : Junk) :
    HeadIs (HMessage.ofData junkMsg (sentFrame (msg.put (HMessage.new junk)))).byBuffer
      MainProtocol.fmZdqLogin.code SubProtocol.zs2cALogin.code msg.iErrorCode := by
  have hext := loginAnswer_put_extends msg junk
  have hrefl : Advances (msg.put (HMessage.new junk)) (msg.put (HMessage.new junk)) := by
    apply Advances.refl
    rw [hext.iPos]
    simp
  rw [List.append_assoc (_ ++ _), List.append_assoc (_ ++ _ ++ _), hmain, hsub] at hext
  exact headIs_of_extends hrefl hext junkMsg

/-- The reply to a login that failed is the head with the code for failure. -/
theorem login_reply_of_refused {node : CLoginWaitNode} (h : RequestFailed (.login node))
    (outside : ℕ → ServerData) (junk : DealJunk) (vecServerList : List ServerData) :
    node.reply outside junk vecServerList =
      { ZS2CALogin.new junk.wSize junk.field with
        iErrorCode := LoginErrorCode.loginFail.code }.put (HMessage.new junk.sendHmg) := by
  have hok : node.checkisOK.read = false := h
  simp [CLoginWaitNode.reply, CLoginWaitNode.succeeded, hok]

/-- The client that is given the frame executes one delegate, for a failure. -/
def ReportsFailure (frame : List UInt8) : Prop :=
  ∀ (δ : Type) (logic : UProNetLogic δ) (junk : RecvJunk) (junkMsg : Junk),
    calls (logic.dealOne junk (HMessage.ofData junkMsg frame)) =
        [.onRegist logic.onRegistDelegate false] ∨
      calls (logic.dealOne junk (HMessage.ofData junkMsg frame)) =
        [.onLogin logic.onLoginDelegate false]

/-- A request that failed is answered by one message, which reports it. -/
theorem reportsFailure_of_refused {node : WaitNode} (h : RequestFailed node)
    (outside : ℕ → ServerData) (junk : DealJunk) (now : Int64) (vecServerList : List ServerData)
    (db : DBMS) :
    ∃ session answer, (node.doLogic outside junk now vecServerList db).2 = [(session, answer)] ∧
      ReportsFailure (sentFrame answer) := by
  cases node with
  | register node =>
    refine ⟨_, _, rfl, ?_⟩
    intro δ logic recvJunk junkMsg
    left
    obtain ⟨msg, hreply, hmain, hsub, hcode, -⟩ := register_reply junk node
    obtain ⟨hhead, -⟩ := registerAnswer_head hmain hsub junk.sendHmg junkMsg
    obtain ⟨hcall, -⟩ := dealOne_register recvJunk logic junkMsg _ hhead
    have hfail : ¬msg.iErrorCode = RegisterErrorCode.regsterOk.code := by
      rw [hcode]
      exact not_lt.mpr h
    simp only [hreply, hcall, decide_eq_false hfail]
  | login node =>
    refine ⟨_, _, rfl, ?_⟩
    intro δ logic recvJunk junkMsg
    right
    rw [login_reply_of_refused h]
    have hhead := @loginAnswer_head_alone { ZS2CALogin.new junk.wSize junk.field with
      iErrorCode := LoginErrorCode.loginFail.code } rfl rfl junk.sendHmg junkMsg
    rw [dealOne_login recvJunk logic junkMsg _ hhead]
    rfl

/-! ## A batch -/

/-- What is left of a batch that was executed without a connection. -/
structure BatchLost (tmp : List ℕ) (s t : ConnectedWork) (calls : List NodeCall) : Prop where
  quiet : calls = []
  connect : t.connect = s.connect
  vecServerList : t.work.vecServerList = s.work.vecServerList
  thread : t.work.thread = s.work.thread
  next : t.work.vecAllFinishWaitNode = s.work.vecAllFinishWaitNode
  refused : ∀ pNode ∈ tmp, ∀ node, t.work.nodes[pNode]? = some node → RequestFailed node
  others : ∀ pNode, pNode ∉ tmp → t.work.nodes[pNode]? = s.work.nodes[pNode]?

/-- A node executed without a connection fails. -/
theorem executeOne_of_lost (answers : ℕ → NodeAnswers) (pNode : ℕ) {s : ConnectedWork}
    (hlost : s.connect.db.con = none) :
    BatchLost [pNode] s (s.executeOne answers pNode).1 (s.executeOne answers pNode).2 := by
  unfold ConnectedWork.executeOne
  cases hnode : s.work.nodes[pNode]? with
  | none =>
    refine ⟨rfl, rfl, rfl, rfl, rfl, ?_, fun _ _ => rfl⟩
    intro q hq node hsome
    rw [List.mem_singleton.mp hq, hnode] at hsome
    cases hsome
  | some node =>
    obtain ⟨hrefused, hlist, hconnect, hcalls⟩ :=
      doDBSqlOn_of_lost hlost (answers pNode) s.work.vecServerList node
    have hlt := (List.getElem?_eq_some_iff.mp hnode).1
    refine ⟨hcalls, hconnect, hlist, rfl, rfl, ?_, ?_⟩
    · intro q hq done hsome
      rw [List.mem_singleton.mp hq, List.getElem?_set_self hlt] at hsome
      cases hsome
      exact hrefused
    · intro q hq
      apply List.getElem?_set_ne
      intro heq
      exact hq (heq ▸ List.mem_singleton_self q)

/-- By induction on the batch. -/
theorem executeAll_of_lost (answers : ℕ → NodeAnswers) (tmp : List ℕ) {s : ConnectedWork}
    (hlost : s.connect.db.con = none) :
    BatchLost tmp s (ConnectedWork.executeAll answers tmp s).1
      (ConnectedWork.executeAll answers tmp s).2 := by
  induction tmp generalizing s with
  | nil => exact ⟨rfl, rfl, rfl, rfl, rfl, by simp, fun _ _ => rfl⟩
  | cons pNode tmp ih =>
    have hone := executeOne_of_lost answers pNode hlost
    have hrest := ih (s := (s.executeOne answers pNode).1) (by rw [hone.connect, hlost])
    unfold ConnectedWork.executeAll
    refine ⟨?_, hrest.connect.trans hone.connect, hrest.vecServerList.trans hone.vecServerList,
      hrest.thread.trans hone.thread, hrest.next.trans hone.next, ?_, ?_⟩
    · dsimp only
      rw [hone.quiet, hrest.quiet, List.append_nil]
    · intro q hq node hsome
      by_cases htmp : q ∈ tmp
      · exact hrest.refused q htmp node hsome
      · -- the node that is executed first and not again
        have hfirst : q ∈ [pNode] := by simpa [htmp] using hq
        rw [hrest.others q htmp] at hsome
        exact hone.refused q hfirst node hsome
    · intro q hq
      rw [List.mem_cons, not_or] at hq
      rw [hrest.others q hq.2, hone.others q (by simpa using hq.1)]

/-! ## Over a run -/

/-- The queues hold nodes that have been built. -/
theorem pending_lt {answers : ConnectAnswers} {h : List (ConnectedCall × List ConnectedEffect)}
    {s : ConnectedWork} (hrun : ConnectedRun answers h s) :
    ∀ pNode ∈ pending s.work, pNode < s.work.nodes.length := by
  intro pNode hmem
  obtain ⟨h', hwork, -, -⟩ := connected_refines hrun
  rw [← List.mem_range, ← visited_eq_range hwork]
  exact List.mem_append_right _ hmem

/-- There is no connection, and the nodes from `n` on that have been executed failed. -/
structure LossInv (n : ℕ) (vecServerList : List ServerData) (s : ConnectedWork) : Prop where
  lost : s.connect.db.con = none
  list : s.work.vecServerList = vecServerList
  refused : ∀ pNode ∈ s.work.vecAllFinishWaitNode ++ s.work.thread.vecWriteFinish, n ≤ pNode →
    ∀ node, s.work.nodes[pNode]? = some node → RequestFailed node

/-- What may be seen after the loss: no call of the MySQL library, and the answers to the
requests from the `n`th on are failures. -/
def SeenAfterLoss (n : ℕ) : ConnectedEffect → Prop
  | .call _ => False
  | .work (.created _ _) => True
  | .work (.doLogic pNode _ sends) => n ≤ pNode → ∃ session answer,
      sends = [(session, answer)] ∧ ReportsFailure (sentFrame answer)

/-- A step that executes no batch keeps the invariant, and shows nothing but failures. -/
theorem lossInv_besides {n : ℕ} {vecServerList : List ServerData} {s t : ConnectedWork}
    (hlt : ∀ pNode ∈ pending s.work, pNode < s.work.nodes.length)
    (hinv : LossInv n vecServerList s) {call : SqlWorkCall} {o : List ConnectedEffect}
    (hcall : ∀ database junk, call ≠ .runExecute database junk)
    (hstep : s.besides call = some (t, o)) :
    LossInv n vecServerList t ∧ ∀ effect ∈ o, SeenAfterLoss n effect := by
  obtain ⟨out, hwork, hconnect, rfl⟩ := besides_eq hstep
  obtain ⟨work, connect⟩ := t
  obtain rfl : connect = s.connect := hconnect
  have hworked := worked_of_step hwork
  dsimp only at hworked
  cases hworked with
  | request iSessionID request junk hidle =>
    refine ⟨⟨hinv.lost, hinv.list, ?_⟩, by simp [SeenAfterLoss]⟩
    intro pNode hmem hn node hsome
    -- the new node is in neither of the two queues
    have hold : pNode < s.work.nodes.length := by
      apply hlt
      simp only [pending, inPipeline, List.mem_append] at hmem ⊢
      tauto
    rw [List.getElem?_append_left hold] at hsome
    exact hinv.refused pNode hmem hn node hsome
  | take hworker => exact ⟨⟨hinv.lost, hinv.list, hinv.refused⟩, by simp⟩
  | execute database junk tmp hworker => exact absurd rfl (hcall database junk)
  | fetch hidle =>
    refine ⟨⟨hinv.lost, hinv.list, ?_⟩, by simp⟩
    intro pNode hmem
    apply hinv.refused
    simpa [hidle] using hmem
  | visit outside junk now pNode rest node hnext hnode =>
    refine ⟨⟨hinv.lost, hinv.list, ?_⟩, ?_⟩
    · intro q hmem
      apply hinv.refused
      simp only [hnext, List.mem_append, List.mem_cons] at hmem ⊢
      tauto
    · intro effect heffect
      simp only [List.map_cons, List.map_nil, List.mem_singleton] at heffect
      subst heffect
      intro hn
      have hrefused := hinv.refused pNode (by simp [hnext]) hn node hnode
      exact reportsFailure_of_refused hrefused outside junk now _ _

/-- Every step keeps the invariant, and shows nothing but failures. -/
theorem lossInv_step {n : ℕ} {vecServerList : List ServerData} {s t : ConnectedWork}
    (hlt : ∀ pNode ∈ pending s.work, pNode < s.work.nodes.length)
    (hinv : LossInv n vecServerList s) {call : ConnectedCall} {o : List ConnectedEffect}
    (hstep : s.step call = some (t, o)) :
    LossInv n vecServerList t ∧ ∀ effect ∈ o, SeenAfterLoss n effect := by
  cases call with
  | request iSessionID request junk => exact lossInv_besides hlt hinv (by simp) hstep
  | runTakeAll => exact lossInv_besides hlt hinv (by simp) hstep
  | getFinishDBWait => exact lossInv_besides hlt hinv (by simp) hstep
  | doLogic outside junk now => exact lossInv_besides hlt hinv (by simp) hstep
  | runExecute answers =>
    unfold ConnectedWork.step at hstep
    cases hworker : s.work.thread.worker with
    | takeAll => simp [hworker] at hstep
    | execute tmp =>
      simp only [hworker, Option.some.injEq, Prod.mk.injEq] at hstep
      obtain ⟨rfl, rfl⟩ := hstep
      have hall := executeAll_of_lost answers tmp (s := { s with work := { s.work with
        thread := { s.work.thread with
          vecWriteFinish := s.work.thread.vecWriteFinish ++ tmp, worker := .takeAll } } })
        hinv.lost
      refine ⟨⟨by rw [hall.connect]; exact hinv.lost, by rw [hall.vecServerList]; exact hinv.list,
        ?_⟩, by rw [hall.quiet]; simp⟩
      intro pNode hmem hn node hsome
      by_cases htmp : pNode ∈ tmp
      · exact hall.refused pNode htmp node hsome
      · rw [hall.thread, hall.next] at hmem
        rw [hall.others pNode htmp] at hsome
        apply hinv.refused pNode _ hn node hsome
        simp only [List.mem_append, htmp, or_false] at hmem ⊢
        exact hmem

/-- Once the connection is lost, in every continuation of the run: it stays lost, the MySQL
library is never called again, the global list never grows again, and every request made
from then on is answered with a failure, by a frame that makes any client report one. -/
theorem lost_for_good {answers : ConnectAnswers}
    {h k : List (ConnectedCall × List ConnectedEffect)} {s t : ConnectedWork}
    (hrun : ConnectedRun answers h s) (hlost : s.connect.db.con = none)
    (hafter : Runs ConnectedWork.step s k t) :
    t.connect.db.con = none ∧ t.work.vecServerList = s.work.vecServerList ∧
      (∀ call, ConnectedEffect.call call ∉ outputs k) ∧
      ∀ pNode node sends, .work (.doLogic pNode node sends) ∈ outputs k →
        s.work.nodes.length ≤ pNode → ∃ session answer,
          sends = [(session, answer)] ∧ ReportsFailure (sentFrame answer) := by
  have hstart : LossInv s.work.nodes.length s.work.vecServerList s := by
    refine ⟨hlost, rfl, ?_⟩
    intro pNode _ hn node hsome
    rw [List.getElem?_eq_none hn] at hsome
    cases hsome
  have hall : LossInv s.work.nodes.length s.work.vecServerList t ∧
      ∀ effect ∈ outputs k, SeenAfterLoss s.work.nodes.length effect := by
    induction hafter with
    | start => exact ⟨hstart, by simp⟩
    | next hafter hstep ih =>
      obtain ⟨hinv, hseen⟩ := ih
      obtain ⟨hinv', hseen'⟩ := lossInv_step (pending_lt (hrun.trans hafter)) hinv hstep
      refine ⟨hinv', ?_⟩
      rw [outputs_append, outputs_cons, outputs_nil, List.append_nil, List.forall_mem_append]
      exact ⟨hseen, hseen'⟩
  obtain ⟨hinv, hseen⟩ := hall
  exact ⟨hinv.lost, hinv.list, fun call hmem => hseen _ hmem,
    fun pNode node sends hmem => hseen _ hmem⟩

/-- The login that lost the connection is answered, and another one after it. -/
def laterCalls : List ConnectedCall :=
  [.getFinishDBWait, .doLogic (fun _ => ⟨0, [], [], 0, 0⟩) zeroedDeal 0,
    .request 6 (.login [67] [68] 0) ⟨0, 0, true⟩, .runTakeAll,
    .runExecute fun _ => ⟨⟨true, ⟨true, true, true⟩, true, none⟩,
      ⟨true, ⟨true, true, true⟩, true, none⟩, 0⟩,
    .getFinishDBWait, .doLogic (fun _ => ⟨0, [], [], 0, 0⟩) zeroedDeal 0]

/-- The connection is lost between two logins. -/
theorem lost_for_good_two_logins :
    ∃ h s k t, ConnectedRun ⟨true, true, true⟩ h s ∧ inputs h = losingCalls ∧
      Runs ConnectedWork.step s k t ∧ inputs k = laterCalls ∧
      t.connect.db.con = none ∧ t.work.vecServerList = s.work.vecServerList ∧
      (∀ call, ConnectedEffect.call call ∉ outputs k) ∧
      ∀ pNode node sends, .work (.doLogic pNode node sends) ∈ outputs k →
        s.work.nodes.length ≤ pNode → ∃ session answer,
          sends = [(session, answer)] ∧ ReportsFailure (sentFrame answer) := by
  obtain ⟨h, s, hrun, hin, hlost, hmore⟩ : ∃ h s, ConnectedRun ⟨true, true, true⟩ h s ∧
      inputs h = losingCalls ∧ s.connect.db.con = none ∧
      (exec ConnectedWork.step s laterCalls).isSome = true :=
    ⟨_, _, ((Runs.start.next rfl).next rfl).next rfl, rfl, rfl, rfl⟩
  obtain ⟨k, t, hafter, hin'⟩ := exists_runs_of_exec hmore
  exact ⟨h, s, k, t, hrun, hin, hafter, hin', lost_for_good hrun hlost hafter⟩

end ShootGame.Analysis
