import ShootGame.Analysis.AnswerAddressing
import ShootGame.Analysis.Connection
import ShootGame.Library.Refinement
import ShootGame.Model.ThreadConnect

/-!
# Nodes on a connection and nodes before a database

The nodes' own modules take what the database answers to a statement as given.  On the
connection of the worker the answer depends on what became of the connection: the ping,
the reconnection, the statement itself and the result may each go wrong.  For one node all
this comes to one function from statements to answers (`databaseOf`), so a run on the
connection is a run of the abstract nodes.
-/

set_option autoImplicit false

namespace ShootGame.Analysis

open ShootGame.Library ShootGame.Model

/-! ## What a statement is answered -/

/-- What a query sees of the connection around its statement. -/
def answerOn (db : DBConnect) (sql : List UInt8) (answers : LoadAnswers) : DBAnswer where
  conn := db.con.isSome
  iret := ((db.loadtabledata (some sql) answers).result.elim (-1) Prod.fst)
  mres := (db.loadtabledata (some sql) answers).result.bind Prod.snd

/-- What becomes of the connection does not depend on the statement. -/
theorem load_db_congr (db : DBConnect) (sql sql' : Option (List UInt8)) (answers : LoadAnswers) :
    (db.loadtabledata sql answers).db = (db.loadtabledata sql' answers).db := by
  by_cases hcon : db.con = none
  · simp [DBConnect.loadtabledata, hcon]
  · rw [load_db hcon, load_db hcon]

/-- A statement always comes to a result. -/
theorem load_result_ne_none (db : DBConnect) (sql : List UInt8) (answers : LoadAnswers) :
    (db.loadtabledata (some sql) answers).result ≠ none := by
  unfold DBConnect.loadtabledata
  split
  · simp
  · dsimp only
    split <;> simp

section Query

variable {α : Type} (sql : List UInt8) (answers : LoadAnswers) (noConn failed : α)
  (rows : Option ℕ → Option (ℕ × ResultSet) → α × List NodeCall) (connect : ThreadConnect)

/-- A query computes from the answer that it sees. -/
theorem query_fst :
    (connect.query sql answers noConn failed rows).1 =
      if (answerOn connect.db sql answers).conn = false then noConn
      else if (answerOn connect.db sql answers).iret ≤ 0 then failed
      else (rows connect.db.con
        ((answerOn connect.db sql answers).mres.map fun mres => (connect.results, mres))).1 := by
  cases hcon : connect.db.con with
  | none => simp [ThreadConnect.query, answerOn, hcon]
  | some k =>
    obtain ⟨⟨iret, mres⟩, hresult⟩ :=
      Option.ne_none_iff_exists'.mp (load_result_ne_none connect.db sql answers)
    cases mres with
    | none =>
      by_cases hiret : iret ≤ 0 <;> simp [ThreadConnect.query, answerOn, hcon, hresult, hiret]
    | some mres =>
      by_cases hiret : iret ≤ 0 <;> simp [ThreadConnect.query, answerOn, hcon, hresult, hiret]

/-- The connection after a query is the one after its statement. -/
theorem query_db :
    (connect.query sql answers noConn failed rows).2.1.db =
      (connect.db.loadtabledata (some sql) answers).db := by
  cases hcon : connect.db.con with
  | none => simp [ThreadConnect.query, DBConnect.loadtabledata, hcon]
  | some k =>
    obtain ⟨⟨iret, mres⟩, hresult⟩ :=
      Option.ne_none_iff_exists'.mp (load_result_ne_none connect.db sql answers)
    cases mres <;> simp [ThreadConnect.query, hcon, hresult]

end Query

/-! ## One node -/

/-- A C string that begins with text begins with that text. -/
theorem cString_append {u : List UInt8} (h : 0 ∉ u) (v : List UInt8) :
    cString (u ++ v) = u ++ cString v := by
  unfold cString
  apply List.takeWhile_append_of_pos
  intro b hb
  have hne : b ≠ 0 := fun hzero => h (hzero ▸ hb)
  simpa using hne

/-- A statement of another beginning is not the one that asks for the server list. -/
theorem ne_serverListSql {u : List UInt8} (h : 0 ∉ u) (v : List UInt8)
    (hne : (cString CLoginWaitNode.serverListSql).take u.length ≠ u) :
    cString (u ++ v) ≠ cString CLoginWaitNode.serverListSql := by
  intro heq
  apply hne
  rw [← heq, cString_append h, List.take_left]

/-- The check of a login is another statement than the server-list query. -/
theorem checkLoginSql_ne (strAccount strPassword : List UInt8) :
    cString (CLoginWaitNode.checkLoginSql strAccount strPassword) ≠
      cString CLoginWaitNode.serverListSql := by
  unfold CLoginWaitNode.checkLoginSql
  simp only [List.append_assoc]
  exact ne_serverListSql (by decide) _ (by decide)

/-- So is the insertion of an account. -/
theorem addAccountSql_ne (strAccount strPassword : List UInt8) :
    cString (CRegisterWaitNode.addAccountSql strAccount strPassword) ≠
      cString CLoginWaitNode.serverListSql := by
  unfold CRegisterWaitNode.addAccountSql
  simp only [List.append_assoc]
  exact ne_serverListSql (by decide) _ (by decide)

/-- The answers that a node sees on the connection `db`: the server list is asked for when
the other statement is done. -/
def databaseOf (answers : NodeAnswers) (db : DBConnect) (sql : List UInt8) : DBAnswer :=
  if sql = cString CLoginWaitNode.serverListSql then
    answerOn (db.loadtabledata (some []) answers.first).db sql answers.second
  else answerOn db sql answers.first

/-- The insertion on the connection comes to what it does on a database that answers so. -/
theorem checkAndInsert_fst (answers : LoadAnswers) (junk : Int)
    (strAccount strPassword : List UInt8) (connect : ThreadConnect)
    {database : List UInt8 → DBAnswer}
    (hdatabase : database (cString (CRegisterWaitNode.addAccountSql strAccount strPassword)) =
      answerOn connect.db (cString (CRegisterWaitNode.addAccountSql strAccount strPassword))
        answers) :
    (connect.checkAndInsertAccountAndPasswd answers junk strAccount strPassword).1 =
      CRegisterWaitNode.checkAndInsertAccountAndPasswd database junk strAccount strPassword := by
  unfold ThreadConnect.checkAndInsertAccountAndPasswd
    CRegisterWaitNode.checkAndInsertAccountAndPasswd
  split_ifs with hlong
  · rfl
  · rw [query_fst, hdatabase]
    generalize answerOn connect.db _ answers = answer
    obtain ⟨conn, iret, mres⟩ := answer
    dsimp only
    split_ifs
    · rfl
    · rfl
    · rcases mres with _ | ⟨_ | ⟨row, rows⟩, fieldCount⟩ <;> rfl

/-- The check of a login on the connection, likewise. -/
theorem checkLoginData_fst (answers : LoadAnswers) (strAccount strPassword : List UInt8)
    (connect : ThreadConnect) {database : List UInt8 → DBAnswer}
    (hdatabase : database (cString (CLoginWaitNode.checkLoginSql strAccount strPassword)) =
      answerOn connect.db (cString (CLoginWaitNode.checkLoginSql strAccount strPassword))
        answers) :
    (connect.checkLoginData answers strAccount strPassword).1 =
      CLoginWaitNode.checkLoginData database strAccount strPassword := by
  unfold ThreadConnect.checkLoginData CLoginWaitNode.checkLoginData
  rw [query_fst, hdatabase]
  generalize answerOn connect.db _ answers = answer
  obtain ⟨conn, iret, mres⟩ := answer
  dsimp only
  split_ifs
  · rfl
  · rfl
  · rcases mres with _ | ⟨_ | ⟨row, rows⟩, fieldCount⟩ <;>
      simp only [Option.map_none, Option.map_some, ThreadConnect.checkLoginRows]

/-- The query of the server list on the connection, likewise. -/
theorem getAllPerganaFromSql_fst (answers : LoadAnswers) (junk : Int)
    (vecServerList : List ServerData) (connect : ThreadConnect)
    {database : List UInt8 → DBAnswer}
    (hdatabase : database (cString CLoginWaitNode.serverListSql) =
      answerOn connect.db (cString CLoginWaitNode.serverListSql) answers) :
    (connect.getAllPerganaFromSql answers junk vecServerList).1 =
      CLoginWaitNode.getAllPerganaFromSql database junk vecServerList := by
  unfold ThreadConnect.getAllPerganaFromSql CLoginWaitNode.getAllPerganaFromSql
  rw [query_fst, hdatabase]
  generalize answerOn connect.db _ answers = answer
  obtain ⟨conn, iret, mres⟩ := answer
  dsimp only
  split_ifs
  · rfl
  · rfl
  · cases mres <;> rfl

/-- `DoDBSql` on the connection computes what the node computes from these answers. -/
theorem doDBSqlOn_eq (answers : NodeAnswers) (vecServerList : List ServerData)
    (connect : ThreadConnect) (node : WaitNode) :
    ((node.doDBSqlOn answers vecServerList connect).node,
        (node.doDBSqlOn answers vecServerList connect).vecServerList) =
      node.doDBSql (databaseOf answers connect.db) answers.junk vecServerList := by
  cases node with
  | register node =>
    simp only [WaitNode.doDBSqlOn, WaitNode.doDBSql, CRegisterWaitNode.doDBSql]
    rw [checkAndInsert_fst answers.first answers.junk node.strAccount node.strPassword connect]
    rw [databaseOf, if_neg (addAccountSql_ne _ _)]
  | login node =>
    have hfirst : databaseOf answers connect.db
        (cString (CLoginWaitNode.checkLoginSql node.strAccount node.strPassword)) =
        answerOn connect.db
          (cString (CLoginWaitNode.checkLoginSql node.strAccount node.strPassword))
          answers.first := by
      rw [databaseOf, if_neg (checkLoginSql_ne _ _)]
    have hsecond : databaseOf answers connect.db (cString CLoginWaitNode.serverListSql) =
        answerOn
          (connect.checkLoginData answers.first node.strAccount node.strPassword).2.1.db
          (cString CLoginWaitNode.serverListSql) answers.second := by
      rw [databaseOf, if_pos rfl, ThreadConnect.checkLoginData, query_db]
      rw [load_db_congr _ (some []) (some (cString
        (CLoginWaitNode.checkLoginSql node.strAccount node.strPassword)))]
    have hchecked := checkLoginData_fst answers.first node.strAccount node.strPassword connect
      hfirst
    have hlisted := getAllPerganaFromSql_fst answers.second answers.junk vecServerList _ hsecond
    simp only [WaitNode.doDBSqlOn, WaitNode.doDBSql, CLoginWaitNode.doDBSql, hchecked, hlisted]

/-! ## Runs -/

/-- The effects that can be seen without the connection. -/
def workEffect : ConnectedEffect → Option SqlWorkEffect
  | .work effect => some effect
  | .call _ => none

/-- A call and what it is for nodes before a database: each node of a batch has answers of
its own, which come from some connection. -/
inductive Abstracts : ConnectedCall → SqlWorkCall → Prop
  | request (iSessionID : Int) (request : NodeRequest) (junk : NodeJunk) :
      Abstracts (.request iSessionID request junk) (.request iSessionID request junk)
  | runTakeAll : Abstracts .runTakeAll .runTakeAll
  | runExecute (answers : ℕ → NodeAnswers) (connection : ℕ → DBConnect) :
      Abstracts (.runExecute answers)
        (.runExecute (fun pNode => databaseOf (answers pNode) (connection pNode))
          fun pNode => (answers pNode).junk)
  | getFinishDBWait : Abstracts .getFinishDBWait .getFinishDBWait
  | doLogic (outside : ℕ → ServerData) (junk : DealJunk) (now : Int64) :
      Abstracts (.doLogic outside junk now) (.doLogic outside junk now)

/-- The effects of the nodes are seen. -/
theorem filterMap_work (o : List SqlWorkEffect) :
    (o.map ConnectedEffect.work).filterMap workEffect = o := by
  induction o with
  | nil => rfl
  | cons effect o ih => simpa [workEffect] using ih

/-- The calls of the library are not. -/
theorem filterMap_call (calls : List NodeCall) :
    (calls.map ConnectedEffect.call).filterMap workEffect = [] := by
  simp [workEffect]

/-- A step that executes no batch is one of the nodes, and leaves the connection. -/
theorem besides_eq {s t : ConnectedWork} {call : SqlWorkCall} {o : List ConnectedEffect}
    (h : s.besides call = some (t, o)) :
    ∃ out, s.work.step call = some (t.work, out) ∧ t.connect = s.connect ∧
      o = out.map ConnectedEffect.work := by
  simp only [ConnectedWork.besides, Option.map_eq_some_iff, Prod.mk.injEq] at h
  obtain ⟨⟨work, out⟩, hstep, rfl, rfl⟩ := h
  exact ⟨out, hstep, rfl, rfl⟩

/-- A node on the connection is executed as on a database that answers so. -/
theorem executeOne_work (answers : ℕ → NodeAnswers) (connection : ℕ → DBConnect) (pNode : ℕ)
    (s : ConnectedWork) (hconnection : connection pNode = s.connect.db) :
    (s.executeOne answers pNode).1.work =
      executeNode (fun pNode => databaseOf (answers pNode) (connection pNode))
        (fun pNode => (answers pNode).junk) s.work pNode := by
  unfold ConnectedWork.executeOne executeNode
  cases s.work.nodes[pNode]? with
  | none => rfl
  | some node =>
    have hdone := doDBSqlOn_eq (answers pNode) s.work.vecServerList s.connect node
    dsimp only
    rw [hconnection, ← hdone]

/-- The nodes of a batch are executed with the connection that the node before them has
left, each once.  By induction on the batch. -/
theorem executeAll_work (answers : ℕ → NodeAnswers) {tmp : List ℕ} (hdistinct : tmp.Nodup)
    (s : ConnectedWork) :
    ∃ connection : ℕ → DBConnect, (ConnectedWork.executeAll answers tmp s).1.work =
      tmp.foldl (executeNode (fun pNode => databaseOf (answers pNode) (connection pNode))
        fun pNode => (answers pNode).junk) s.work := by
  induction tmp generalizing s with
  | nil => exact ⟨fun _ => s.connect.db, rfl⟩
  | cons pNode tmp ih =>
    obtain ⟨hnew, hdistinct⟩ := List.nodup_cons.mp hdistinct
    obtain ⟨connection, hrest⟩ := ih hdistinct (s.executeOne answers pNode).1
    refine ⟨Function.update connection pNode s.connect.db, ?_⟩
    unfold ConnectedWork.executeAll
    rw [List.foldl_cons, ← executeOne_work answers _ pNode s (Function.update_self ..), hrest]
    apply List.foldl_ext
    intro work q hq
    have hne : q ≠ pNode := fun heq => hnew (heq ▸ hq)
    unfold executeNode
    dsimp only
    rw [Function.update_of_ne hne]

/-- The worker executes its batch node by node. -/
theorem step_runExecute {work : SqlWork} {tmp : List ℕ}
    (hworker : work.thread.worker = .execute tmp) (database : ℕ → List UInt8 → DBAnswer)
    (junk : ℕ → Int) :
    work.step (.runExecute database junk) =
      some (tmp.foldl (executeNode database junk)
        { work with thread := { work.thread with
          vecWriteFinish := work.thread.vecWriteFinish ++ tmp, worker := .takeAll } }, []) := by
  rw [← foldl_doDBSql]
  simp [SqlWork.step, SqlWork.callThread, DBSqlThread.step, hworker, executeLoop_eq]

/-- The batch of the worker never has a node twice. -/
theorem batch_nodup {h : List (SqlWorkCall × List SqlWorkEffect)} {work : SqlWork}
    (hrun : SqlWorkRun h work) : work.thread.batch.Nodup := by
  have hdistinct := List.nodup_range (n := work.nodes.length)
  rw [← visited_eq_range hrun, pending, inPipeline] at hdistinct
  simp only [List.nodup_append'] at hdistinct
  exact hdistinct.2.1.2.1.1.2.1

/-- Whatever the connection goes through in a run, what it does to the nodes, to the global
list and to the store, and what is sent, is a run of the nodes before databases. -/
theorem connected_refines {answers : ConnectAnswers}
    {h : List (ConnectedCall × List ConnectedEffect)} {s : ConnectedWork}
    (hrun : ConnectedRun answers h s) :
    ∃ h', SqlWorkRun h' s.work ∧ outputs h' = (outputs h).filterMap workEffect ∧
      List.Forall₂ Abstracts (inputs h) (inputs h') := by
  apply hrun.refined ConnectedWork.work workEffect Abstracts
  intro h h' u v call o _ hwork hstep
  cases call with
  | request iSessionID request junk =>
    obtain ⟨out, hout, -, rfl⟩ := besides_eq hstep
    exact ⟨_, .request .., by rw [filterMap_work, hout]⟩
  | runTakeAll =>
    obtain ⟨out, hout, -, rfl⟩ := besides_eq hstep
    exact ⟨_, .runTakeAll, by rw [filterMap_work, hout]⟩
  | runExecute answers =>
    unfold ConnectedWork.step at hstep
    cases hworker : u.work.thread.worker with
    | takeAll => simp [hworker] at hstep
    | execute tmp =>
      simp only [hworker, Option.some.injEq, Prod.mk.injEq] at hstep
      obtain ⟨rfl, rfl⟩ := hstep
      have hdistinct : tmp.Nodup := by
        have hbatch := batch_nodup hwork
        rwa [DBSqlThread.batch, hworker] at hbatch
      obtain ⟨connection, hall⟩ := executeAll_work answers hdistinct { u with work :=
        { u.work with thread := { u.work.thread with
          vecWriteFinish := u.work.thread.vecWriteFinish ++ tmp, worker := .takeAll } } }
      refine ⟨_, .runExecute answers connection, ?_⟩
      rw [filterMap_call, hall]
      exact step_runExecute hworker _ _
  | getFinishDBWait =>
    obtain ⟨out, hout, -, rfl⟩ := besides_eq hstep
    exact ⟨_, .getFinishDBWait, by rw [filterMap_work, hout]⟩
  | doLogic outside junk now =>
    obtain ⟨out, hout, -, rfl⟩ := besides_eq hstep
    exact ⟨_, .doLogic .., by rw [filterMap_work, hout]⟩

/-- A connection that is lost at the first statement of a login. -/
def losingAnswers : NodeAnswers where
  first := ⟨false, ⟨true, false, true⟩, true, none⟩
  second := ⟨true, ⟨true, true, true⟩, true, none⟩
  junk := 0

/-- A login is executed while the connection is lost. -/
def losingCalls : List ConnectedCall :=
  [.request 5 (.login [65] [66] 0) ⟨0, 0, true⟩, .runTakeAll, .runExecute fun _ => losingAnswers]

/-- A run in which the connection is lost. -/
theorem connected_refines_losing :
    ∃ h s h', ConnectedRun ⟨true, true, true⟩ h s ∧ inputs h = losingCalls ∧
      SqlWorkRun h' s.work ∧ outputs h' = (outputs h).filterMap workEffect ∧
      List.Forall₂ Abstracts (inputs h) (inputs h') := by
  have hexec : (exec ConnectedWork.step (ConnectedWork.start ⟨true, true, true⟩)
      losingCalls).isSome = true := rfl
  obtain ⟨h, s, hrun, hin⟩ := exists_runs_of_exec hexec
  obtain ⟨h', hrefines⟩ := connected_refines hrun
  exact ⟨h, s, h', hrun, hin, hrefines⟩

end ShootGame.Analysis
