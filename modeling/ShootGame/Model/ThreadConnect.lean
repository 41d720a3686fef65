import ShootGame.Model.DBConnect
import ShootGame.Model.SqlWork

/-!
# Nodes on the connection of the database thread

`DoDBSql` of the two nodes, with the connection `m_dbSqlThreadConnect` that the database
thread passes to it.  The functions are those of the nodes' own modules; here each of
their statements goes through `loadtabledata`, and the calls of the MySQL library are
listed, those on result sets too.  Every result set that `mysql_store_result` returns has
a number of its own.

The handle `tmpcon` is fetched once, before the statement is run.
-/

set_option autoImplicit false

namespace ShootGame.Model

open ShootGame.Library

/-- A call that a node makes, by itself or through the connection. -/
inductive NodeCall where
  | connect (call : MysqlCall)
  /-- `mysql_store_result` has returned this result set. -/
  | stored (res : ℕ)
  | fetchRow (res : ℕ)
  | fieldCount (tmpcon : Option ℕ)
  | freeResult (res : ℕ)
deriving DecidableEq, Repr

/-- The connection of the database thread.  `results` is history: how many result sets
there have been. -/
structure ThreadConnect where
  db : DBConnect
  results : ℕ

namespace ThreadConnect

/-- `GetInstance` of `DBSqlThread`: the connection is made once. -/
def start (answers : ConnectAnswers) : ThreadConnect where
  db := (DBConnect.new.init (ascii "127.0.0.1") (ascii "daypet") answers).db
  results := 0

/-- What the three queries have in common: `GetConn`, a `DBresultSet`, `loadtabledata`, the
test of what it returns, and the end of the result set.  `rows` is what the query does with
the rows; it is given `tmpcon` and `mres`. -/
def query {α : Type} (sql : List UInt8) (answers : LoadAnswers) (noConn failed : α)
    (rows : Option ℕ → Option (ℕ × ResultSet) → α × List NodeCall) (connect : ThreadConnect) :
    α × ThreadConnect × List NodeCall :=
  let tmpcon := connect.db.con
  if tmpcon = none then (noConn, connect, [])
  else
    let loaded := connect.db.loadtabledata (some sql) answers
    let calls := loaded.calls.map NodeCall.connect
    match loaded.result with
    | none => (failed, ⟨loaded.db, connect.results⟩, calls)
    | some (iret, none) =>
      let r := if iret ≤ 0 then (failed, []) else rows tmpcon none
      (r.1, ⟨loaded.db, connect.results⟩, calls ++ r.2)
    | some (iret, some mres) =>
      let res := connect.results
      let r := if iret ≤ 0 then (failed, []) else rows tmpcon (some (res, mres))
      (r.1, ⟨loaded.db, connect.results + 1⟩, calls ++ [.stored res] ++ r.2 ++ [.freeResult res])

/-- What `CheckAndInsertAccountAndPasswd` does with the rows. -/
def addAccountRows (junk : Int) : Option (ℕ × ResultSet) → Int × List NodeCall
  | none => (-6, [])
  | some (res, ⟨[], _⟩) => (-6, [.fetchRow res])
  | some (res, ⟨row :: _, _⟩) =>
    let iAccountID := (row 0).elim junk atoi
    let iIsNew := (row 1).elim junk atoi
    (if iIsNew ≠ 0 then iAccountID else -4, [.fetchRow res])

/-- `CheckAndInsertAccountAndPasswd`. -/
def checkAndInsertAccountAndPasswd (answers : LoadAnswers) (junk : Int)
    (strAccount strPassword : List UInt8) (connect : ThreadConnect) :
    Int × ThreadConnect × List NodeCall :=
  if strAccount.length > 20 then (-1, connect, [])
  else
    connect.query (cString (CRegisterWaitNode.addAccountSql strAccount strPassword)) answers (-2)
      (-3) fun _ => addAccountRows junk

/-- What `CheckLoginData` does with the rows. -/
def checkLoginRows (tmpcon : Option ℕ) : Option (ℕ × ResultSet) → Bool × List NodeCall
  | none => (false, [])
  | some (res, ⟨[], _⟩) => (false, [.fetchRow res])
  | some (res, ⟨_ :: _, fieldCount⟩) =>
    (toInt fieldCount.toNat = 1, [.fetchRow res, .fieldCount tmpcon])

/-- `CheckLoginData`. -/
def checkLoginData (answers : LoadAnswers) (strAccount strPassword : List UInt8)
    (connect : ThreadConnect) : Bool × ThreadConnect × List NodeCall :=
  connect.query (cString (CLoginWaitNode.checkLoginSql strAccount strPassword)) answers false false
    checkLoginRows

/-- The calls of the `while` loop of `GetAllPerganaFromSql`. -/
def fetchCalls (res : ℕ) (tmpcon : Option ℕ) (fieldCount : UInt32) : List MysqlRow → List NodeCall
  | [] => [.fetchRow res]
  | _ :: rows =>
    if toInt fieldCount.toNat ≤ 0 then [.fetchRow res, .fieldCount tmpcon]
    else [.fetchRow res, .fieldCount tmpcon] ++ fetchCalls res tmpcon fieldCount rows

/-- What `GetAllPerganaFromSql` does with the rows. -/
def serverRows (junk : Int) (vecServerList : List ServerData) (tmpcon : Option ℕ) :
    Option (ℕ × ResultSet) → (Cell Int × List ServerData) × List NodeCall
  | none => ((.unset junk, vecServerList), [])
  | some (res, mres) =>
    (CLoginWaitNode.fetchLoop mres.fieldCount mres.rows (.unset junk) vecServerList,
      fetchCalls res tmpcon mres.fieldCount mres.rows)

/-- `GetAllPerganaFromSql`: what it returns, and `g_vecServerList` after it. -/
def getAllPerganaFromSql (answers : LoadAnswers) (junk : Int) (vecServerList : List ServerData)
    (connect : ThreadConnect) : (Cell Int × List ServerData) × ThreadConnect × List NodeCall :=
  connect.query (cString CLoginWaitNode.serverListSql) answers (.assigned 0, vecServerList)
    (.assigned 0, vecServerList) (serverRows junk vecServerList)

end ThreadConnect

/-- What the MySQL calls answer to the first and to the second statement of a node. -/
structure NodeAnswers where
  first : LoadAnswers
  second : LoadAnswers
  junk : Int

/-- A node and `g_vecServerList` after `DoDBSql`, and the calls it made. -/
structure DoneSql where
  node : WaitNode
  vecServerList : List ServerData
  connect : ThreadConnect
  calls : List NodeCall

/-- The virtual `DoDBSql`, with the connection it is given. -/
def WaitNode.doDBSqlOn (answers : NodeAnswers) (vecServerList : List ServerData)
    (connect : ThreadConnect) : WaitNode → DoneSql
  | register node =>
    let inserted := connect.checkAndInsertAccountAndPasswd answers.first answers.junk
      node.strAccount node.strPassword
    { node := .register { node with outdata := .assigned inserted.1 }
      vecServerList := vecServerList
      connect := inserted.2.1
      calls := inserted.2.2 }
  | login node =>
    let checked := connect.checkLoginData answers.first node.strAccount node.strPassword
    let listed := checked.2.1.getAllPerganaFromSql answers.second answers.junk vecServerList
    { node := .login { node with
        checkisOK := .assigned checked.1, servercount := listed.1.1.map UInt32.ofInt }
      vecServerList := listed.1.2
      connect := listed.2.1
      calls := checked.2.2 ++ listed.2.2 }

/-! ## The worker alone -/

/-- The database thread between two nodes. -/
structure Worker where
  connect : ThreadConnect
  vecServerList : List ServerData

/-- `DoDBSql` on a node. -/
structure NodeExecution where
  node : WaitNode
  answers : NodeAnswers

namespace Worker

def start (answers : ConnectAnswers) : Worker where
  connect := ThreadConnect.start answers
  vecServerList := []

def step (worker : Worker) (e : NodeExecution) : Option (Worker × List NodeCall) :=
  let done := e.node.doDBSqlOn e.answers worker.vecServerList worker.connect
  some (⟨done.connect, done.vecServerList⟩, done.calls)

end Worker

/-- A run of the worker over its nodes. -/
abbrev WorkerRun (answers : ConnectAnswers) (h : List (NodeExecution × List NodeCall))
    (worker : Worker) : Prop :=
  Runs Worker.step (Worker.start answers) h worker

/-! ## The worker between its queues -/

/-- The nodes on their way, with the connection of the worker. -/
structure ConnectedWork where
  work : SqlWork
  connect : ThreadConnect

inductive ConnectedCall where
  | request (iSessionID : Int) (request : NodeRequest) (junk : NodeJunk)
  | runTakeAll
  /-- What the MySQL calls of each node of the batch answer. -/
  | runExecute (answers : ℕ → NodeAnswers)
  | getFinishDBWait
  | doLogic (outside : ℕ → ServerData) (junk : DealJunk) (now : Int64)

inductive ConnectedEffect where
  | work (effect : SqlWorkEffect)
  | call (call : NodeCall)

namespace ConnectedWork

def start (answers : ConnectAnswers) : ConnectedWork where
  work := SqlWork.start
  connect := ThreadConnect.start answers

/-- One round of the loop of `run`. -/
def executeOne (answers : ℕ → NodeAnswers) (pNode : ℕ) (s : ConnectedWork) :
    ConnectedWork × List NodeCall :=
  match s.work.nodes[pNode]? with
  | none => (s, [])
  | some node =>
    let done := node.doDBSqlOn (answers pNode) s.work.vecServerList s.connect
    ({ work := { s.work with
        nodes := s.work.nodes.set pNode done.node, vecServerList := done.vecServerList }
       connect := done.connect },
      done.calls)

/-- The loop of `run` over the rest of `tmp`. -/
def executeAll (answers : ℕ → NodeAnswers) : List ℕ → ConnectedWork →
    ConnectedWork × List NodeCall
  | [], s => (s, [])
  | pNode :: tmp, s =>
    let one := s.executeOne answers pNode
    let rest := executeAll answers tmp one.1
    (rest.1, one.2 ++ rest.2)

/-- A step that does not use the connection. -/
def besides (s : ConnectedWork) (call : SqlWorkCall) :
    Option (ConnectedWork × List ConnectedEffect) :=
  (s.work.step call).map fun r => (⟨r.1, s.connect⟩, r.2.map .work)

def step (s : ConnectedWork) : ConnectedCall → Option (ConnectedWork × List ConnectedEffect)
  | .request iSessionID request junk => s.besides (.request iSessionID request junk)
  | .runTakeAll => s.besides .runTakeAll
  | .runExecute answers =>
    match s.work.thread.worker with
    | .takeAll => none
    | .execute tmp =>
      let thread := { s.work.thread with
        vecWriteFinish := s.work.thread.vecWriteFinish ++ tmp, worker := .takeAll }
      let r := executeAll answers tmp { s with work := { s.work with thread := thread } }
      some (r.1, r.2.map .call)
  | .getFinishDBWait => s.besides .getFinishDBWait
  | .doLogic outside junk now => s.besides (.doLogic outside junk now)

end ConnectedWork

/-- A run of the nodes from the connection on. -/
abbrev ConnectedRun (answers : ConnectAnswers)
    (h : List (ConnectedCall × List ConnectedEffect)) (s : ConnectedWork) : Prop :=
  Runs ConnectedWork.step (ConnectedWork.start answers) h s

end ShootGame.Model
