import ShootGame.Model.DBSqlThread
import ShootGame.Model.RegisterNode

/-!
# Nodes on their way through the database thread

The objects behind the pointers that the database thread hands on, and `DealSqlMsg` of
`MsgLogic.cpp`, which runs `DoLogic` on the finished ones.  A node is built by its
constructor for the request of a session and is known by the number of its construction.

The main thread fetches the finished nodes under the lock and visits them without it, so
sections of the worker come between two of its steps.  `DealMsg` has the constructor calls
in comments; here a request may be any, of any session.
-/

set_option autoImplicit false

namespace ShootGame.Model

open ShootGame.Library

/-- The arguments of a constructor. -/
inductive NodeRequest where
  | register (strAccount strPassword : List UInt8)
  | login (strAccount strPassword : List UInt8) (dwDynamicCode : UInt32)
deriving DecidableEq, Repr

/-- What the storage of a new node holds. -/
structure NodeJunk where
  field : UInt32
  outdata : Int
  checkisOK : Bool
deriving DecidableEq, Repr

/-- `CWaitNode`, of one of its two subclasses. -/
inductive WaitNode where
  | register (node : CRegisterWaitNode)
  | login (node : CLoginWaitNode)
deriving DecidableEq, Repr

namespace WaitNode

def new (junk : NodeJunk) : NodeRequest → WaitNode
  | .register strAccount strPassword =>
    .register (CRegisterWaitNode.new strAccount strPassword junk.field junk.outdata)
  | .login strAccount strPassword dwDynamicCode =>
    .login (CLoginWaitNode.new strAccount strPassword dwDynamicCode junk.field junk.checkisOK)

/-- `CWaitNode::m_dwSessionID`. -/
def dwSessionID : WaitNode → Cell UInt32
  | register node => node.dwSessionID
  | login node => node.dwSessionID

/-- The virtual `DoDBSql`: the node, and `g_vecServerList` after it. -/
def doDBSql (database : List UInt8 → DBAnswer) (junk : Int) (vecServerList : List ServerData) :
    WaitNode → WaitNode × List ServerData
  | register node => (.register (node.doDBSql database junk), vecServerList)
  | login node =>
    let r := node.doDBSql database junk vecServerList
    (.login r.1, r.2)

/-- The virtual `DoLogic`: the store after it, and the arguments of its calls of
`SendMsgBySessionID`. -/
def doLogic (outside : ℕ → ServerData) (junk : DealJunk) (now : Int64)
    (vecServerList : List ServerData) (db : DBMS) : WaitNode → DBMS × List (Int × HMessage)
  | register node => (db, node.doLogic junk)
  | login node => node.doLogic outside junk now vecServerList db

end WaitNode

/-- The database thread with its nodes, and the main thread in `DealSqlMsg`. -/
structure SqlWork where
  thread : DBSqlThread ℕ
  /-- The objects, in the order of their construction. -/
  nodes : List WaitNode
  /-- `m_vecAllFinishWaitNode`, from the position of the loop of `DealSqlMsg` on. -/
  vecAllFinishWaitNode : List ℕ
  vecServerList : List ServerData
  dbms : DBMS

inductive SqlWorkCall where
  /-- The main thread builds a node for the request of a session and submits it. -/
  | request (iSessionID : Int) (request : NodeRequest) (junk : NodeJunk)
  | runTakeAll
  /-- What the database answers each node of the batch. -/
  | runExecute (database : ℕ → List UInt8 → DBAnswer) (junk : ℕ → Int)
  | getFinishDBWait
  /-- One round of the loop of `DealSqlMsg`. -/
  | doLogic (outside : ℕ → ServerData) (junk : DealJunk) (now : Int64)

inductive SqlWorkEffect where
  /-- The node was built for the session. -/
  | created (pNode : ℕ) (iSessionID : Int)
  /-- `DoLogic` ran on the node, which was as given, and sent what is given. -/
  | doLogic (pNode : ℕ) (node : WaitNode) (sends : List (Int × HMessage))

namespace SqlWork

/-- The program before its first node. -/
def start : SqlWork where
  thread := DBSqlThread.start
  nodes := []
  vecAllFinishWaitNode := []
  vecServerList := []
  dbms := DBMS.empty

/-- What an effect of the database thread does to the objects. -/
def perform (database : ℕ → List UInt8 → DBAnswer) (junk : ℕ → Int) (work : SqlWork) :
    DBSqlEffect ℕ → SqlWork
  | .submitted _ => work
  | .doDBSql pNode =>
    match work.nodes[pNode]? with
    | none => work
    | some node =>
      let r := node.doDBSql (database pNode) (junk pNode) work.vecServerList
      { work with nodes := work.nodes.set pNode r.1, vecServerList := r.2 }
  | .delivered pNode =>
    { work with vecAllFinishWaitNode := work.vecAllFinishWaitNode ++ [pNode] }

/-- A call of the database thread, with its effects one after the other. -/
def callThread (database : ℕ → List UInt8 → DBAnswer) (junk : ℕ → Int) (call : DBSqlCall ℕ)
    (work : SqlWork) : Option SqlWork :=
  (work.thread.step call).map fun r =>
    r.2.foldl (perform database junk) { work with thread := r.1 }

/-- The calls of the thread that query no database. -/
def callThreadOnly : DBSqlCall ℕ → SqlWork → Option SqlWork :=
  callThread (fun _ _ => ⟨false, 0, none⟩) fun _ => 0

/-- The calls of the main thread, apart from `DoLogic`, come when the loop of `DealSqlMsg`
is done. -/
def step (work : SqlWork) : SqlWorkCall → Option (SqlWork × List SqlWorkEffect)
  | .request iSessionID request junk =>
    if work.vecAllFinishWaitNode = [] then
      let pNode := work.nodes.length
      (callThreadOnly (.addWaitNode pNode)
        { work with nodes := work.nodes ++ [WaitNode.new junk request] }).map fun work =>
          (work, [.created pNode iSessionID])
    else none
  | .runTakeAll => (callThreadOnly .runTakeAll work).map fun work => (work, [])
  | .runExecute database junk =>
    (callThread database junk .runExecute work).map fun work => (work, [])
  | .getFinishDBWait =>
    if work.vecAllFinishWaitNode = [] then
      (callThreadOnly .getFinishDBWait work).map fun work => (work, [])
    else none
  | .doLogic outside junk now =>
    match work.vecAllFinishWaitNode with
    | [] => none
    | pNode :: rest =>
      match work.nodes[pNode]? with
      | none => none
      | some node =>
        let r := node.doLogic outside junk now work.vecServerList work.dbms
        some ({ work with vecAllFinishWaitNode := rest, dbms := r.1 },
          [.doLogic pNode node r.2])

end SqlWork

/-- A run of the nodes from the start of the program. -/
abbrev SqlWorkRun (h : List (SqlWorkCall × List SqlWorkEffect)) (work : SqlWork) : Prop :=
  Runs SqlWork.step SqlWork.start h work

end ShootGame.Model
