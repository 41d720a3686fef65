import ShootGame.Library.Machine

/-!
# The database thread

`DBSqlThread` of `DBSqlThread.h` and `DBSqlThread.cpp`: nodes of work are submitted by
the main thread, executed in batches by the worker and fetched again by the main
thread.  Every section under a lock is one step, and the steps interleave in any
order; between its two sections the worker holds the batch it has taken in `tmp`.

A node is known by its pointer, so the type of nodes is left open: what `DoDBSql`
writes into the object behind it moves no node.
-/

set_option autoImplicit false

namespace ShootGame.Model

open ShootGame.Library

/-- Where `run` stands: before its first section, or before its second one with the
batch taken. -/
inductive WorkerPc (ν : Type) where
  | takeAll
  | execute (tmp : List ν)
deriving DecidableEq, Repr

/-- `class DBSqlThread`. -/
structure DBSqlThread (ν : Type) where
  vecWrite : List ν
  vecWriteFinish : List ν
  worker : WorkerPc ν
deriving DecidableEq, Repr

inductive DBSqlCall (ν : Type) where
  | addWaitNode (pNode : ν)
  | runTakeAll
  | runExecute
  | getFinishDBWait
deriving DecidableEq, Repr

inductive DBSqlEffect (ν : Type) where
  | submitted (pNode : ν)
  | doDBSql (pNode : ν)
  /-- `GetFinishDBWait` handed the node out. -/
  | delivered (pNode : ν)
deriving DecidableEq, Repr

namespace DBSqlThread

variable {ν : Type}

/-- The singleton as `GetInstance` makes it, with the worker about to start. -/
def start : DBSqlThread ν where
  vecWrite := []
  vecWriteFinish := []
  worker := .takeAll

/-- The `for` loop of `run` over the rest of `tmp`. -/
def executeLoop : List ν → List ν → List ν × List (DBSqlEffect ν)
  | [], vecWriteFinish => (vecWriteFinish, [])
  | pNode :: tmp, vecWriteFinish =>
    let r := executeLoop tmp (vecWriteFinish ++ [pNode])
    (r.1, .doDBSql pNode :: r.2)

/-- One section under a lock; a section of `run` is enabled where the worker stands
before it. -/
def step (db : DBSqlThread ν) :
    DBSqlCall ν → Option (DBSqlThread ν × List (DBSqlEffect ν))
  | .addWaitNode pNode => some ({ db with vecWrite := db.vecWrite ++ [pNode] }, [.submitted pNode])
  | .runTakeAll =>
    match db.worker with
    | .takeAll => some ({ db with vecWrite := [], worker := .execute db.vecWrite }, [])
    | .execute _ => none
  | .runExecute =>
    match db.worker with
    | .takeAll => none
    | .execute tmp =>
      let r := executeLoop tmp db.vecWriteFinish
      some ({ db with vecWriteFinish := r.1, worker := .takeAll }, r.2)
  | .getFinishDBWait =>
    some ({ db with vecWriteFinish := [] }, db.vecWriteFinish.map .delivered)

/-- The nodes in the worker's local variable. -/
def batch (db : DBSqlThread ν) : List ν :=
  match db.worker with
  | .takeAll => []
  | .execute tmp => tmp

end DBSqlThread

/-- A run of the database thread and its two clients. -/
abbrev DBSqlRun {ν : Type} (h : List (DBSqlCall ν × List (DBSqlEffect ν)))
    (db : DBSqlThread ν) : Prop :=
  Runs DBSqlThread.step DBSqlThread.start h db

end ShootGame.Model
