import ShootGame.Model.WaitNodes

/-!
# The database connection

`DBConnect` of `DBConnect.h` and `DBConnect.cpp`.  The calls of the MySQL library are
listed in their order with the handle each is given, and what they answer is an argument
of the operation that makes them.  Every handle that `mysql_init` returns has a number
of its own.

The two parameters of `KeepAlive` are left out; the condition they stand in guards an
empty block.
-/

set_option autoImplicit false

namespace ShootGame.Model

open ShootGame.Library

/-- A call of the MySQL library, or the assignment through the handle in `init`. -/
inductive MysqlCall where
  | init (result : Option ℕ)
  | options (con : Option ℕ)
  | realConnect (con : Option ℕ) (ip dbname : List UInt8)
  | selectDb (con : Option ℕ) (dbname : List UInt8)
  | setReconnect (con : Option ℕ)
  | ping (con : Option ℕ)
  | realQuery (con : Option ℕ) (sql : List UInt8)
  | error (con : Option ℕ)
  | query (con : Option ℕ) (sql : List UInt8)
  | storeResult (con : Option ℕ)
  | close (con : Option ℕ)
deriving DecidableEq, Repr

/-- What the calls of one `init` answer: `mysql_init` not null, and the other two
successful. -/
structure ConnectAnswers where
  init : Bool
  realConnect : Bool
  selectDb : Bool
deriving DecidableEq, Repr

/-- What the calls of one `loadtabledata` answer. -/
structure LoadAnswers where
  ping : Bool
  reconnect : ConnectAnswers
  realQuery : Bool
  storeResult : Option ResultSet

/-- `class DBConnect`.  `handles` is history: how many handles there have been. -/
structure DBConnect where
  con : Option ℕ
  strDBip : List UInt8
  strDBName : List UInt8
  handles : ℕ
  con_lt : ∀ k, con = some k → k < handles

/-- What an operation returns, the object after it, and the calls it made. -/
structure Called (α : Type) where
  result : α
  db : DBConnect
  calls : List MysqlCall

namespace DBConnect

/-- `DBConnect()`. -/
def new : DBConnect where
  con := none
  strDBip := []
  strDBName := []
  handles := 0
  con_lt := by simp

/-- `init`: the character set is set before the handle is looked at, and the handle of an
attempt that failed is overwritten. -/
def init (strdbip dbname : List UInt8) (answers : ConnectAnswers) (db : DBConnect) :
    Called Int :=
  if db.con ≠ none then ⟨0, db, []⟩
  else if answers.init then
    let con := some db.handles
    let calls := [.init con, .options con, .realConnect con strdbip dbname]
    if answers.realConnect then
      { result := 1
        db :=
          { con := con
            strDBip := strdbip
            strDBName := dbname
            handles := db.handles + 1
            con_lt := by simp [con] }
        calls := calls ++ [.options con, .selectDb con dbname] ++
          (if answers.selectDb then [.setReconnect con] else []) }
    else
      { result := 0
        db :=
          { con := none
            strDBip := strdbip
            strDBName := dbname
            handles := db.handles + 1
            con_lt := by simp }
        calls := calls }
  else
    { result := 0
      db :=
        { con := none
          strDBip := strdbip
          strDBName := dbname
          handles := db.handles
          con_lt := by simp }
      calls := [.init none, .options none] }

/-- `Clear`. -/
def clear (db : DBConnect) : Called Unit :=
  if db.con ≠ none then ⟨(), { db with con := none, con_lt := by simp }, [.close db.con]⟩
  else ⟨(), db, []⟩

/-- `~DBConnect`: the calls it makes. -/
def destroy (db : DBConnect) : List MysqlCall :=
  if db.con ≠ none then [.close db.con] else []

/-- `KeepAlive`. -/
def keepAlive (answers : LoadAnswers) (db : DBConnect) : Called Int :=
  if answers.ping then ⟨1, db, [.ping db.con]⟩
  else
    let cleared := db.clear
    let connected := cleared.db.init db.strDBip db.strDBName answers.reconnect
    ⟨connected.result, connected.db, [.ping db.con] ++ cleared.calls ++ connected.calls⟩

/-- `std::string::find`. -/
def find (str : List UInt8) : List UInt8 → Option ℕ
  | [] => if str = [] then some 0 else none
  | c :: cs => if str.isPrefixOf (c :: cs) then some 0 else (find str cs).map (· + 1)

/-- `callsql`: what stands between the first `@` and the first `)`. -/
def callSql (strsql : List UInt8) (indexat : ℕ) : List UInt8 :=
  let iEnd :=
    match find (ascii ")") strsql with
    | none => toInt strsql.length
    | some indexend => toInt ((indexend : Int) - indexat)
  ascii "SELECT " ++ (strsql.drop indexat).take (toSizeT iEnd)

/-- The last part of `loadtabledata`, from the second look at `sql[0]` on. -/
def storeResult (con : Option ℕ) (sql : List UInt8) (answers : LoadAnswers) :
    (Int × Option ResultSet) × List MysqlCall :=
  if sql.head? ∈ (ascii "scSC").map some then
    match answers.storeResult with
    | some res => ((1, some res), [.storeResult con])
    | none => ((-3, none), [.storeResult con])
  else ((1, none), [])

/-- `loadtabledata` from the query on: what it returns, what `mres` is set to, and the
calls it makes. -/
def runQuery (con : Option ℕ) (sql : List UInt8) (answers : LoadAnswers) :
    (Int × Option ResultSet) × List MysqlCall :=
  if answers.realQuery = false then ((-2, none), [.realQuery con sql, .error con])
  else if sql.head? = some 99 ∧ find (ascii "call") sql ≠ none then
    match find (ascii "@") sql with
    | none => ((1, none), [.realQuery con sql])
    | some indexat =>
      let stored := storeResult con sql answers
      (stored.1, [.realQuery con sql, .query con (callSql sql indexat)] ++ stored.2)
  else
    let stored := storeResult con sql answers
    (stored.1, .realQuery con sql :: stored.2)

/-- `loadtabledata`: the result and `mres`; no result where the conversion of a null
`sql` to a `std::string` throws. -/
def loadtabledata (sql : Option (List UInt8)) (answers : LoadAnswers) (db : DBConnect) :
    Called (Option (Int × Option ResultSet)) :=
  if db.con = none then ⟨some (-1, none), db, []⟩
  else
    let alive := db.keepAlive answers
    if alive.result = 0 then ⟨some (-1, none), alive.db, alive.calls⟩
    else
      match sql with
      | none => ⟨none, alive.db, alive.calls⟩
      | some sql =>
        let queried := runQuery alive.db.con sql answers
        ⟨some queried.1, alive.db, alive.calls ++ queried.2⟩

end DBConnect

/-! ## Runs of a connection -/

/-- An operation on a `DBConnect` object. -/
inductive ConnectCall where
  | init (strdbip dbname : List UInt8) (answers : ConnectAnswers)
  | loadtabledata (sql : Option (List UInt8)) (answers : LoadAnswers)
  | clear
  | destroy

/-- An operation on an object that has not been destroyed. -/
def connectStep : Option DBConnect → ConnectCall → Option (Option DBConnect × List MysqlCall)
  | none, _ => none
  | some db, .init strdbip dbname answers =>
    let r := db.init strdbip dbname answers
    some (some r.db, r.calls)
  | some db, .loadtabledata sql answers =>
    let r := db.loadtabledata sql answers
    some (some r.db, r.calls)
  | some db, .clear =>
    let r := db.clear
    some (some r.db, r.calls)
  | some db, .destroy => some (none, db.destroy)

/-- A run of an object from its construction. -/
abbrev ConnectRun (h : List (ConnectCall × List MysqlCall)) (s : Option DBConnect) : Prop :=
  Runs connectStep (some DBConnect.new) h s

end ShootGame.Model
