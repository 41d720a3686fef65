import ShootGame.Model.Dbms
import ShootGame.Model.MsgLogic
import ShootGame.Model.Puts

/-!
# The login node

`CLoginWaitNode` of `DBSqlThread.h` and `DBSqlThread.cpp`: the worker runs `DoDBSql`,
which checks the credentials and appends the rows of the server-list query to the
global `g_vecServerList`; the main thread then runs `DoLogic`, which builds the answer
from that list.

What the database answers to a statement is an argument.  A column of a row is the C
string `row[j]` points to; indices behind the columns are there too, since the code
looks at neither the number of columns nor the length of the list.  What is read there is
undefined in the source: nothing is promised of an execution that does, and the results
about the list of servers tell such executions apart.
-/

set_option autoImplicit false

namespace ShootGame.Model

open ShootGame.Library

/-! ## The database -/

/-- `MYSQL_ROW`: the string each `row[j]` points to, where it is not null.  Behind the
columns of its result set a row holds nothing that the program may rely on. -/
abbrev MysqlRow := ℕ → Option (List UInt8)

/-- A stored result: what `mysql_fetch_row` yields one after the other, and
`mysql_field_count`. -/
structure ResultSet where
  rows : List MysqlRow
  fieldCount : UInt32

/-- What a node sees of the database around one statement: whether `GetConn` was not
null, what `loadtabledata` returned, and `mres` after it. -/
structure DBAnswer where
  conn : Bool
  iret : Int
  mres : Option ResultSet

/-- The bytes of an ASCII literal. -/
def ascii (s : String) : List UInt8 := s.toList.map fun c => UInt8.ofNat c.toNat

/-- `isspace` in the C locale. -/
def isSpace (b : UInt8) : Bool := b = 32 || (9 ≤ b && b ≤ 13)

/-- The number the leading decimal digits make. -/
def digits : ℕ → List UInt8 → ℕ
  | iValue, [] => iValue
  | iValue, b :: bs =>
    if 48 ≤ b && b ≤ 57 then digits (10 * iValue + (b.toNat - 48)) bs else iValue

/-- `INT_MIN` and `INT_MAX` for what is outside them, as the runtime of the build does. -/
def clampInt (x : Int) : Int := max (-2 ^ 31) (min x (2 ^ 31 - 1))

/-- `atoi`: white space, a sign, digits. -/
def atoi (nptr : List UInt8) : Int :=
  match nptr.dropWhile isSpace with
  | 43 :: bs => clampInt (digits 0 bs)
  | 45 :: bs => clampInt (-digits 0 bs)
  | bs => clampInt (digits 0 bs)

/-- What `atoi` returns is an `int`. -/
theorem atoi_range (nptr : List UInt8) : -2 ^ 31 ≤ atoi nptr ∧ atoi nptr < 2 ^ 31 := by
  have hclamp : ∀ x : Int, -2 ^ 31 ≤ clampInt x ∧ clampInt x < 2 ^ 31 := by
    intro x
    unfold clampInt
    omega
  unfold atoi
  split <;> exact hclamp _

example : atoi (ascii " -12 servers") = -12 := by decide

example : atoi (ascii "4294967297") = 2 ^ 31 - 1 := by decide

/-! ## The server list -/

/-- `struct ServerData`. -/
structure ServerData where
  dwID : UInt32
  strName : List UInt8
  strIP : List UInt8
  wPort : UInt16
  byState : UInt8
deriving DecidableEq, Repr

/-- The entry `GetAllPerganaFromSql` makes of a row. -/
def ServerData.ofRow (row : MysqlRow) : ServerData where
  dwID := (row 0).elim 0 fun s => UInt32.ofInt (atoi s)
  strName := (row 1).getD []
  strIP := (row 2).getD []
  wPort := (row 3).elim 0 fun s => UInt16.ofInt (atoi s)
  byState := (row 7).elim 0 fun s => UInt8.ofInt (atoi s)

/-- The error codes a login node answers with. -/
inductive LoginErrorCode where
  | loginOk
  | loginFail
deriving DecidableEq, Repr

def LoginErrorCode.code : LoginErrorCode → UInt32
  | loginOk => 3
  | loginFail => 4

/-- `struct CLoginWaitNode`. -/
structure CLoginWaitNode where
  dwSessionID : Cell UInt32
  strAccount : List UInt8
  strPassword : List UInt8
  dwDynamicCode : UInt32
  checkisOK : Cell Bool
  servercount : Cell UInt32
deriving DecidableEq, Repr

namespace CLoginWaitNode

/-- The constructor; the other fields keep what the storage holds. -/
def new (strAccount strPassword : List UInt8) (dwDynamicCode junk : UInt32) (junkOK : Bool) :
    CLoginWaitNode where
  dwSessionID := .unset junk
  strAccount := strAccount
  strPassword := strPassword
  dwDynamicCode := dwDynamicCode
  checkisOK := .unset junkOK
  servercount := .unset junk

/-- The statement `CheckLoginData` builds. -/
def checkLoginSql (strAccount strPassword : List UInt8) : List UInt8 :=
  ascii "selsect * frome account where loginname = '" ++ strAccount ++
    ascii "' and password = '" ++ strPassword ++ ascii "';"

/-- `CheckLoginData`: the first row is fetched and its columns are counted. -/
def checkLoginData (database : List UInt8 → DBAnswer) (strAccount strPassword : List UInt8) :
    Bool :=
  let answer := database (cString (checkLoginSql strAccount strPassword))
  if answer.conn = false then false
  else if answer.iret ≤ 0 then false
  else
    match answer.mres with
    | none => false
    | some ⟨[], _⟩ => false
    | some ⟨_ :: _, fieldCount⟩ => toInt fieldCount.toNat = 1

def serverListSql : List UInt8 := ascii "selsect * frome gm_serverlist;"

/-- The `while` loop of `GetAllPerganaFromSql`; `iFeildCount` is set in its body only. -/
def fetchLoop (fieldCount : UInt32) : List MysqlRow → Cell Int → List ServerData →
    Cell Int × List ServerData
  | [], iFeildCount, vecServerList => (iFeildCount, vecServerList)
  | row :: rows, _, vecServerList =>
    let iFeildCount := toInt fieldCount.toNat
    if iFeildCount ≤ 0 then (.assigned 0, vecServerList)
    else
      fetchLoop fieldCount rows (.assigned iFeildCount) (vecServerList ++ [ServerData.ofRow row])

/-- `GetAllPerganaFromSql`: what it returns, and `g_vecServerList` after it. -/
def getAllPerganaFromSql (database : List UInt8 → DBAnswer) (junk : Int)
    (vecServerList : List ServerData) : Cell Int × List ServerData :=
  let answer := database (cString serverListSql)
  if answer.conn = false then (.assigned 0, vecServerList)
  else if answer.iret ≤ 0 then (.assigned 0, vecServerList)
  else
    match answer.mres with
    | none => (.unset junk, vecServerList)
    | some mres => fetchLoop mres.fieldCount mres.rows (.unset junk) vecServerList

/-- `DoDBSql`: the node, and `g_vecServerList` after it. -/
def doDBSql (database : List UInt8 → DBAnswer) (junk : Int) (vecServerList : List ServerData)
    (node : CLoginWaitNode) : CLoginWaitNode × List ServerData :=
  let checkisOK := checkLoginData database node.strAccount node.strPassword
  let r := getAllPerganaFromSql database junk vecServerList
  ({ node with checkisOK := .assigned checkisOK, servercount := r.1.map UInt32.ofInt }, r.2)

/-- `g_vecServerList[i]`, and what stands `outside` the list. -/
def serverAt (outside : ℕ → ServerData) (vecServerList : List ServerData) (i : ℕ) : ServerData :=
  vecServerList.getD i (outside i)

/-- The four assignments of the loop of `DoLogic`. -/
def fillEntry (data : ServerData) (sendMsg : ZS2CALogin) : ZS2CALogin :=
  { sendMsg with
    iID := data.dwID
    strIP := data.strIP
    wPort := data.wPort
    state := data.byState }

/-- The `for` loop of `DoLogic` over the entries `data`, with one object for all. -/
def entryLoop : List ServerData → ZS2CALogin → HMessage → HMessage
  | [], _, sendHmg => sendHmg
  | data :: rest, sendMsg, sendHmg =>
    let sendMsg := fillEntry data sendMsg
    entryLoop rest sendMsg (sendMsg.putServerData sendHmg)

/-- The condition of `DoLogic`. -/
def succeeded (node : CLoginWaitNode) : Bool :=
  node.checkisOK.read = true && node.servercount.read > 0

/-- The entries the loop of `DoLogic` visits. -/
def entries (outside : ℕ → ServerData) (vecServerList : List ServerData) (node : CLoginWaitNode) :
    List ServerData :=
  (List.range node.servercount.read.toNat).map (serverAt outside vecServerList)

/-- The answer `DoLogic` builds. -/
def reply (outside : ℕ → ServerData) (junk : DealJunk) (vecServerList : List ServerData)
    (node : CLoginWaitNode) : HMessage :=
  let sendMsg := ZS2CALogin.new junk.wSize junk.field
  let sendHmg := HMessage.new junk.sendHmg
  if node.succeeded then
    let sendMsg := { sendMsg with
      iErrorCode := LoginErrorCode.loginOk.code, dynmicCode := node.dwDynamicCode }
    entryLoop (node.entries outside vecServerList) sendMsg (sendMsg.put sendHmg)
  else
    let sendMsg := { sendMsg with iErrorCode := LoginErrorCode.loginFail.code }
    sendMsg.put sendHmg

/-- `DoLogic`: the store after it, and the arguments of its calls of
`SendMsgBySessionID`. -/
def doLogic (outside : ℕ → ServerData) (junk : DealJunk) (now : Int64)
    (vecServerList : List ServerData) (db : DBMS) (node : CLoginWaitNode) :
    DBMS × List (Int × HMessage) :=
  let db := if node.succeeded then db.insert node.strAccount node.strAccount 10000 now else db
  (db, [(toInt node.dwSessionID.read.toNat, node.reply outside junk vecServerList)])

/-! ## The puts of an answer -/

/-- The puts of one entry; its name is the empty one of the constructor. -/
def entryPuts (data : ServerData) : List Put :=
  [.uInt data.dwID, .string [], .string data.strIP, .uShort data.wPort, .char data.byState]

/-- The puts that `DoLogic` makes. -/
def replyPuts (outside : ℕ → ServerData) (junk : DealJunk) (vecServerList : List ServerData)
    (node : CLoginWaitNode) : List Put :=
  let sendMsg := ZS2CALogin.new junk.wSize junk.field
  if node.succeeded then
    let sendMsg := { sendMsg with
      iErrorCode := LoginErrorCode.loginOk.code, dynmicCode := node.dwDynamicCode }
    sendMsg.puts ++ (node.entries outside vecServerList).flatMap entryPuts
  else
    let sendMsg := { sendMsg with iErrorCode := LoginErrorCode.loginFail.code }
    sendMsg.puts

/-- The loop over the entries makes their puts in order. -/
theorem entryLoop_eq_runPuts (entries : List ServerData) {sendMsg : ZS2CALogin}
    (hname : sendMsg.strName = []) (sendHmg : HMessage) :
    entryLoop entries sendMsg sendHmg =
      (runPuts Put.run (entries.flatMap entryPuts) sendHmg).2 := by
  induction entries generalizing sendMsg sendHmg with
  | nil => rfl
  | cons data rest ih =>
    have hputs : (fillEntry data sendMsg).serverDataPuts = entryPuts data := by
      simp only [ZS2CALogin.serverDataPuts, fillEntry, entryPuts, hname]
    have hname' : (fillEntry data sendMsg).strName = [] := hname
    rw [List.flatMap_cons, runPuts_append, ← hputs]
    simp only [entryLoop, ZS2CALogin.putServerData_eq_runPuts]
    exact ih hname' _

/-- The answer is what these puts make of a new message. -/
theorem reply_eq_runPuts (outside : ℕ → ServerData) (junk : DealJunk)
    (vecServerList : List ServerData) (node : CLoginWaitNode) :
    node.reply outside junk vecServerList =
      (runPuts Put.run (node.replyPuts outside junk vecServerList)
        (HMessage.new junk.sendHmg)).2 := by
  cases hok : node.succeeded with
  | true =>
    simp only [reply, replyPuts, hok, if_true, runPuts_append, ZS2CALogin.put_eq_runPuts]
    exact entryLoop_eq_runPuts _ rfl _
  | false =>
    simp only [reply, replyPuts, hok, Bool.false_eq_true, if_false, ZS2CALogin.put_eq_runPuts]

end CLoginWaitNode

end ShootGame.Model
