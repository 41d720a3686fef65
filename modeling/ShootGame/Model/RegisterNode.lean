import ShootGame.Model.MessageClasses
import ShootGame.Model.WaitNodes

/-!
# The register node

`CRegisterWaitNode` of `DBSqlThread.h` and `DBSqlThread.cpp`: the worker calls the
stored procedure that adds an account, the main thread sends what it returned.
-/

set_option autoImplicit false

namespace ShootGame.Model

open ShootGame.Library

/-- The error codes a register node answers with. -/
inductive RegisterErrorCode where
  | regsterOk
  | regsterFail
deriving DecidableEq, Repr

def RegisterErrorCode.code : RegisterErrorCode → UInt32
  | regsterOk => 1
  | regsterFail => 2

/-- `struct CRegisterWaitNode`. -/
structure CRegisterWaitNode where
  dwSessionID : Cell UInt32
  strAccount : List UInt8
  strPassword : List UInt8
  outdata : Cell Int
deriving DecidableEq, Repr

namespace CRegisterWaitNode

/-- The constructor; the other fields keep what the storage holds. -/
def new (strAccount strPassword : List UInt8) (junk : UInt32) (junkOut : Int) :
    CRegisterWaitNode where
  dwSessionID := .unset junk
  strAccount := strAccount
  strPassword := strPassword
  outdata := .unset junkOut

/-- The statement `CheckAndInsertAccountAndPasswd` builds. -/
def addAccountSql (strAccount strPassword : List UInt8) : List UInt8 :=
  ascii "call p_addAccountByMyself('" ++ strAccount ++ ascii "'" ++ ascii " ,'" ++
    strPassword ++ ascii "',@accountid,@isNew);"

/-- `CheckAndInsertAccountAndPasswd`: the body of its loop returns in all cases.  `atoi`
of a null column has no defined value; `junk` stands for it. -/
def checkAndInsertAccountAndPasswd (database : List UInt8 → DBAnswer) (junk : Int)
    (strAccount strPassword : List UInt8) : Int :=
  if strAccount.length > 20 then -1
  else
    let answer := database (cString (addAccountSql strAccount strPassword))
    if answer.conn = false then -2
    else if answer.iret ≤ 0 then -3
    else
      match answer.mres with
      | none => -6
      | some ⟨[], _⟩ => -6
      | some ⟨row :: _, _⟩ =>
        let iAccountID := (row 0).elim junk atoi
        let iIsNew := (row 1).elim junk atoi
        if iIsNew ≠ 0 then iAccountID else -4

/-- `DoDBSql`. -/
def doDBSql (database : List UInt8 → DBAnswer) (junk : Int) (node : CRegisterWaitNode) :
    CRegisterWaitNode :=
  { node with
    outdata := .assigned
      (checkAndInsertAccountAndPasswd database junk node.strAccount node.strPassword) }

/-- The answer `DoLogic` builds. -/
def reply (junk : DealJunk) (node : CRegisterWaitNode) : HMessage :=
  let sendMsg := ZS2CARegisterAccount.new junk.wSize junk.field
  let sendHmg := HMessage.new junk.sendHmg
  if node.outdata.read > 0 then
    { sendMsg with
      iErrorCode := RegisterErrorCode.regsterOk.code
      iErrorCodeIndex := UInt32.ofInt node.outdata.read }.put sendHmg
  else
    { sendMsg with
      iErrorCode := RegisterErrorCode.regsterFail.code
      iErrorCodeIndex := UInt32.ofInt node.outdata.read }.put sendHmg

/-- `DoLogic`: the arguments of its call of `SendMsgBySessionID`. -/
def doLogic (junk : DealJunk) (node : CRegisterWaitNode) : List (Int × HMessage) :=
  [(toInt node.dwSessionID.read.toNat, node.reply junk)]

end CRegisterWaitNode

end ShootGame.Model
