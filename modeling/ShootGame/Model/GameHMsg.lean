import ShootGame.Model.Puts

/-!
# The client's copy of the codec

The writing side of `GameHMsg.h`: the client has its own `HMessage`, enumerations and
message classes, kept by hand in step with the server's.  Every function below is
embedded from the client's text, and the lemmas after it say that it does what the
server's copy does.

The record is the server's, read with the client's extent: offsets `0 … 4095` are
`m_byBuffer`.  No function looks at the extent, so a put can write behind it.  There it
meets `m_pData`, `m_iPos` and `m_iDataUseSize`, which in the source are overwritten and here
are kept: from the first copy on that ends behind offset 4095 nothing is promised of a
message.  What is proved of its bytes and its cursor is for copies that stay inside, or
about the first one that does not.
-/

set_option autoImplicit false

namespace ShootGame.Model

open ShootGame.Library

namespace GameHMsg

/-- How many bytes `m_byBuffer` has. -/
def bufferSize : ℕ := 4096

def addPosition (iAddition : Int) (hmg : HMessage) : HMessage :=
  { hmg with
    iPos := hmg.iPos + iAddition
    iDataUseSize :=
      if hmg.iPos + iAddition > hmg.iDataUseSize then hmg.iPos + iAddition
      else hmg.iDataUseSize }

/-- `CheckPut`: the literal is not the size of the buffer. -/
def checkPut (iSize : Int) (hmg : HMessage) : Bool := toInt (hmg.iPos + iSize) < 10000

def putChar (data : UInt8) (hmg : HMessage) : Bool × HMessage :=
  if checkPut 1 hmg = false then (false, hmg)
  else (true, addPosition 1 (hmg.writeBytes [data]))

/-- `putUInt`: most significant byte first. -/
def putUInt (data : UInt32) (hmg : HMessage) : Bool × HMessage :=
  if checkPut 4 hmg = false then (false, hmg)
  else (true, addPosition 4 (hmg.writeBytes (beBytes data)))

/-- `putUShort`: a plain 16-bit store. -/
def putUShort (data : UInt16) (hmg : HMessage) : Bool × HMessage :=
  if checkPut 2 hmg = false then (false, hmg)
  else (true, addPosition 2 (hmg.writeBytes (leBytes data)))

def putCharArray (pData : List UInt8) (iLen : Int) (hmg : HMessage) : Bool × HMessage :=
  if checkPut iLen hmg = false then (false, hmg)
  else
    (true,
      { hmg.writeBytes (HMessage.charArray pData (toSizeT iLen)) with iPos := hmg.iPos + iLen })

def putString (str : List UInt8) (hmg : HMessage) : Bool × HMessage :=
  let iLen := toInt str.length
  let r := putUShort (UInt16.ofInt iLen) hmg
  if r.1 = false then (false, r.2) else putCharArray str iLen r.2

/-- `GetPosition`: the final length is stamped over the first two bytes. -/
def getPosition (hmg : HMessage) : Int × HMessage :=
  (hmg.iPos,
    { hmg with
      byBuffer := hmg.byBuffer.store 0 (leBytes (UInt16.ofInt hmg.iPos))
      accesses := hmg.accesses ++ [⟨true, 0, 2⟩] })

/-- The bytes `GetData()[0, GetPosition())`. -/
def finished (hmg : HMessage) : List UInt8 :=
  (getPosition hmg).2.byBuffer.load 0 (getPosition hmg).1.toNat

/-- `enum MainProtocol` of the client. -/
def mainCode : MainProtocol → UInt16
  | .fmQRoundMessage => 0x1037
  | .fmZdqLogin => 0x2001

/-- `enum SubProtocol` of the client. -/
def subCode : SubProtocol → UInt16
  | .c2zsRRegister => 1
  | .c2zsRLogin => 3
  | .zs2cALogin => 4
  | .ds2zsRCheckDynmicCode => 1000
  | .zs2dsACheckDynmicCode => 1001

/-- `class BaseMessage` of the client. -/
structure BaseMessage where
  size : UInt16
  iMainProtocol : UInt16
  iSubProtocol : UInt16
deriving DecidableEq, Repr

def BaseMessage.put (msg : BaseMessage) (hmg : HMessage) : HMessage :=
  (putUShort msg.iSubProtocol (putUShort msg.iMainProtocol (putUShort msg.size hmg).2).2).2

/-- The common text of the client's `C2ZS_R_Login` and `C2ZS_R_RegisterAccount`. -/
structure AccountRequest extends BaseMessage where
  strAccount : List UInt8
  strPassword : List UInt8
deriving DecidableEq, Repr

namespace AccountRequest

/-- The constructor, for the sub protocol of the class; `m_Size` is left uninitialised. -/
def new (sub : SubProtocol) (junk : UInt16) : AccountRequest where
  size := junk
  iMainProtocol := mainCode .fmZdqLogin
  iSubProtocol := subCode sub
  strAccount := []
  strPassword := []

def put (msg : AccountRequest) (hmg : HMessage) : HMessage :=
  (putString msg.strPassword (putString msg.strAccount (msg.toBaseMessage.put hmg)).2).2

end AccountRequest

/-- `C2ZS_R_Login` of the client. -/
abbrev C2ZSRLogin := AccountRequest

def C2ZSRLogin.new (junk : UInt16) : C2ZSRLogin := AccountRequest.new .c2zsRLogin junk

/-- `C2ZS_R_RegisterAccount` of the client. -/
abbrev C2ZSRRegisterAccount := AccountRequest

def C2ZSRRegisterAccount.new (junk : UInt16) : C2ZSRRegisterAccount :=
  AccountRequest.new .c2zsRRegister junk

/-! ## The senders -/

/-- What the uninitialised fields of the local objects of a sender hold. -/
structure SendJunk where
  hMsg : Junk
  size : UInt16

/-- `GameLogicRegister`: the messages it passes to `SendMsgToServer`.  The strings are
what `TCHAR_TO_UTF8` makes of the arguments. -/
def gameLogicRegister (junk : SendJunk) (account password : List UInt8) : List HMessage :=
  let hMsg := HMessage.new junk.hMsg
  let sendMsg :=
    { C2ZSRRegisterAccount.new junk.size with strAccount := account, strPassword := password }
  [sendMsg.put hMsg]

/-- `GameLogicLogin`. -/
def gameLogicLogin (junk : SendJunk) (account password : List UInt8) : List HMessage :=
  let hMsg := HMessage.new junk.hMsg
  let sendMsg := { C2ZSRLogin.new junk.size with strAccount := account, strPassword := password }
  [sendMsg.put hMsg]

end GameHMsg

/-- The put on the client's `HMessage`. -/
def Put.gameRun : Put → HMessage → Bool × HMessage
  | char data, hmg => GameHMsg.putChar data hmg
  | uShort data, hmg => GameHMsg.putUShort data hmg
  | uInt data, hmg => GameHMsg.putUInt data hmg
  | charArray pData iLen, hmg => GameHMsg.putCharArray pData iLen hmg
  | string str, hmg => GameHMsg.putString str hmg

namespace GameHMsg

def BaseMessage.puts (msg : BaseMessage) : List Put :=
  [.uShort msg.size, .uShort msg.iMainProtocol, .uShort msg.iSubProtocol]

def AccountRequest.puts (msg : AccountRequest) : List Put :=
  msg.toBaseMessage.puts ++ [.string msg.strAccount, .string msg.strPassword]

/-! ## The two copies agree -/

/-- The client's `putUShort` is the server's. -/
@[simp] theorem putUShort_eq (data : UInt16) (hmg : HMessage) :
    putUShort data hmg = hmg.putUShort data := rfl

/-- The client's `putString` is the server's. -/
@[simp] theorem putString_eq (str : List UInt8) (hmg : HMessage) :
    putString str hmg = hmg.putString str := rfl

/-- Both sides hand out the same bytes of a message. -/
theorem finished_eq (hmg : HMessage) : finished hmg = hmg.finished := rfl

/-- The main protocols have the same numbers on both sides. -/
theorem mainCode_eq (main : MainProtocol) : mainCode main = main.code := by
  cases main <;> rfl

/-- The sub protocols have the same numbers on both sides. -/
theorem subCode_eq (sub : SubProtocol) : subCode sub = sub.code := by
  cases sub <;> rfl

/-- The client's header as the server's class. -/
def BaseMessage.toServer (msg : BaseMessage) : Model.BaseMessage :=
  ⟨msg.size, msg.iMainProtocol, msg.iSubProtocol⟩

def AccountRequest.toServer (msg : AccountRequest) : Model.AccountRequest :=
  ⟨msg.toBaseMessage.toServer, msg.strAccount, msg.strPassword⟩

/-- The client puts a request as the server's class would. -/
theorem AccountRequest.put_eq (msg : AccountRequest) (hmg : HMessage) :
    msg.put hmg = msg.toServer.put hmg := by
  simp only [put, BaseMessage.put, putUShort_eq, putString_eq]
  rfl

/-- The client's constructor builds what the server's does. -/
theorem AccountRequest.new_toServer (sub : SubProtocol) (junk : UInt16) (a p : List UInt8) :
    ({ AccountRequest.new sub junk with strAccount := a, strPassword := p }).toServer =
      { Model.AccountRequest.new sub junk with strAccount := a, strPassword := p } := by
  simp only [toServer, BaseMessage.toServer, AccountRequest.new, mainCode_eq, subCode_eq]
  rfl

/-- A put does the same on both sides. -/
theorem gameRun_eq : Put.gameRun = Put.run := by
  funext put hmg
  cases put <;> rfl

/-- The `put` of a request makes its puts in order. -/
theorem AccountRequest.put_eq_runPuts (msg : AccountRequest) (hmg : HMessage) :
    msg.put hmg = (runPuts Put.gameRun msg.puts hmg).2 := by
  simp [AccountRequest.put, AccountRequest.puts, BaseMessage.put, BaseMessage.puts, Put.gameRun]

end GameHMsg

end ShootGame.Model
