import ShootGame.Model.GameMessages
import ShootGame.Model.RegisterNode

/-!
# The client's message logic

`UProNetLogic` of `pronetlogic.h` and `pronetlogic.cpp`: `OnLogin` and `OnRegister` bind
the two delegates, and `DealMsg` runs over the batch that `RecvMsgFromServer` returns,
decodes each message and executes a delegate.  `RecvMsgFromServer` is in a library; the
batch is an argument, each message as the contents of its buffer.

In the source the block of `case FM_ZDQ_LOGIN` ends without a `break`, so that it runs on
into the outer `default`.
-/

set_option autoImplicit false

namespace ShootGame.Model

open ShootGame.Library

namespace GameHMsg

/-- The register codes of `enum Error_Code_Type`. -/
def registerCode : RegisterErrorCode → UInt32
  | .regsterOk => 1
  | .regsterFail => 2

/-- The login codes of `enum Error_Code_Type`. -/
def loginCode : LoginErrorCode → UInt32
  | .loginOk => 3
  | .loginFail => 4

/-- The register codes are the same on both sides. -/
theorem registerCode_eq (c : RegisterErrorCode) : registerCode c = c.code := by
  cases c <;> rfl

/-- The login codes are the same on both sides. -/
theorem loginCode_eq (c : LoginErrorCode) : loginCode c = c.code := by
  cases c <;> rfl

end GameHMsg

/-- `class UProNetLogic`: a delegate is `none` until it is bound. -/
structure UProNetLogic (δ : Type) where
  onLoginDelegate : Option δ
  onRegistDelegate : Option δ
deriving DecidableEq, Repr

/-- What `DealMsg` does to the outside: `Execute` of a delegate, or a line of the log. -/
inductive ClientEvent (δ : Type) where
  | onRegist (delegate : Option δ) (registOK : Bool)
  | onLogin (delegate : Option δ) (loginOK : Bool)
  | log (text : String)
deriving DecidableEq, Repr

/-- The local `recvMsg` of the two inner cases. -/
inductive RecvMsg where
  | registerAccount (recvMsg : GameHMsg.ZS2CARegisterAccount)
  | login (recvMsg : GameHMsg.ZS2CALogin)
deriving DecidableEq, Repr

/-- What the uninitialised fields of `recvMsg` hold. -/
structure RecvJunk where
  size : UInt16
  field : UInt32

/-- One message dealt with: the message decoded from it, if any, and the effects. -/
structure DealtMsg (δ : Type) where
  recvMsg : Option RecvMsg
  events : List (ClientEvent δ)
deriving DecidableEq, Repr

namespace UProNetLogic

variable {δ : Type}

/-- `OnLogin`. -/
def onLogin (onlogin : δ) (logic : UProNetLogic δ) : UProNetLogic δ :=
  { logic with onLoginDelegate := some onlogin }

/-- `OnRegister`. -/
def onRegister (onregister : δ) (logic : UProNetLogic δ) : UProNetLogic δ :=
  { logic with onRegistDelegate := some onregister }

/-- The inner `switch`, with the cursor behind the header. -/
def dealLogin (junk : RecvJunk) (logic : UProNetLogic δ) (iSubProtocol : UInt16)
    (hmg : HMessage) : DealtMsg δ :=
  if iSubProtocol = GameHMsg.otherSubCode .zs2cARegister then
    let recvMsg := ((GameHMsg.ZS2CARegisterAccount.new junk.size junk.field).get hmg).1
    { recvMsg := some (.registerAccount recvMsg)
      events :=
        if GameHMsg.registerCode .regsterOk = recvMsg.iErrorCode then
          [.onRegist logic.onRegistDelegate true]
        else [.onRegist logic.onRegistDelegate false] }
  else if iSubProtocol = GameHMsg.subCode .zs2cALogin then
    let recvMsg := ((GameHMsg.ZS2CALogin.new junk.size junk.field).get hmg).1
    { recvMsg := some (.login recvMsg)
      events :=
        if GameHMsg.loginCode .loginOk = recvMsg.iErrorCode then
          [.onLogin logic.onLoginDelegate true]
        else [.onLogin logic.onLoginDelegate false] }
  else { recvMsg := none, events := [.log "Unknow MSG(Sub)"] }

/-- The body of the loop of `DealMsg`. -/
def dealOne (junk : RecvJunk) (logic : UProNetLogic δ) (hmg : HMessage) : DealtMsg δ :=
  let baseMsg := GameHMsg.BaseMessage.get hmg
  if baseMsg.1.iMainProtocol = GameHMsg.mainCode .fmZdqLogin then
    let dealt := logic.dealLogin junk baseMsg.1.iSubProtocol baseMsg.2
    -- no break: the outer default is run as well
    { dealt with events := dealt.events ++ [.log "Unknow MSG(Main)"] }
  else { recvMsg := none, events := [.log "Unknow MSG(Main)"] }

/-- `DealMsg`, on the batch it received. -/
def dealMsg (junk : RecvJunk) (logic : UProNetLogic δ) (vecRecvMsg : List HMessage) :
    List (DealtMsg δ) :=
  vecRecvMsg.map (logic.dealOne junk)

end UProNetLogic

end ShootGame.Model
