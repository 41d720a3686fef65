import ShootGame.Model.HMessage

/-!
# The message classes the server handles

The protocol numbers and the message classes of `MyMsg.h` that the server's logic
constructs: three requests and two answers.  Every class extends `BaseMessage`;
`put` writes the three header words and then the fields, `get` reads the fields
only, the header having been read before.  As in the source, no `put` looks at the
results of the puts it makes.

A constructor takes, as `junk`, the values of the fields the C++ constructor leaves
uninitialised.
-/

set_option autoImplicit false

namespace ShootGame.Model

open ShootGame.Library

/-- `enum MainProtocol`, the members some message class uses. -/
inductive MainProtocol where
  | fmQRoundMessage
  | fmZdqLogin
deriving DecidableEq, Repr

def MainProtocol.code : MainProtocol → UInt16
  | fmQRoundMessage => 0x1037
  | fmZdqLogin => 0x2001

/-- `enum SubProtocol`, the members some message class below uses. -/
inductive SubProtocol where
  | c2zsRRegister
  | c2zsRLogin
  | zs2cALogin
  | ds2zsRCheckDynmicCode
  | zs2dsACheckDynmicCode
deriving DecidableEq, Repr

def SubProtocol.code : SubProtocol → UInt16
  | c2zsRRegister => 1
  | c2zsRLogin => 3
  | zs2cALogin => 4
  | ds2zsRCheckDynmicCode => 1000
  | zs2dsACheckDynmicCode => 1001

/-- The anonymous enumeration of error codes, the members `DealMsg` sends. -/
inductive ErrorCode where
  | loginOk
  | checkDynmicCodeOk
  | checkDynmicCodeFail
deriving DecidableEq, Repr

def ErrorCode.code : ErrorCode → UInt32
  | loginOk => 3
  | checkDynmicCodeOk => 5
  | checkDynmicCodeFail => 6

/-- `class BaseMessage`: the header of every message. -/
structure BaseMessage where
  wSize : UInt16
  iMainProtocol : UInt16
  iSubProtocol : UInt16
deriving DecidableEq, Repr

namespace BaseMessage

def put (msg : BaseMessage) (hmg : HMessage) : HMessage :=
  (((hmg.putUShort msg.wSize).2.putUShort msg.iMainProtocol).2.putUShort msg.iSubProtocol).2

def get (hmg : HMessage) : BaseMessage × HMessage :=
  let size := hmg.getUShort
  let main := size.2.getUShort
  let sub := main.2.getUShort
  (⟨size.1, main.1, sub.1⟩, sub.2)

end BaseMessage

/-- The common text of `C2ZS_R_Login` and `C2ZS_R_RegisterAccount`: an account and a
password. -/
structure AccountRequest extends BaseMessage where
  strAccount : List UInt8
  strPassword : List UInt8
deriving DecidableEq, Repr

namespace AccountRequest

/-- The constructor, for the sub protocol of the class. -/
def new (sub : SubProtocol) (junk : UInt16) : AccountRequest where
  wSize := junk
  iMainProtocol := MainProtocol.fmZdqLogin.code
  iSubProtocol := sub.code
  strAccount := []
  strPassword := []

def put (msg : AccountRequest) (hmg : HMessage) : HMessage :=
  (((msg.toBaseMessage.put hmg).putString msg.strAccount).2.putString msg.strPassword).2

def get (msg : AccountRequest) (hmg : HMessage) : AccountRequest × HMessage :=
  let account := hmg.getString
  let password := account.2.getString
  ({ msg with strAccount := account.1, strPassword := password.1 }, password.2)

end AccountRequest

/-- `C2ZS_R_Login`. -/
abbrev C2ZSRLogin := AccountRequest

def C2ZSRLogin.new (junk : UInt16) : C2ZSRLogin := AccountRequest.new .c2zsRLogin junk

/-- `C2ZS_R_RegisterAccount`. -/
abbrev C2ZSRRegisterAccount := AccountRequest

def C2ZSRRegisterAccount.new (junk : UInt16) : C2ZSRRegisterAccount :=
  AccountRequest.new .c2zsRRegister junk

/-- `class ZS2C_A_Login`. -/
structure ZS2CALogin extends BaseMessage where
  iErrorCode : UInt32
  dynmicCode : UInt32
  iCount : UInt32
  iID : UInt32
  strName : List UInt8
  strIP : List UInt8
  wPort : UInt16
  state : UInt8
deriving DecidableEq, Repr

namespace ZS2CALogin

/-- `ZS2C_A_Login()`. -/
def new (junk : UInt16) (junkCode : UInt32) : ZS2CALogin where
  wSize := junk
  iMainProtocol := MainProtocol.fmZdqLogin.code
  iSubProtocol := SubProtocol.zs2cALogin.code
  iErrorCode := junkCode
  dynmicCode := 0
  iCount := 0
  iID := 0
  strName := []
  strIP := []
  wPort := 0
  state := 0xff

def put (msg : ZS2CALogin) (hmg : HMessage) : HMessage :=
  ((((msg.toBaseMessage.put hmg).putUInt msg.iErrorCode).2.putUInt msg.dynmicCode).2.putUInt
    msg.iCount).2

def get (msg : ZS2CALogin) (hmg : HMessage) : ZS2CALogin × HMessage :=
  let errorCode := hmg.getUInt
  let code := errorCode.2.getUInt
  let count := code.2.getUInt
  ({ msg with
      iErrorCode := errorCode.1
      dynmicCode := code.1
      iCount := count.1 }, count.2)

/-- `putServerData`: one entry of the server list. -/
def putServerData (msg : ZS2CALogin) (hmg : HMessage) : HMessage :=
  (((((hmg.putUInt msg.iID).2.putString msg.strName).2.putString msg.strIP).2.putUShort
    msg.wPort).2.putChar msg.state).2

/-- `getServerData`. -/
def getServerData (msg : ZS2CALogin) (hmg : HMessage) : ZS2CALogin × HMessage :=
  let id := hmg.getUInt
  let name := id.2.getString
  let ip := name.2.getString
  let port := ip.2.getUShort
  let byte := port.2.getByte
  ({ msg with
      iID := id.1
      strName := name.1
      strIP := ip.1
      wPort := port.1
      state := byte.1 }, byte.2)

end ZS2CALogin

/-- `class DS2ZS_R_CheckDynmicCode`. -/
structure DS2ZSRCheckDynmicCode extends BaseMessage where
  dynmicCode : UInt32
  sessionID : UInt32
  sessionIDFromDS : UInt32
deriving DecidableEq, Repr

namespace DS2ZSRCheckDynmicCode

/-- `DS2ZS_R_CheckDynmicCode()`. -/
def new (junk : UInt16) (junkField : UInt32) : DS2ZSRCheckDynmicCode where
  wSize := junk
  iMainProtocol := MainProtocol.fmQRoundMessage.code
  iSubProtocol := SubProtocol.ds2zsRCheckDynmicCode.code
  dynmicCode := junkField
  sessionID := junkField
  sessionIDFromDS := junkField

def put (msg : DS2ZSRCheckDynmicCode) (hmg : HMessage) : HMessage :=
  ((((msg.toBaseMessage.put hmg).putUInt msg.dynmicCode).2.putUInt msg.sessionID).2.putUInt
    msg.sessionIDFromDS).2

def get (msg : DS2ZSRCheckDynmicCode) (hmg : HMessage) : DS2ZSRCheckDynmicCode × HMessage :=
  let code := hmg.getUInt
  let session := code.2.getUInt
  let fromDS := session.2.getUInt
  ({ msg with
      dynmicCode := code.1
      sessionID := session.1
      sessionIDFromDS := fromDS.1 }, fromDS.2)

end DS2ZSRCheckDynmicCode

/-- `class ZS2DS_A_CheckDynmicCode`. -/
structure ZS2DSACheckDynmicCode extends BaseMessage where
  isOK : UInt32
  sessionIDFromDS : UInt32
deriving DecidableEq, Repr

namespace ZS2DSACheckDynmicCode

/-- `ZS2DS_A_CheckDynmicCode()`. -/
def new (junk : UInt16) (junkField : UInt32) : ZS2DSACheckDynmicCode where
  wSize := junk
  iMainProtocol := MainProtocol.fmQRoundMessage.code
  iSubProtocol := SubProtocol.zs2dsACheckDynmicCode.code
  isOK := junkField
  sessionIDFromDS := junkField

def put (msg : ZS2DSACheckDynmicCode) (hmg : HMessage) : HMessage :=
  (((msg.toBaseMessage.put hmg).putUInt msg.isOK).2.putUInt msg.sessionIDFromDS).2

end ZS2DSACheckDynmicCode

/-! ## Requests as values -/

/-- The field values of a request that `DealMsg` decodes. -/
inductive Request where
  | registerAccount (strAccount strPassword : List UInt8)
  | login (strAccount strPassword : List UInt8)
  | checkDynmicCode (dynmicCode sessionID sessionIDFromDS : UInt32)
deriving DecidableEq, Repr

namespace Request

/-- The sender's side: fill an object of the request's class and `put` it. -/
def put (junk : UInt16) (junkField : UInt32) : Request → HMessage → HMessage
  | registerAccount a p, hmg =>
    { C2ZSRRegisterAccount.new junk with strAccount := a, strPassword := p }.put hmg
  | login a p, hmg =>
    { C2ZSRLogin.new junk with strAccount := a, strPassword := p }.put hmg
  | checkDynmicCode c s d, hmg =>
    { DS2ZSRCheckDynmicCode.new junk junkField with
      dynmicCode := c, sessionID := s, sessionIDFromDS := d }.put hmg

/-- The bytes on the wire of a request put into a new message. -/
def frame (junk : UInt16) (junkField : UInt32) (junkMsg : Junk) (q : Request) : List UInt8 :=
  (q.put junk junkField (HMessage.new junkMsg)).finished

end Request

end ShootGame.Model
