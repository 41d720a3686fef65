import ShootGame.Model.Messages

/-!
# The other message classes of the server

The classes of `MyMsg.h` that `DealMsg` of the server does not use: the register
answer, which the database nodes send, and the messages of the hall and game servers.
Those whose text differs in the protocol numbers only share one definition.
-/

set_option autoImplicit false

namespace ShootGame.Model

open ShootGame.Library

/-- The members of `enum SubProtocol` that these classes use. -/
inductive OtherSubProtocol where
  | zs2cARegister
  | c2dsRAllRole
  | ds2cAAllRole
  | c2gsRCheckDynmicCode
  | gs2cACheckDynmicCode
  | gs2dsRCheckDynmicCode
  | ds2gsACheckDynmicCode
deriving DecidableEq, Repr

def OtherSubProtocol.code : OtherSubProtocol → UInt16
  | zs2cARegister => 2
  | c2dsRAllRole => 5
  | ds2cAAllRole => 6
  | c2gsRCheckDynmicCode => 1002
  | gs2cACheckDynmicCode => 1003
  | gs2dsRCheckDynmicCode => 1004
  | ds2gsACheckDynmicCode => 1005

/-- `ZB_ERROR_MESSAGE` of `enum MainProtocol`. -/
def zbErrorMessage : UInt16 := 0x2006

/-- The common text of `GS2C_A_Login` and `ZS2C_A_ErrorMessage`: an error code. -/
structure ErrorAnswer extends BaseMessage where
  iErrorCode : UInt32
deriving DecidableEq, Repr

namespace ErrorAnswer

/-- The constructor, for the protocol numbers of the class. -/
def new (main sub : UInt16) (junk : UInt16) (junkField : UInt32) : ErrorAnswer where
  wSize := junk
  iMainProtocol := main
  iSubProtocol := sub
  iErrorCode := junkField

def put (msg : ErrorAnswer) (hmg : HMessage) : HMessage :=
  ((msg.toBaseMessage.put hmg).putUInt msg.iErrorCode).2

def get (msg : ErrorAnswer) (hmg : HMessage) : ErrorAnswer × HMessage :=
  let errorCode := hmg.getUInt
  ({ msg with iErrorCode := errorCode.1 }, errorCode.2)

end ErrorAnswer

/-- `GS2C_A_Login`. -/
abbrev GS2CALogin := ErrorAnswer

def GS2CALogin.new (junk : UInt16) (junkField : UInt32) : GS2CALogin :=
  ErrorAnswer.new MainProtocol.fmZdqLogin.code OtherSubProtocol.gs2cACheckDynmicCode.code
    junk junkField

/-- `ZS2C_A_ErrorMessage`; its sub protocol is a literal. -/
abbrev ZS2CAErrorMessage := ErrorAnswer

def ZS2CAErrorMessage.new (junk : UInt16) (junkField : UInt32) : ZS2CAErrorMessage :=
  ErrorAnswer.new zbErrorMessage 2 junk junkField

/-- `class ZS2C_A_RegisterAccount`. -/
structure ZS2CARegisterAccount extends BaseMessage where
  iErrorCode : UInt32
  iErrorCodeIndex : UInt32
deriving DecidableEq, Repr

namespace ZS2CARegisterAccount

def new (junk : UInt16) (junkField : UInt32) : ZS2CARegisterAccount where
  wSize := junk
  iMainProtocol := MainProtocol.fmZdqLogin.code
  iSubProtocol := OtherSubProtocol.zs2cARegister.code
  iErrorCode := junkField
  iErrorCodeIndex := junkField

def put (msg : ZS2CARegisterAccount) (hmg : HMessage) : HMessage :=
  (((msg.toBaseMessage.put hmg).putUInt msg.iErrorCode).2.putUInt msg.iErrorCodeIndex).2

/-- `get` reads the first of the two fields only. -/
def get (msg : ZS2CARegisterAccount) (hmg : HMessage) : ZS2CARegisterAccount × HMessage :=
  let errorCode := hmg.getUInt
  ({ msg with iErrorCode := errorCode.1 }, errorCode.2)

end ZS2CARegisterAccount

/-- The common text of `C2DS_R_GetAllRole` and `GS2DS_R_CheckDynmicCode`: a dynamic code
and a session. -/
structure CodeRequest extends BaseMessage where
  dynmicCode : UInt32
  sessionID : UInt32
deriving DecidableEq, Repr

namespace CodeRequest

/-- The constructor, for the protocol numbers of the class. -/
def new (main sub : UInt16) (junk : UInt16) (junkField : UInt32) : CodeRequest where
  wSize := junk
  iMainProtocol := main
  iSubProtocol := sub
  dynmicCode := junkField
  sessionID := junkField

def put (msg : CodeRequest) (hmg : HMessage) : HMessage :=
  (((msg.toBaseMessage.put hmg).putUInt msg.dynmicCode).2.putUInt msg.sessionID).2

def get (msg : CodeRequest) (hmg : HMessage) : CodeRequest × HMessage :=
  let code := hmg.getUInt
  let session := code.2.getUInt
  ({ msg with dynmicCode := code.1, sessionID := session.1 }, session.2)

end CodeRequest

/-- `C2DS_R_GetAllRole`. -/
abbrev C2DSRGetAllRole := CodeRequest

def C2DSRGetAllRole.new (junk : UInt16) (junkField : UInt32) : C2DSRGetAllRole :=
  CodeRequest.new MainProtocol.fmZdqLogin.code OtherSubProtocol.c2dsRAllRole.code junk junkField

/-- `GS2DS_R_CheckDynmicCode`. -/
abbrev GS2DSRCheckDynmicCode := CodeRequest

def GS2DSRCheckDynmicCode.new (junk : UInt16) (junkField : UInt32) : GS2DSRCheckDynmicCode :=
  CodeRequest.new MainProtocol.fmQRoundMessage.code
    OtherSubProtocol.gs2dsRCheckDynmicCode.code junk junkField

/-- `class DS2C_A_GetAllRole`. -/
structure DS2CAGetAllRole extends BaseMessage where
  iCount : UInt32
  rolename : List UInt8
deriving DecidableEq, Repr

namespace DS2CAGetAllRole

def new (junk : UInt16) (junkField : UInt32) : DS2CAGetAllRole where
  wSize := junk
  iMainProtocol := MainProtocol.fmZdqLogin.code
  iSubProtocol := OtherSubProtocol.ds2cAAllRole.code
  iCount := junkField
  rolename := []

def put (msg : DS2CAGetAllRole) (hmg : HMessage) : HMessage :=
  ((msg.toBaseMessage.put hmg).putUInt msg.iCount).2

def putRole (msg : DS2CAGetAllRole) (hmg : HMessage) : HMessage :=
  (hmg.putString msg.rolename).2

/-- `get` reads a name, not the count that `put` writes. -/
def get (msg : DS2CAGetAllRole) (hmg : HMessage) : DS2CAGetAllRole × HMessage :=
  let name := hmg.getString
  ({ msg with rolename := name.1 }, name.2)

def getRole (msg : DS2CAGetAllRole) (hmg : HMessage) : DS2CAGetAllRole × HMessage :=
  let name := hmg.getString
  ({ msg with rolename := name.1 }, name.2)

end DS2CAGetAllRole

/-- `get` of `ZS2DS_A_CheckDynmicCode`. -/
def ZS2DSACheckDynmicCode.get (msg : ZS2DSACheckDynmicCode) (hmg : HMessage) :
    ZS2DSACheckDynmicCode × HMessage :=
  let isOK := hmg.getUInt
  let session := isOK.2.getUInt
  ({ msg with isOK := isOK.1, sessionIDFromDS := session.1 }, session.2)

/-- `class DS2GS_A_CheckDynmicCode`. -/
structure DS2GSACheckDynmicCode extends BaseMessage where
  isOK : UInt32
  sessionID : UInt32
deriving DecidableEq, Repr

namespace DS2GSACheckDynmicCode

def new (junk : UInt16) (junkField : UInt32) : DS2GSACheckDynmicCode where
  wSize := junk
  iMainProtocol := MainProtocol.fmQRoundMessage.code
  iSubProtocol := OtherSubProtocol.ds2gsACheckDynmicCode.code
  isOK := junkField
  sessionID := junkField

def put (msg : DS2GSACheckDynmicCode) (hmg : HMessage) : HMessage :=
  (((msg.toBaseMessage.put hmg).putUInt msg.isOK).2.putUInt msg.sessionID).2

def get (msg : DS2GSACheckDynmicCode) (hmg : HMessage) : DS2GSACheckDynmicCode × HMessage :=
  let isOK := hmg.getUInt
  let session := isOK.2.getUInt
  ({ msg with isOK := isOK.1, sessionID := session.1 }, session.2)

end DS2GSACheckDynmicCode

/-- `class C2GS_R_Login`: a header without fields. -/
structure C2GSRLogin extends BaseMessage
deriving DecidableEq, Repr

namespace C2GSRLogin

def new (junk : UInt16) : C2GSRLogin where
  wSize := junk
  iMainProtocol := MainProtocol.fmZdqLogin.code
  iSubProtocol := OtherSubProtocol.c2gsRCheckDynmicCode.code

def put (msg : C2GSRLogin) (hmg : HMessage) : HMessage := msg.toBaseMessage.put hmg

def get (msg : C2GSRLogin) (hmg : HMessage) : C2GSRLogin × HMessage := (msg, hmg)

end C2GSRLogin

end ShootGame.Model
