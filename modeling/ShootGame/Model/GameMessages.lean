import ShootGame.Model.GameHMsg
import ShootGame.Model.MessageClasses

/-!
# The client's copy of the message classes

The reading side of `GameHMsg.h`, and all message classes that it declares.  As in
`GameHMsg`, everything is embedded from the client's text; what `toServer` makes of an
object has the same field values in the server's class of that name.
-/

set_option autoImplicit false

namespace ShootGame.Model

open ShootGame.Library

namespace GameHMsg

/-! ## The getters -/

/-- `getUShort`: a plain 16-bit load, without a check. -/
def getUShort (hmg : HMessage) : UInt16 × HMessage :=
  (hmg.byBuffer.wordAt hmg.iPos, addPosition 2 (hmg.noteRead 2))

/-- `getUInt`: most significant byte first, without a check. -/
def getUInt (hmg : HMessage) : UInt32 × HMessage :=
  (hmg.byBuffer.dwordAt hmg.iPos, addPosition 4 (hmg.noteRead 4))

def getByte (hmg : HMessage) : UInt8 × HMessage :=
  (hmg.byBuffer hmg.iPos, addPosition 1 (hmg.noteRead 1))

/-- `getString`: copies as many bytes as the length says and keeps what stands before the
first NUL. -/
def getString (hmg : HMessage) : List UInt8 × HMessage :=
  let r := getUShort hmg
  let iLen := r.1.toNat
  let pData := r.2.byBuffer.load r.2.iPos iLen
  (cString pData, { r.2.noteRead iLen with iPos := r.2.iPos + iLen })

/-- The client's `getUShort` is the server's. -/
@[simp] theorem getUShort_eq (hmg : HMessage) : getUShort hmg = hmg.getUShort := rfl

/-- The client's `getUInt` is the server's. -/
@[simp] theorem getUInt_eq (hmg : HMessage) : getUInt hmg = hmg.getUInt := rfl

/-- The client's `getByte` is the server's. -/
@[simp] theorem getByte_eq (hmg : HMessage) : getByte hmg = hmg.getByte := rfl

/-- The client's `getString` is the server's. -/
@[simp] theorem getString_eq (hmg : HMessage) : getString hmg = hmg.getString := rfl

/-- The client's `putUInt` is the server's. -/
@[simp] theorem putUInt_eq (data : UInt32) (hmg : HMessage) :
    putUInt data hmg = hmg.putUInt data := rfl

/-- The client puts a header as the server does. -/
theorem BaseMessage.put_eq (msg : BaseMessage) (hmg : HMessage) :
    msg.put hmg = msg.toServer.put hmg := by
  simp only [BaseMessage.put, putUShort_eq]
  rfl

/-! ## Protocol numbers -/

/-- The other members of `enum SubProtocol` of the client. -/
def otherSubCode : OtherSubProtocol → UInt16
  | .zs2cARegister => 2
  | .c2dsRAllRole => 5
  | .ds2cAAllRole => 6
  | .c2gsRCheckDynmicCode => 1002
  | .gs2cACheckDynmicCode => 1003
  | .gs2dsRCheckDynmicCode => 1004
  | .ds2gsACheckDynmicCode => 1005

/-- `ZB_ERROR_MESSAGE` of the client. -/
def zbErrorMessage : UInt16 := 0x2006

/-- The other sub protocols have the same numbers on both sides. -/
theorem otherSubCode_eq (sub : OtherSubProtocol) : otherSubCode sub = sub.code := by
  cases sub <;> rfl

/-! ## The classes -/

def BaseMessage.get (hmg : HMessage) : BaseMessage × HMessage :=
  let size := getUShort hmg
  let main := getUShort size.2
  let sub := getUShort main.2
  (⟨size.1, main.1, sub.1⟩, sub.2)

def AccountRequest.get (msg : AccountRequest) (hmg : HMessage) : AccountRequest × HMessage :=
  let account := getString hmg
  let password := getString account.2
  ({ msg with strAccount := account.1, strPassword := password.1 }, password.2)

/-- `ZS2C_A_Login` of the client. -/
structure ZS2CALogin extends BaseMessage where
  iErrorCode : UInt32
  dynmicCode : UInt32
  iCount : UInt32
  iID : UInt32
  strName : List UInt8
  strIP : List UInt8
  wPort : UInt16
  state : UInt8
deriving DecidableEq, Repr

namespace ZS2CALogin

def new (junk : UInt16) (junkCode : UInt32) : ZS2CALogin where
  size := junk
  iMainProtocol := mainCode .fmZdqLogin
  iSubProtocol := subCode .zs2cALogin
  iErrorCode := junkCode
  dynmicCode := 0
  iCount := 0
  iID := 0
  strName := []
  strIP := []
  wPort := 0
  state := 0xff

def put (msg : ZS2CALogin) (hmg : HMessage) : HMessage :=
  (putUInt msg.iCount (putUInt msg.dynmicCode
    (putUInt msg.iErrorCode (msg.toBaseMessage.put hmg)).2).2).2

def get (msg : ZS2CALogin) (hmg : HMessage) : ZS2CALogin × HMessage :=
  let errorCode := getUInt hmg
  let code := getUInt errorCode.2
  let count := getUInt code.2
  ({ msg with
      iErrorCode := errorCode.1
      dynmicCode := code.1
      iCount := count.1 }, count.2)

def putServerData (msg : ZS2CALogin) (hmg : HMessage) : HMessage :=
  (putChar msg.state (putUShort msg.wPort (putString msg.strIP
    (putString msg.strName (putUInt msg.iID hmg).2).2).2).2).2

def getServerData (msg : ZS2CALogin) (hmg : HMessage) : ZS2CALogin × HMessage :=
  let id := getUInt hmg
  let name := getString id.2
  let ip := getString name.2
  let port := getUShort ip.2
  let byte := getByte port.2
  ({ msg with
      iID := id.1
      strName := name.1
      strIP := ip.1
      wPort := port.1
      state := byte.1 }, byte.2)

def toServer (msg : ZS2CALogin) : Model.ZS2CALogin :=
  ⟨msg.toBaseMessage.toServer, msg.iErrorCode, msg.dynmicCode, msg.iCount, msg.iID,
    msg.strName, msg.strIP, msg.wPort, msg.state⟩

end ZS2CALogin

/-- The common text of the client's `GS2C_A_Login` and `ZS2C_A_ErrorMessage`. -/
structure ErrorAnswer extends BaseMessage where
  iErrorCode : UInt32
deriving DecidableEq, Repr

namespace ErrorAnswer

def new (main sub : UInt16) (junk : UInt16) (junkField : UInt32) : ErrorAnswer where
  size := junk
  iMainProtocol := main
  iSubProtocol := sub
  iErrorCode := junkField

def put (msg : ErrorAnswer) (hmg : HMessage) : HMessage :=
  (putUInt msg.iErrorCode (msg.toBaseMessage.put hmg)).2

def get (msg : ErrorAnswer) (hmg : HMessage) : ErrorAnswer × HMessage :=
  let errorCode := getUInt hmg
  ({ msg with iErrorCode := errorCode.1 }, errorCode.2)

def toServer (msg : ErrorAnswer) : Model.ErrorAnswer :=
  ⟨msg.toBaseMessage.toServer, msg.iErrorCode⟩

end ErrorAnswer

/-- `GS2C_A_Login` of the client. -/
abbrev GS2CALogin := ErrorAnswer

def GS2CALogin.new (junk : UInt16) (junkField : UInt32) : GS2CALogin :=
  ErrorAnswer.new (mainCode .fmZdqLogin) (otherSubCode .gs2cACheckDynmicCode) junk junkField

/-- `ZS2C_A_ErrorMessage` of the client. -/
abbrev ZS2CAErrorMessage := ErrorAnswer

def ZS2CAErrorMessage.new (junk : UInt16) (junkField : UInt32) : ZS2CAErrorMessage :=
  ErrorAnswer.new zbErrorMessage 2 junk junkField

/-- `ZS2C_A_RegisterAccount` of the client. -/
structure ZS2CARegisterAccount extends BaseMessage where
  iErrorCode : UInt32
  iErrorCodeIndex : UInt32
deriving DecidableEq, Repr

namespace ZS2CARegisterAccount

def new (junk : UInt16) (junkField : UInt32) : ZS2CARegisterAccount where
  size := junk
  iMainProtocol := mainCode .fmZdqLogin
  iSubProtocol := otherSubCode .zs2cARegister
  iErrorCode := junkField
  iErrorCodeIndex := junkField

def put (msg : ZS2CARegisterAccount) (hmg : HMessage) : HMessage :=
  (putUInt msg.iErrorCodeIndex (putUInt msg.iErrorCode (msg.toBaseMessage.put hmg)).2).2

/-- `get` reads both fields. -/
def get (msg : ZS2CARegisterAccount) (hmg : HMessage) : ZS2CARegisterAccount × HMessage :=
  let errorCode := getUInt hmg
  let index := getUInt errorCode.2
  ({ msg with iErrorCode := errorCode.1, iErrorCodeIndex := index.1 }, index.2)

def toServer (msg : ZS2CARegisterAccount) : Model.ZS2CARegisterAccount :=
  ⟨msg.toBaseMessage.toServer, msg.iErrorCode, msg.iErrorCodeIndex⟩

end ZS2CARegisterAccount

/-- The common text of the client's `C2DS_R_GetAllRole` and `GS2DS_R_CheckDynmicCode`. -/
structure CodeRequest extends BaseMessage where
  dynmicCode : UInt32
  sessionID : UInt32
deriving DecidableEq, Repr

namespace CodeRequest

def new (main sub : UInt16) (junk : UInt16) (junkField : UInt32) : CodeRequest where
  size := junk
  iMainProtocol := main
  iSubProtocol := sub
  dynmicCode := junkField
  sessionID := junkField

def put (msg : CodeRequest) (hmg : HMessage) : HMessage :=
  (putUInt msg.sessionID (putUInt msg.dynmicCode (msg.toBaseMessage.put hmg)).2).2

def get (msg : CodeRequest) (hmg : HMessage) : CodeRequest × HMessage :=
  let code := getUInt hmg
  let session := getUInt code.2
  ({ msg with dynmicCode := code.1, sessionID := session.1 }, session.2)

def toServer (msg : CodeRequest) : Model.CodeRequest :=
  ⟨msg.toBaseMessage.toServer, msg.dynmicCode, msg.sessionID⟩

end CodeRequest

/-- `C2DS_R_GetAllRole` of the client. -/
abbrev C2DSRGetAllRole := CodeRequest

def C2DSRGetAllRole.new (junk : UInt16) (junkField : UInt32) : C2DSRGetAllRole :=
  CodeRequest.new (mainCode .fmZdqLogin) (otherSubCode .c2dsRAllRole) junk junkField

/-- `GS2DS_R_CheckDynmicCode` of the client. -/
abbrev GS2DSRCheckDynmicCode := CodeRequest

def GS2DSRCheckDynmicCode.new (junk : UInt16) (junkField : UInt32) : GS2DSRCheckDynmicCode :=
  CodeRequest.new (mainCode .fmQRoundMessage) (otherSubCode .gs2dsRCheckDynmicCode)
    junk junkField

/-- `DS2C_A_GetAllRole` of the client. -/
structure DS2CAGetAllRole extends BaseMessage where
  iCount : UInt32
  rolename : List UInt8
deriving DecidableEq, Repr

namespace DS2CAGetAllRole

def new (junk : UInt16) (junkField : UInt32) : DS2CAGetAllRole where
  size := junk
  iMainProtocol := mainCode .fmZdqLogin
  iSubProtocol := otherSubCode .ds2cAAllRole
  iCount := junkField
  rolename := []

def put (msg : DS2CAGetAllRole) (hmg : HMessage) : HMessage :=
  (putUInt msg.iCount (msg.toBaseMessage.put hmg)).2

def putRole (msg : DS2CAGetAllRole) (hmg : HMessage) : HMessage :=
  (putString msg.rolename hmg).2

/-- `get` reads a name, as the server's does. -/
def get (msg : DS2CAGetAllRole) (hmg : HMessage) : DS2CAGetAllRole × HMessage :=
  let name := getString hmg
  ({ msg with rolename := name.1 }, name.2)

def getRole (msg : DS2CAGetAllRole) (hmg : HMessage) : DS2CAGetAllRole × HMessage :=
  let name := getString hmg
  ({ msg with rolename := name.1 }, name.2)

def toServer (msg : DS2CAGetAllRole) : Model.DS2CAGetAllRole :=
  ⟨msg.toBaseMessage.toServer, msg.iCount, msg.rolename⟩

end DS2CAGetAllRole

/-- `DS2ZS_R_CheckDynmicCode` of the client. -/
structure DS2ZSRCheckDynmicCode extends BaseMessage where
  dynmicCode : UInt32
  sessionID : UInt32
  sessionIDFromDS : UInt32
deriving DecidableEq, Repr

namespace DS2ZSRCheckDynmicCode

def new (junk : UInt16) (junkField : UInt32) : DS2ZSRCheckDynmicCode where
  size := junk
  iMainProtocol := mainCode .fmQRoundMessage
  iSubProtocol := subCode .ds2zsRCheckDynmicCode
  dynmicCode := junkField
  sessionID := junkField
  sessionIDFromDS := junkField

def put (msg : DS2ZSRCheckDynmicCode) (hmg : HMessage) : HMessage :=
  (putUInt msg.sessionIDFromDS (putUInt msg.sessionID
    (putUInt msg.dynmicCode (msg.toBaseMessage.put hmg)).2).2).2

def get (msg : DS2ZSRCheckDynmicCode) (hmg : HMessage) : DS2ZSRCheckDynmicCode × HMessage :=
  let code := getUInt hmg
  let session := getUInt code.2
  let fromDS := getUInt session.2
  ({ msg with
      dynmicCode := code.1
      sessionID := session.1
      sessionIDFromDS := fromDS.1 }, fromDS.2)

def toServer (msg : DS2ZSRCheckDynmicCode) : Model.DS2ZSRCheckDynmicCode :=
  ⟨msg.toBaseMessage.toServer, msg.dynmicCode, msg.sessionID, msg.sessionIDFromDS⟩

end DS2ZSRCheckDynmicCode

/-- `ZS2DS_A_CheckDynmicCode` of the client. -/
structure ZS2DSACheckDynmicCode extends BaseMessage where
  isOK : UInt32
  sessionIDFromDS : UInt32
deriving DecidableEq, Repr

namespace ZS2DSACheckDynmicCode

def new (junk : UInt16) (junkField : UInt32) : ZS2DSACheckDynmicCode where
  size := junk
  iMainProtocol := mainCode .fmQRoundMessage
  iSubProtocol := subCode .zs2dsACheckDynmicCode
  isOK := junkField
  sessionIDFromDS := junkField

def put (msg : ZS2DSACheckDynmicCode) (hmg : HMessage) : HMessage :=
  (putUInt msg.sessionIDFromDS (putUInt msg.isOK (msg.toBaseMessage.put hmg)).2).2

def get (msg : ZS2DSACheckDynmicCode) (hmg : HMessage) : ZS2DSACheckDynmicCode × HMessage :=
  let isOK := getUInt hmg
  let session := getUInt isOK.2
  ({ msg with isOK := isOK.1, sessionIDFromDS := session.1 }, session.2)

def toServer (msg : ZS2DSACheckDynmicCode) : Model.ZS2DSACheckDynmicCode :=
  ⟨msg.toBaseMessage.toServer, msg.isOK, msg.sessionIDFromDS⟩

end ZS2DSACheckDynmicCode

/-- `DS2GS_A_CheckDynmicCode` of the client. -/
structure DS2GSACheckDynmicCode extends BaseMessage where
  isOK : UInt32
  sessionID : UInt32
deriving DecidableEq, Repr

namespace DS2GSACheckDynmicCode

def new (junk : UInt16) (junkField : UInt32) : DS2GSACheckDynmicCode where
  size := junk
  iMainProtocol := mainCode .fmQRoundMessage
  iSubProtocol := otherSubCode .ds2gsACheckDynmicCode
  isOK := junkField
  sessionID := junkField

def put (msg : DS2GSACheckDynmicCode) (hmg : HMessage) : HMessage :=
  (putUInt msg.sessionID (putUInt msg.isOK (msg.toBaseMessage.put hmg)).2).2

def get (msg : DS2GSACheckDynmicCode) (hmg : HMessage) : DS2GSACheckDynmicCode × HMessage :=
  let isOK := getUInt hmg
  let session := getUInt isOK.2
  ({ msg with isOK := isOK.1, sessionID := session.1 }, session.2)

def toServer (msg : DS2GSACheckDynmicCode) : Model.DS2GSACheckDynmicCode :=
  ⟨msg.toBaseMessage.toServer, msg.isOK, msg.sessionID⟩

end DS2GSACheckDynmicCode

/-- `C2GS_R_Login` of the client. -/
structure C2GSRLogin extends BaseMessage
deriving DecidableEq, Repr

namespace C2GSRLogin

def new (junk : UInt16) : C2GSRLogin where
  size := junk
  iMainProtocol := mainCode .fmZdqLogin
  iSubProtocol := otherSubCode .c2gsRCheckDynmicCode

def put (msg : C2GSRLogin) (hmg : HMessage) : HMessage := msg.toBaseMessage.put hmg

def get (msg : C2GSRLogin) (hmg : HMessage) : C2GSRLogin × HMessage := (msg, hmg)

def toServer (msg : C2GSRLogin) : Model.C2GSRLogin := ⟨msg.toBaseMessage.toServer⟩

end C2GSRLogin

end GameHMsg

end ShootGame.Model
