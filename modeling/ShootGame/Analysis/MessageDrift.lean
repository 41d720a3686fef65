import ShootGame.Analysis.FieldRoundTrip
import ShootGame.Model.GameMessages

/-!
# The two copies of the message classes

`MessageClass` names the classes that `MyMsg.h` and `GameHMsg.h` both declare, and gives
for each the two types of objects and the two pairs of functions.  The puts agree for
all of them; the gets agree for all but `ZS2C_A_RegisterAccount`, whose `get` reads one
field on the server and two on the client.
-/

set_option autoImplicit false

namespace ShootGame.Analysis

open ShootGame.Library ShootGame.Model

/-- The classes that both headers declare. -/
inductive MessageClass where
  | baseMessage
  | c2zsRLogin
  | zs2cALogin
  | c2zsRRegisterAccount
  | zs2cARegisterAccount
  | c2dsRGetAllRole
  | ds2cAGetAllRole
  | ds2zsRCheckDynmicCode
  | zs2dsACheckDynmicCode
  | gs2cALogin
  | gs2dsRCheckDynmicCode
  | ds2gsACheckDynmicCode
  | c2gsRLogin
  | zs2cAErrorMessage
deriving DecidableEq, Repr

namespace MessageClass

/-- The objects of the class in `MyMsg.h`. -/
def Server : MessageClass → Type
  | baseMessage => BaseMessage
  | c2zsRLogin => C2ZSRLogin
  | zs2cALogin => ZS2CALogin
  | c2zsRRegisterAccount => C2ZSRRegisterAccount
  | zs2cARegisterAccount => ZS2CARegisterAccount
  | c2dsRGetAllRole => C2DSRGetAllRole
  | ds2cAGetAllRole => DS2CAGetAllRole
  | ds2zsRCheckDynmicCode => DS2ZSRCheckDynmicCode
  | zs2dsACheckDynmicCode => ZS2DSACheckDynmicCode
  | gs2cALogin => GS2CALogin
  | gs2dsRCheckDynmicCode => GS2DSRCheckDynmicCode
  | ds2gsACheckDynmicCode => DS2GSACheckDynmicCode
  | c2gsRLogin => C2GSRLogin
  | zs2cAErrorMessage => ZS2CAErrorMessage

/-- The objects of the class in `GameHMsg.h`. -/
def Game : MessageClass → Type
  | baseMessage => GameHMsg.BaseMessage
  | c2zsRLogin => GameHMsg.C2ZSRLogin
  | zs2cALogin => GameHMsg.ZS2CALogin
  | c2zsRRegisterAccount => GameHMsg.C2ZSRRegisterAccount
  | zs2cARegisterAccount => GameHMsg.ZS2CARegisterAccount
  | c2dsRGetAllRole => GameHMsg.C2DSRGetAllRole
  | ds2cAGetAllRole => GameHMsg.DS2CAGetAllRole
  | ds2zsRCheckDynmicCode => GameHMsg.DS2ZSRCheckDynmicCode
  | zs2dsACheckDynmicCode => GameHMsg.ZS2DSACheckDynmicCode
  | gs2cALogin => GameHMsg.GS2CALogin
  | gs2dsRCheckDynmicCode => GameHMsg.GS2DSRCheckDynmicCode
  | ds2gsACheckDynmicCode => GameHMsg.DS2GSACheckDynmicCode
  | c2gsRLogin => GameHMsg.C2GSRLogin
  | zs2cAErrorMessage => GameHMsg.ZS2CAErrorMessage

/-- The server's object with the field values of a client's object. -/
def toServer : (k : MessageClass) → k.Game → k.Server
  | baseMessage, msg => GameHMsg.BaseMessage.toServer msg
  | c2zsRLogin, msg => GameHMsg.AccountRequest.toServer msg
  | zs2cALogin, msg => GameHMsg.ZS2CALogin.toServer msg
  | c2zsRRegisterAccount, msg => GameHMsg.AccountRequest.toServer msg
  | zs2cARegisterAccount, msg => GameHMsg.ZS2CARegisterAccount.toServer msg
  | c2dsRGetAllRole, msg => GameHMsg.CodeRequest.toServer msg
  | ds2cAGetAllRole, msg => GameHMsg.DS2CAGetAllRole.toServer msg
  | ds2zsRCheckDynmicCode, msg => GameHMsg.DS2ZSRCheckDynmicCode.toServer msg
  | zs2dsACheckDynmicCode, msg => GameHMsg.ZS2DSACheckDynmicCode.toServer msg
  | gs2cALogin, msg => GameHMsg.ErrorAnswer.toServer msg
  | gs2dsRCheckDynmicCode, msg => GameHMsg.CodeRequest.toServer msg
  | ds2gsACheckDynmicCode, msg => GameHMsg.DS2GSACheckDynmicCode.toServer msg
  | c2gsRLogin, msg => GameHMsg.C2GSRLogin.toServer msg
  | zs2cAErrorMessage, msg => GameHMsg.ErrorAnswer.toServer msg

/-- `put` of the class in `MyMsg.h`. -/
def serverPut : (k : MessageClass) → k.Server → HMessage → HMessage
  | baseMessage => BaseMessage.put
  | c2zsRLogin => AccountRequest.put
  | zs2cALogin => ZS2CALogin.put
  | c2zsRRegisterAccount => AccountRequest.put
  | zs2cARegisterAccount => ZS2CARegisterAccount.put
  | c2dsRGetAllRole => CodeRequest.put
  | ds2cAGetAllRole => DS2CAGetAllRole.put
  | ds2zsRCheckDynmicCode => DS2ZSRCheckDynmicCode.put
  | zs2dsACheckDynmicCode => ZS2DSACheckDynmicCode.put
  | gs2cALogin => ErrorAnswer.put
  | gs2dsRCheckDynmicCode => CodeRequest.put
  | ds2gsACheckDynmicCode => DS2GSACheckDynmicCode.put
  | c2gsRLogin => C2GSRLogin.put
  | zs2cAErrorMessage => ErrorAnswer.put

/-- `put` of the class in `GameHMsg.h`. -/
def gamePut : (k : MessageClass) → k.Game → HMessage → HMessage
  | baseMessage => GameHMsg.BaseMessage.put
  | c2zsRLogin => GameHMsg.AccountRequest.put
  | zs2cALogin => GameHMsg.ZS2CALogin.put
  | c2zsRRegisterAccount => GameHMsg.AccountRequest.put
  | zs2cARegisterAccount => GameHMsg.ZS2CARegisterAccount.put
  | c2dsRGetAllRole => GameHMsg.CodeRequest.put
  | ds2cAGetAllRole => GameHMsg.DS2CAGetAllRole.put
  | ds2zsRCheckDynmicCode => GameHMsg.DS2ZSRCheckDynmicCode.put
  | zs2dsACheckDynmicCode => GameHMsg.ZS2DSACheckDynmicCode.put
  | gs2cALogin => GameHMsg.ErrorAnswer.put
  | gs2dsRCheckDynmicCode => GameHMsg.CodeRequest.put
  | ds2gsACheckDynmicCode => GameHMsg.DS2GSACheckDynmicCode.put
  | c2gsRLogin => GameHMsg.C2GSRLogin.put
  | zs2cAErrorMessage => GameHMsg.ErrorAnswer.put

/-- `get` of the class in `MyMsg.h`, on an object that keeps what it does not read. -/
def serverGet : (k : MessageClass) → k.Server → HMessage → k.Server × HMessage
  | baseMessage => fun _ => BaseMessage.get
  | c2zsRLogin => AccountRequest.get
  | zs2cALogin => ZS2CALogin.get
  | c2zsRRegisterAccount => AccountRequest.get
  | zs2cARegisterAccount => ZS2CARegisterAccount.get
  | c2dsRGetAllRole => CodeRequest.get
  | ds2cAGetAllRole => DS2CAGetAllRole.get
  | ds2zsRCheckDynmicCode => DS2ZSRCheckDynmicCode.get
  | zs2dsACheckDynmicCode => ZS2DSACheckDynmicCode.get
  | gs2cALogin => ErrorAnswer.get
  | gs2dsRCheckDynmicCode => CodeRequest.get
  | ds2gsACheckDynmicCode => DS2GSACheckDynmicCode.get
  | c2gsRLogin => C2GSRLogin.get
  | zs2cAErrorMessage => ErrorAnswer.get

/-- `get` of the class in `GameHMsg.h`. -/
def gameGet : (k : MessageClass) → k.Game → HMessage → k.Game × HMessage
  | baseMessage => fun _ => GameHMsg.BaseMessage.get
  | c2zsRLogin => GameHMsg.AccountRequest.get
  | zs2cALogin => GameHMsg.ZS2CALogin.get
  | c2zsRRegisterAccount => GameHMsg.AccountRequest.get
  | zs2cARegisterAccount => GameHMsg.ZS2CARegisterAccount.get
  | c2dsRGetAllRole => GameHMsg.CodeRequest.get
  | ds2cAGetAllRole => GameHMsg.DS2CAGetAllRole.get
  | ds2zsRCheckDynmicCode => GameHMsg.DS2ZSRCheckDynmicCode.get
  | zs2dsACheckDynmicCode => GameHMsg.ZS2DSACheckDynmicCode.get
  | gs2cALogin => GameHMsg.ErrorAnswer.get
  | gs2dsRCheckDynmicCode => GameHMsg.CodeRequest.get
  | ds2gsACheckDynmicCode => GameHMsg.DS2GSACheckDynmicCode.get
  | c2gsRLogin => GameHMsg.C2GSRLogin.get
  | zs2cAErrorMessage => GameHMsg.ErrorAnswer.get

/-- The constructor of the class in `MyMsg.h`; `BaseMessage` initialises nothing. -/
def serverNew (junk : UInt16) (junkField : UInt32) : (k : MessageClass) → k.Server
  | baseMessage => (⟨junk, junk, junk⟩ : BaseMessage)
  | c2zsRLogin => C2ZSRLogin.new junk
  | zs2cALogin => ZS2CALogin.new junk junkField
  | c2zsRRegisterAccount => C2ZSRRegisterAccount.new junk
  | zs2cARegisterAccount => ZS2CARegisterAccount.new junk junkField
  | c2dsRGetAllRole => C2DSRGetAllRole.new junk junkField
  | ds2cAGetAllRole => DS2CAGetAllRole.new junk junkField
  | ds2zsRCheckDynmicCode => DS2ZSRCheckDynmicCode.new junk junkField
  | zs2dsACheckDynmicCode => ZS2DSACheckDynmicCode.new junk junkField
  | gs2cALogin => GS2CALogin.new junk junkField
  | gs2dsRCheckDynmicCode => GS2DSRCheckDynmicCode.new junk junkField
  | ds2gsACheckDynmicCode => DS2GSACheckDynmicCode.new junk junkField
  | c2gsRLogin => C2GSRLogin.new junk
  | zs2cAErrorMessage => ZS2CAErrorMessage.new junk junkField

/-- The constructor of the class in `GameHMsg.h`. -/
def gameNew (junk : UInt16) (junkField : UInt32) : (k : MessageClass) → k.Game
  | baseMessage => (⟨junk, junk, junk⟩ : GameHMsg.BaseMessage)
  | c2zsRLogin => GameHMsg.C2ZSRLogin.new junk
  | zs2cALogin => GameHMsg.ZS2CALogin.new junk junkField
  | c2zsRRegisterAccount => GameHMsg.C2ZSRRegisterAccount.new junk
  | zs2cARegisterAccount => GameHMsg.ZS2CARegisterAccount.new junk junkField
  | c2dsRGetAllRole => GameHMsg.C2DSRGetAllRole.new junk junkField
  | ds2cAGetAllRole => GameHMsg.DS2CAGetAllRole.new junk junkField
  | ds2zsRCheckDynmicCode => GameHMsg.DS2ZSRCheckDynmicCode.new junk junkField
  | zs2dsACheckDynmicCode => GameHMsg.ZS2DSACheckDynmicCode.new junk junkField
  | gs2cALogin => GameHMsg.GS2CALogin.new junk junkField
  | gs2dsRCheckDynmicCode => GameHMsg.GS2DSRCheckDynmicCode.new junk junkField
  | ds2gsACheckDynmicCode => GameHMsg.DS2GSACheckDynmicCode.new junk junkField
  | c2gsRLogin => GameHMsg.C2GSRLogin.new junk
  | zs2cAErrorMessage => GameHMsg.ZS2CAErrorMessage.new junk junkField

/-- The constructors set the same protocol numbers and initial values. -/
theorem toServer_gameNew (k : MessageClass) (junk : UInt16) (junkField : UInt32) :
    k.toServer (k.gameNew junk junkField) = k.serverNew junk junkField := by
  cases k <;> rfl

end MessageClass

/-! ## The fields of a class -/

def headerFields (msg : BaseMessage) : List Field :=
  [.uShort msg.wSize, .uShort msg.iMainProtocol, .uShort msg.iSubProtocol]

def accountFields (msg : AccountRequest) : List Field :=
  headerFields msg.toBaseMessage ++ [.string msg.strAccount, .string msg.strPassword]

def loginFields (msg : ZS2CALogin) : List Field :=
  headerFields msg.toBaseMessage ++
    [.uInt msg.iErrorCode, .uInt msg.dynmicCode, .uInt msg.iCount]

def registerFields (msg : ZS2CARegisterAccount) : List Field :=
  headerFields msg.toBaseMessage ++ [.uInt msg.iErrorCode, .uInt msg.iErrorCodeIndex]

def codeFields (msg : CodeRequest) : List Field :=
  headerFields msg.toBaseMessage ++ [.uInt msg.dynmicCode, .uInt msg.sessionID]

def roleFields (msg : DS2CAGetAllRole) : List Field :=
  headerFields msg.toBaseMessage ++ [.uInt msg.iCount]

def hallCheckFields (msg : DS2ZSRCheckDynmicCode) : List Field :=
  headerFields msg.toBaseMessage ++
    [.uInt msg.dynmicCode, .uInt msg.sessionID, .uInt msg.sessionIDFromDS]

def hallAnswerFields (msg : ZS2DSACheckDynmicCode) : List Field :=
  headerFields msg.toBaseMessage ++ [.uInt msg.isOK, .uInt msg.sessionIDFromDS]

def gameAnswerFields (msg : DS2GSACheckDynmicCode) : List Field :=
  headerFields msg.toBaseMessage ++ [.uInt msg.isOK, .uInt msg.sessionID]

def errorFields (msg : ErrorAnswer) : List Field :=
  headerFields msg.toBaseMessage ++ [.uInt msg.iErrorCode]

namespace MessageClass

/-- What `put` writes for an object, field by field. -/
def fields : (k : MessageClass) → k.Server → List Field
  | baseMessage => headerFields
  | c2zsRLogin => accountFields
  | zs2cALogin => loginFields
  | c2zsRRegisterAccount => accountFields
  | zs2cARegisterAccount => registerFields
  | c2dsRGetAllRole => codeFields
  | ds2cAGetAllRole => roleFields
  | ds2zsRCheckDynmicCode => hallCheckFields
  | zs2dsACheckDynmicCode => hallAnswerFields
  | gs2cALogin => errorFields
  | gs2dsRCheckDynmicCode => codeFields
  | ds2gsACheckDynmicCode => gameAnswerFields
  | c2gsRLogin => fun msg => headerFields (C2GSRLogin.toBaseMessage msg)
  | zs2cAErrorMessage => errorFields

/-- The server's `put` of a class makes the puts of its fields in order. -/
theorem serverPut_eq_runPuts (k : MessageClass) (msg : k.Server) (hmg : HMessage) :
    k.serverPut msg hmg = (runPuts Put.run ((k.fields msg).map Field.put) hmg).2 := by
  cases k <;>
    simp only [serverPut, fields, headerFields, accountFields, loginFields, registerFields,
      codeFields, roleFields, hallCheckFields, hallAnswerFields, gameAnswerFields, errorFields,
      BaseMessage.put, AccountRequest.put, ZS2CALogin.put, ZS2CARegisterAccount.put,
      CodeRequest.put, DS2CAGetAllRole.put, DS2ZSRCheckDynmicCode.put,
      ZS2DSACheckDynmicCode.put, DS2GSACheckDynmicCode.put, C2GSRLogin.put, ErrorAnswer.put,
      List.cons_append, List.nil_append, List.map_cons, List.map_nil, Field.put,
      runPuts_cons_snd, runPuts_nil, Put.run]

/-- The client's `put` of a class is the server's on the same fields. -/
theorem gamePut_eq (k : MessageClass) (msg : k.Game) (hmg : HMessage) :
    k.gamePut msg hmg = k.serverPut (k.toServer msg) hmg := by
  cases k <;>
    simp only [gamePut, serverPut, toServer, GameHMsg.AccountRequest.put, AccountRequest.put,
      GameHMsg.ZS2CALogin.put, GameHMsg.ZS2CARegisterAccount.put, GameHMsg.CodeRequest.put,
      GameHMsg.DS2CAGetAllRole.put, GameHMsg.DS2ZSRCheckDynmicCode.put,
      GameHMsg.ZS2DSACheckDynmicCode.put, GameHMsg.DS2GSACheckDynmicCode.put,
      GameHMsg.C2GSRLogin.put, GameHMsg.ErrorAnswer.put, GameHMsg.BaseMessage.put_eq,
      GameHMsg.putUInt_eq, GameHMsg.putString_eq] <;>
    rfl

/-- Either put function writes the fields of the object. -/
theorem serverPut_extends (k : MessageClass) {msg : k.Server}
    (hfit : fieldsSize (k.fields msg) < 10000) (junk : Junk) :
    Extends (HMessage.new junk) (k.serverPut msg (HMessage.new junk))
      ((k.fields msg).flatMap Field.bytes) := by
  rw [serverPut_eq_runPuts]
  have hempty := Extends.refl (HMessage.new junk)
  simpa using fields_written hempty le_rfl (by simpa using hfit)

end MessageClass

/-! ## Agreement -/

/-- The two puts of an object that fits the client's buffer write the same bytes and end
at the same cursor. -/
def PutsAgree (k : MessageClass) (msg : k.Game) : Prop :=
  fieldsSize (k.fields (k.toServer msg)) ≤ GameHMsg.bufferSize → ∀ junk junk', ∃ bs,
    Extends (HMessage.new junk) (k.serverPut (k.toServer msg) (HMessage.new junk)) bs ∧
      Extends (HMessage.new junk') (k.gamePut msg (HMessage.new junk')) bs

/-- The two gets yield the same field values and the same cursor. -/
def GetsAgree (k : MessageClass) (msg : k.Game) (hmg : HMessage) : Prop :=
  (k.serverGet (k.toServer msg) hmg).1 = k.toServer (k.gameGet msg hmg).1 ∧
    (k.serverGet (k.toServer msg) hmg).2.iPos = (k.gameGet msg hmg).2.iPos

/-- The two puts of every class agree. -/
theorem putsAgree (k : MessageClass) (msg : k.Game) : PutsAgree k msg := by
  intro hfit junk junk'
  have hfit' : fieldsSize (k.fields (k.toServer msg)) < 10000 := by
    unfold GameHMsg.bufferSize at hfit
    omega
  refine ⟨(k.fields (k.toServer msg)).flatMap Field.bytes, ?_, ?_⟩
  · exact k.serverPut_extends hfit' junk
  · rw [k.gamePut_eq]
    exact k.serverPut_extends hfit' junk'

/-- The two gets agree, but for one class. -/
theorem getsAgree_of_ne {k : MessageClass} (hk : k ≠ .zs2cARegisterAccount) (msg : k.Game)
    (hmg : HMessage) : GetsAgree k msg hmg := by
  cases k with
  | zs2cARegisterAccount => exact absurd rfl hk
  | _ => exact ⟨rfl, rfl⟩

/-- The client's cursor ends four bytes behind the server's. -/
theorem not_getsAgree_register (msg : GameHMsg.ZS2CARegisterAccount) (hmg : HMessage) :
    ¬GetsAgree .zs2cARegisterAccount msg hmg := by
  intro h
  have hserver : (ZS2CARegisterAccount.get msg.toServer hmg).2.iPos = hmg.iPos + 4 := rfl
  have hgame : (msg.get hmg).2.iPos = hmg.iPos + 4 + 4 := rfl
  have hcursor : (ZS2CARegisterAccount.get msg.toServer hmg).2.iPos = (msg.get hmg).2.iPos := h.2
  omega

/-- The copies of a class agree, on any object and any buffer, exactly if the class is
not `ZS2C_A_RegisterAccount`. -/
theorem copies_agree_iff (k : MessageClass) (msg : k.Game) (hmg : HMessage) :
    PutsAgree k msg ∧ GetsAgree k msg hmg ↔ k ≠ .zs2cARegisterAccount := by
  constructor
  · rintro ⟨-, hgets⟩ rfl
    exact not_getsAgree_register msg hmg hgets
  · intro hk
    exact ⟨putsAgree k msg, getsAgree_of_ne hk msg hmg⟩

/-- The entries of a server list are written and read alike. -/
theorem serverData_agree (msg : GameHMsg.ZS2CALogin) (hmg : HMessage) :
    msg.putServerData hmg = msg.toServer.putServerData hmg ∧
      msg.toServer.getServerData hmg =
        ((msg.getServerData hmg).1.toServer, (msg.getServerData hmg).2) := by
  constructor
  · unfold GameHMsg.ZS2CALogin.putServerData ZS2CALogin.putServerData
    simp only [GameHMsg.putUInt_eq, GameHMsg.putString_eq, GameHMsg.putUShort_eq]
    rfl
  · rfl

/-- The entries of the role list are put and got alike. -/
theorem role_agree (msg : GameHMsg.DS2CAGetAllRole) (hmg : HMessage) :
    msg.putRole hmg = msg.toServer.putRole hmg ∧
      msg.toServer.getRole hmg = ((msg.getRole hmg).1.toServer, (msg.getRole hmg).2) := by
  constructor
  · unfold GameHMsg.DS2CAGetAllRole.putRole DS2CAGetAllRole.putRole
    simp only [GameHMsg.putString_eq]
    rfl
  · rfl

/-- The reads of both gets stay inside the bytes the message was made of. -/
def GetsInside (k : MessageClass) (msg : k.Game) (hmg : HMessage) : Prop :=
  ∀ after ∈ [(k.serverGet (k.toServer msg) hmg).2, (k.gameGet msg hmg).2],
    ∀ a ∈ after.accesses.drop hmg.accesses.length, 0 ≤ a.start ∧
      a.start + a.len ≤ hmg.iDataUseSize

/-- A register answer of 14 bytes, behind its header. -/
def registerAnswer : HMessage :=
  (BaseMessage.get (HMessage.ofData ⟨fun _ => 0, 0, 0⟩
    [14, 0, 0x01, 0x20, 2, 0, 0, 0, 0, 1, 0, 0, 0, 77])).2

/-- The two gets of a register answer differ. -/
theorem registerAnswer_drift :
    let msg := GameHMsg.ZS2CARegisterAccount.new 0 0
    GetsInside .zs2cARegisterAccount msg registerAnswer ∧
      ¬GetsAgree .zs2cARegisterAccount msg registerAnswer := by
  refine ⟨?_, not_getsAgree_register _ _⟩
  unfold GetsInside
  decide

end ShootGame.Analysis
