import ShootGame.Model.Network

/-!
# The message logic

`MsgLogic`: the batch of messages being dealt with and its own copy of the session
table.  `dealOne` is the body of the loop of `DealMsg` up to the send, the branches
in the order of the source; the loop itself is a part of the main program, since
other threads run between its iterations.
-/

set_option autoImplicit false

namespace ShootGame.Model

open ShootGame.Library

/-- `class MsgLogic`, without the finished database nodes. -/
structure MsgLogic where
  vecAllClientMsg : List HMessage
  mapAllClient : Std.TreeMap Int (Option SessionClient)

/-- What the uninitialised fields of the local objects of `DealMsg` hold. -/
structure DealJunk where
  wSize : UInt16
  field : UInt32
  sendHmg : Junk

/-- What one iteration of `DealMsg` did with its message, before it sends. -/
structure Dealt where
  /-- The message, its cursor moved by the getters. -/
  hmg : HMessage
  /-- The request that was decoded, where one was. -/
  request : Option Request
  /-- The answer to send, where there is one. -/
  reply : Option HMessage
  /-- `CheckDynmicCode` dereferenced a null entry. -/
  nullEntry : Bool

namespace MsgLogic

/-- The message logic before `main` has called anything. -/
def empty : MsgLogic where
  vecAllClientMsg := []
  mapAllClient := ∅

def getvecMsg (vecmsg : List HMessage) (logic : MsgLogic) : MsgLogic :=
  { logic with vecAllClientMsg := vecmsg }

def getmapAllClient (mapClient : Std.TreeMap Int (Option SessionClient)) (logic : MsgLogic) :
    MsgLogic :=
  { logic with mapAllClient := mapClient }

/-- The loop of `CheckDynmicCode`; `none` where it dereferences a null entry.  The
codes are compared as unsigned numbers, the ids as signed ones. -/
def searchClient (id dc : Int) : List (Int × Option SessionClient) → Option Bool
  | [] => some false
  | (_, none) :: _ => none
  | (_, some session) :: rest =>
    if id = session.iID ∧ UInt32.ofInt dc = session.dynmicCode.read then some true
    else searchClient id dc rest

def checkDynmicCode (id dc : Int) (logic : MsgLogic) : Option Bool :=
  searchClient id dc logic.mapAllClient.toList

def loginReply (junk : DealJunk) : HMessage :=
  let sendMsg := { ZS2CALogin.new junk.wSize junk.field with
    iErrorCode := ErrorCode.loginOk.code, dynmicCode := 0 }
  sendMsg.put (HMessage.new junk.sendHmg)

def checkReply (junk : DealJunk) (isOK : ErrorCode) (sessionIDFromDS : UInt32) : HMessage :=
  let sendMsg := { ZS2DSACheckDynmicCode.new junk.wSize junk.field with
    isOK := isOK.code, sessionIDFromDS := sessionIDFromDS }
  sendMsg.put (HMessage.new junk.sendHmg)

/-- The branch for `C2ZS_R_REGISTER`: the request is decoded and nothing is done. -/
def dealRegister (junk : DealJunk) (baseMsg : BaseMessage) (hmg : HMessage) : Dealt :=
  let recvMsg := { C2ZSRRegisterAccount.new junk.wSize with toBaseMessage := baseMsg }.get hmg
  ⟨recvMsg.2, some (.registerAccount recvMsg.1.strAccount recvMsg.1.strPassword), none, false⟩

/-- The branch for `C2ZS_R_LOGIN`: every login is answered as successful. -/
def dealLogin (junk : DealJunk) (baseMsg : BaseMessage) (hmg : HMessage) : Dealt :=
  let recvMsg := { C2ZSRLogin.new junk.wSize with toBaseMessage := baseMsg }.get hmg
  ⟨recvMsg.2, some (.login recvMsg.1.strAccount recvMsg.1.strPassword),
    some (loginReply junk), false⟩

/-- The branch for `DS2ZS_R_CHECKDYNMICCODE`. -/
def dealCheck (junk : DealJunk) (logic : MsgLogic) (baseMsg : BaseMessage) (hmg : HMessage) :
    Dealt :=
  let recvMsg :=
    { DS2ZSRCheckDynmicCode.new junk.wSize junk.field with toBaseMessage := baseMsg }.get hmg
  let request := Request.checkDynmicCode recvMsg.1.dynmicCode recvMsg.1.sessionID
    recvMsg.1.sessionIDFromDS
  match logic.checkDynmicCode (toInt recvMsg.1.sessionID.toNat)
      (toInt recvMsg.1.dynmicCode.toNat) with
  | none => ⟨recvMsg.2, some request, none, true⟩
  | some true =>
    ⟨recvMsg.2, some request,
      some (checkReply junk .checkDynmicCodeOk recvMsg.1.sessionIDFromDS), false⟩
  | some false =>
    ⟨recvMsg.2, some request,
      some (checkReply junk .checkDynmicCodeFail recvMsg.1.sessionIDFromDS), false⟩

/-- The body of the loop of `DealMsg`. -/
def dealOne (junk : DealJunk) (logic : MsgLogic) (hmg : HMessage) : Dealt :=
  let r := BaseMessage.get hmg
  let baseMsg := r.1
  let hmg := r.2
  if baseMsg.iMainProtocol = MainProtocol.fmZdqLogin.code then
    if baseMsg.iSubProtocol = SubProtocol.c2zsRRegister.code then
      dealRegister junk baseMsg hmg
    else if baseMsg.iSubProtocol = SubProtocol.c2zsRLogin.code then
      dealLogin junk baseMsg hmg
    else ⟨hmg, none, none, false⟩
  else if baseMsg.iMainProtocol = MainProtocol.fmQRoundMessage.code then
    if baseMsg.iSubProtocol = SubProtocol.ds2zsRCheckDynmicCode.code then
      dealCheck junk logic baseMsg hmg
    else ⟨hmg, none, none, false⟩
  else ⟨hmg, none, none, false⟩

end MsgLogic

end ShootGame.Model
