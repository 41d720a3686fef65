import ShootGame.Analysis.Decoding

/-!
# Frames

What a sender puts on the wire, as a list of bytes.  `encoding` gives the frame of a
request field by field, and `frame_eq_encoding` derives it from the `put` of the
request's class; `decoded_encoding` says that the server decodes it to the request
again, whatever stands behind it in memory.

The two answers of the server are fixed frames: `loginReply_sent` and
`checkReply_sent` show that nothing uninitialised is left in them.
-/

set_option autoImplicit false

namespace ShootGame.Analysis

open ShootGame.Library ShootGame.Model

/-! ## Headers -/

/-- The header words behind the size, and the bytes after them, as `put` leaves them. -/
def body (main : MainProtocol) (sub : SubProtocol) (payload : List UInt8) : List UInt8 :=
  leBytes main.code ++ leBytes sub.code ++ payload

/-- A whole frame: the number of bytes it has, and its body. -/
def sized (bs : List UInt8) : List UInt8 := leBytes (UInt16.ofNat (bs.length + 2)) ++ bs

/-- The protocol numbers are four bytes. -/
@[simp] theorem body_length (main : MainProtocol) (sub : SubProtocol) (payload : List UInt8) :
    (body main sub payload).length = 4 + payload.length := by
  simp [body]
  ring

/-- The size is two bytes. -/
@[simp] theorem sized_length (bs : List UInt8) : (sized bs).length = 2 + bs.length := by
  simp [sized]

/-- What the `put` of the header writes. -/
theorem baseMessage_put_extends (msg : BaseMessage) (junk : Junk) :
    Extends (HMessage.new junk) (msg.put (HMessage.new junk))
      (leBytes msg.wSize ++ leBytes msg.iMainProtocol ++ leBytes msg.iSubProtocol) := by
  have h₁ := (Extends.refl (HMessage.new junk)).putUShort le_rfl msg.wSize (by simp)
  have h₂ := h₁.putUShort le_rfl msg.iMainProtocol (by simp)
  exact h₂.putUShort le_rfl msg.iSubProtocol (by simp)

/-- A message put behind its header is finished with its size stamped. -/
theorem finished_of_put (msg : BaseMessage) {junk : Junk} {main : MainProtocol}
    {sub : SubProtocol} {payload : List UInt8} {hmg : HMessage}
    (hmain : msg.iMainProtocol = main.code) (hsub : msg.iSubProtocol = sub.code)
    (h : Extends (HMessage.new junk) hmg
      (leBytes msg.wSize ++ leBytes msg.iMainProtocol ++ leBytes msg.iSubProtocol ++ payload)) :
    hmg.finished = sized (body main sub payload) := by
  rw [hmain, hsub, List.append_assoc, List.append_assoc, ← List.append_assoc (leBytes main.code)]
    at h
  exact HMessage.finished_of_extends h

/-! ## Requests -/

def payload : Request → List UInt8
  | .registerAccount a p => HMessage.stringBytes a ++ HMessage.stringBytes p
  | .login a p => HMessage.stringBytes a ++ HMessage.stringBytes p
  | .checkDynmicCode c s d => beBytes c ++ beBytes s ++ beBytes d

/-- The frame of a request. -/
def encoding (q : Request) : List UInt8 :=
  sized (body (kindOf q).main (kindOf q).sub (payload q))

def NulFree : Request → Prop
  | .registerAccount a p => 0 ∉ a ∧ 0 ∉ p
  | .login a p => 0 ∉ a ∧ 0 ∉ p
  | .checkDynmicCode _ _ _ => True

/-- The header of a request is six bytes. -/
theorem encoding_length (q : Request) : (encoding q).length = 6 + (payload q).length := by
  simp [encoding]
  ring

/-- What the `put` of a request with two strings writes. -/
theorem accountRequest_put_extends (msg : AccountRequest) (junk : Junk)
    (hfit : 6 + (2 + msg.strAccount.length + (2 + msg.strPassword.length)) < 10000) :
    Extends (HMessage.new junk) (msg.put (HMessage.new junk))
      (leBytes msg.wSize ++ leBytes msg.iMainProtocol ++ leBytes msg.iSubProtocol ++
        (HMessage.stringBytes msg.strAccount ++ HMessage.stringBytes msg.strPassword)) := by
  have h₁ := (baseMessage_put_extends msg.toBaseMessage junk).putString le_rfl msg.strAccount
    (by simp; omega)
  have h₂ := h₁.putString le_rfl msg.strPassword (by simp; omega)
  rw [List.append_assoc] at h₂
  rw [AccountRequest.put]
  exact h₂

/-- What the `put` of a check writes. -/
theorem checkDynmicCode_put_extends (msg : DS2ZSRCheckDynmicCode) (junk : Junk) :
    Extends (HMessage.new junk) (msg.put (HMessage.new junk))
      (leBytes msg.wSize ++ leBytes msg.iMainProtocol ++ leBytes msg.iSubProtocol ++
        (beBytes msg.dynmicCode ++ beBytes msg.sessionID ++ beBytes msg.sessionIDFromDS)) := by
  have h₁ := (baseMessage_put_extends msg.toBaseMessage junk).putUInt le_rfl msg.dynmicCode
    (by simp)
  have h₂ := h₁.putUInt le_rfl msg.sessionID (by simp)
  have h₃ := h₂.putUInt le_rfl msg.sessionIDFromDS (by simp)
  rw [List.append_assoc, List.append_assoc, ← List.append_assoc (beBytes msg.dynmicCode)] at h₃
  exact h₃

/-- The frame of a request is its encoding, where it fits the buffer. -/
theorem frame_eq_encoding (junk : UInt16) (junkField : UInt32) (junkMsg : Junk) (q : Request)
    (hfit : (encoding q).length < 10000) : q.frame junk junkField junkMsg = encoding q := by
  rw [encoding_length] at hfit
  cases q with
  | registerAccount a p =>
    simp only [payload, List.length_append, HMessage.stringBytes_length] at hfit
    exact finished_of_put (C2ZSRRegisterAccount.new junk).toBaseMessage rfl rfl
      (accountRequest_put_extends _ junkMsg hfit)
  | login a p =>
    simp only [payload, List.length_append, HMessage.stringBytes_length] at hfit
    exact finished_of_put (C2ZSRLogin.new junk).toBaseMessage rfl rfl
      (accountRequest_put_extends _ junkMsg hfit)
  | checkDynmicCode c s d =>
    exact finished_of_put (DS2ZSRCheckDynmicCode.new junk junkField).toBaseMessage rfl rfl
      (checkDynmicCode_put_extends _ junkMsg)

/-- The protocol numbers in a message select its class. -/
theorem dispatchAt_sized (mem : Memory) (k : RequestKind) (bs rest : List UInt8) :
    dispatchAt (mem.store 0 (sized (body k.main k.sub bs) ++ rest)) = some k := by
  apply (dispatch_eq_some_iff _ _ _).mpr
  constructor
  · apply Memory.wordAt_of_load
    have h := Memory.load_store_slice mem
      (leBytes (UInt16.ofNat ((body k.main k.sub bs).length + 2)))
      (leBytes k.main.code) (leBytes k.sub.code ++ bs ++ rest) (q := 2) (n := 2) rfl rfl
    simpa [sized, body] using h
  · apply Memory.wordAt_of_load
    have h := Memory.load_store_slice mem
      (leBytes (UInt16.ofNat ((body k.main k.sub bs).length + 2)) ++ leBytes k.main.code)
      (leBytes k.sub.code) (bs ++ rest) (q := 4) (n := 2) rfl rfl
    simpa [sized, body] using h

/-- Where the two length-prefixed strings behind a header stand. -/
theorem lengths_of_load {mem : Memory} {a p : List UInt8} (hla : a.length < 2 ^ 16)
    (hlp : p.length < 2 ^ 16)
    (h : mem.load 6 (2 + a.length + (2 + p.length)) =
      HMessage.stringBytes a ++ HMessage.stringBytes p) :
    (accountLen mem = a.length ∧ mem.load 8 a.length = a) ∧
      passwordLen mem = p.length ∧ mem.load (10 + a.length) p.length = p := by
  rw [Memory.load_add] at h
  obtain ⟨hA, hP⟩ := List.append_inj h (by simp)
  rw [Memory.load_add] at hA hP
  obtain ⟨hA₁, hA₂⟩ := List.append_inj hA (by simp)
  obtain ⟨hP₁, hP₂⟩ := List.append_inj hP (by simp)
  have hlenA : accountLen mem = a.length := by
    rw [accountLen, Memory.wordAt_of_load hA₁, UInt16.toNat_ofNat_of_lt' hla]
  have hoffP : (6 : Int) + (2 + a.length : ℕ) = 8 + a.length := by
    push_cast
    ring
  rw [hoffP] at hP₁ hP₂
  have hlenP : passwordLen mem = p.length := by
    rw [passwordLen, hlenA, Memory.wordAt_of_load hP₁, UInt16.toNat_ofNat_of_lt' hlp]
  have hoff : (8 : Int) + a.length + (2 : ℕ) = 10 + a.length := by
    push_cast
    ring
  rw [hoff] at hP₂
  exact ⟨⟨hlenA, hA₂⟩, hlenP, hP₂⟩

/-- Two length-prefixed strings behind a header are read back. -/
theorem strings_of_load {mem : Memory} {a p : List UInt8} (ha : 0 ∉ a) (hp : 0 ∉ p)
    (hla : a.length < 2 ^ 16) (hlp : p.length < 2 ^ 16)
    (h : mem.load 6 (2 + a.length + (2 + p.length)) =
      HMessage.stringBytes a ++ HMessage.stringBytes p) :
    accountAt mem = a ∧ passwordAt mem = p := by
  obtain ⟨⟨hlenA, hA⟩, hlenP, hP⟩ := lengths_of_load hla hlp h
  constructor
  · rw [accountAt, hlenA, hA, cString_eq_self ha]
  · rw [passwordAt, hlenA, hlenP, hP, cString_eq_self hp]

/-- The payload of an encoded request stands behind the header. -/
theorem load_payload (mem : Memory) (q : Request) (rest : List UInt8) :
    (mem.store 0 (encoding q ++ rest)).load 6 (payload q).length = payload q := by
  have h := Memory.load_store_slice mem
    (leBytes (UInt16.ofNat ((body (kindOf q).main (kindOf q).sub (payload q)).length + 2))
      ++ (leBytes (kindOf q).main.code ++ leBytes (kindOf q).sub.code))
    (payload q) rest (q := 6) (n := (payload q).length) rfl rfl
  simpa only [encoding, sized, body, List.append_assoc] using h

/-- A frame in memory is decoded to its request, whatever follows it. -/
theorem decoded_encoding (mem : Memory) (q : Request) (rest : List UInt8) (hnul : NulFree q)
    (hfit : (encoding q).length < 10000) :
    decoded (mem.store 0 (encoding q ++ rest)) = some q := by
  rw [encoding_length] at hfit
  have hpayload := load_payload mem q rest
  have hkind : dispatchAt (mem.store 0 (encoding q ++ rest)) = some (kindOf q) :=
    dispatchAt_sized mem (kindOf q) (payload q) rest
  rw [decoded, hkind, Option.map_some, Option.some_inj]
  cases q with
  | registerAccount a p =>
    simp only [payload, List.length_append, HMessage.stringBytes_length] at hpayload hfit
    obtain ⟨h₁, h₂⟩ := strings_of_load hnul.1 hnul.2 (by omega) (by omega) hpayload
    simp only [kindOf, fieldsAt, h₁, h₂]
  | login a p =>
    simp only [payload, List.length_append, HMessage.stringBytes_length] at hpayload hfit
    obtain ⟨h₁, h₂⟩ := strings_of_load hnul.1 hnul.2 (by omega) (by omega) hpayload
    simp only [kindOf, fieldsAt, h₁, h₂]
  | checkDynmicCode c s d =>
    simp only [payload, List.length_append, beBytes_length] at hpayload
    rw [Memory.load_add, Memory.load_add] at hpayload
    obtain ⟨hcs, hd⟩ := List.append_inj hpayload (by simp)
    obtain ⟨hc, hs⟩ := List.append_inj hcs (by simp)
    simp only [kindOf, fieldsAt, Memory.dwordAt_of_load hc]
    rw [show (10 : Int) = 6 + (4 : ℕ) by norm_num, Memory.dwordAt_of_load hs,
      show (14 : Int) = 6 + (4 + 4 : ℕ) by norm_num, Memory.dwordAt_of_load hd]

/-! ## Answers -/

/-- The bytes `SendMsgBySessionID` hands to the socket for a message. -/
def sentFrame (sendHmg : HMessage) : List UInt8 := (sendHmg.putChar 10).2.finished

def loginFrame : List UInt8 :=
  sized (body .fmZdqLogin .zs2cALogin
    (beBytes ErrorCode.loginOk.code ++ beBytes 0 ++ beBytes 0 ++ [10]))

def checkFrame (isOK : ErrorCode) (sessionIDFromDS : UInt32) : List UInt8 :=
  sized (body .fmQRoundMessage .zs2dsACheckDynmicCode
    (beBytes isOK.code ++ beBytes sessionIDFromDS ++ [10]))

/-- What the `put` of a login answer writes. -/
theorem loginAnswer_put_extends (msg : ZS2CALogin) (junk : Junk) :
    Extends (HMessage.new junk) (msg.put (HMessage.new junk))
      (leBytes msg.wSize ++ leBytes msg.iMainProtocol ++ leBytes msg.iSubProtocol ++
        beBytes msg.iErrorCode ++ beBytes msg.dynmicCode ++ beBytes msg.iCount) := by
  have h₁ := (baseMessage_put_extends msg.toBaseMessage junk).putUInt le_rfl msg.iErrorCode
    (by simp)
  have h₂ := h₁.putUInt le_rfl msg.dynmicCode (by simp)
  have h₃ := h₂.putUInt le_rfl msg.iCount (by simp)
  exact h₃

/-- What the `put` of the answer to a check writes. -/
theorem checkAnswer_put_extends (msg : ZS2DSACheckDynmicCode) (junk : Junk) :
    Extends (HMessage.new junk) (msg.put (HMessage.new junk))
      (leBytes msg.wSize ++ leBytes msg.iMainProtocol ++ leBytes msg.iSubProtocol ++
        beBytes msg.isOK ++ beBytes msg.sessionIDFromDS) := by
  have h₁ := (baseMessage_put_extends msg.toBaseMessage junk).putUInt le_rfl msg.isOK (by simp)
  have h₂ := h₁.putUInt le_rfl msg.sessionIDFromDS (by simp)
  exact h₂

/-- A login answer without entries, as it is sent. -/
theorem loginAnswer_sent (msg : ZS2CALogin) (junk : Junk)
    (hmain : msg.iMainProtocol = MainProtocol.fmZdqLogin.code)
    (hsub : msg.iSubProtocol = SubProtocol.zs2cALogin.code) :
    sentFrame (msg.put (HMessage.new junk)) =
      sized (body .fmZdqLogin .zs2cALogin
        (beBytes msg.iErrorCode ++ beBytes msg.dynmicCode ++ beBytes msg.iCount ++ [10])) := by
  have hline := (loginAnswer_put_extends msg junk).putChar le_rfl 10 (by simp)
  unfold sentFrame
  apply finished_of_put msg.toBaseMessage hmain hsub
  simpa only [List.append_assoc] using hline

/-- The login answer has no byte that depends on uninitialised storage. -/
theorem loginReply_sent (junk : DealJunk) : sentFrame (MsgLogic.loginReply junk) = loginFrame :=
  loginAnswer_sent { ZS2CALogin.new junk.wSize junk.field with
    iErrorCode := ErrorCode.loginOk.code, dynmicCode := 0 } junk.sendHmg rfl rfl

/-- The reply to a check is sent as its frame. -/
theorem checkReply_sent (junk : DealJunk) (isOK : ErrorCode) (sessionIDFromDS : UInt32) :
    sentFrame (MsgLogic.checkReply junk isOK sessionIDFromDS) =
      checkFrame isOK sessionIDFromDS := by
  let sendMsg : ZS2DSACheckDynmicCode := { ZS2DSACheckDynmicCode.new junk.wSize junk.field with
    isOK := isOK.code, sessionIDFromDS := sessionIDFromDS }
  have h := (checkAnswer_put_extends sendMsg junk.sendHmg).putChar le_rfl 10 (by simp)
  have hfinished : ((sendMsg.put (HMessage.new junk.sendHmg)).putChar 10).2.finished =
      sized (body .fmQRoundMessage .zs2dsACheckDynmicCode (beBytes sendMsg.isOK ++
        beBytes sendMsg.sessionIDFromDS ++ [10])) :=
    finished_of_put sendMsg.toBaseMessage rfl rfl (by simpa only [List.append_assoc] using h)
  exact hfinished

/-- The frame of a check's answer tells the session it names. -/
theorem checkFrame_inj {isOK : ErrorCode} {d d' : UInt32}
    (h : checkFrame isOK d = checkFrame isOK d') : d = d' := by
  simp only [checkFrame, sized, body, List.length_append, beBytes_length, leBytes_length,
    List.append_assoc, List.append_cancel_left_eq, List.append_cancel_right_eq] at h
  exact beBytes_inj h

/-- And it tells the verdict. -/
theorem checkFrame_code_inj {isOK isOK' : ErrorCode} {d : UInt32}
    (h : checkFrame isOK d = checkFrame isOK' d) : isOK.code = isOK'.code := by
  simp only [checkFrame, sized, body, List.length_append, beBytes_length, leBytes_length,
    List.append_assoc, List.append_cancel_left_eq, List.append_cancel_right_eq] at h
  exact beBytes_inj h

/-- Without a map of clients every check fails. -/
theorem verdict_of_isEmpty {logic : MsgLogic} (h : logic.mapAllClient = ∅) (c s : UInt32) :
    verdict logic c s = some false := by
  rw [verdict, MsgLogic.checkDynmicCode, h]
  rfl

/-- The frame a decoded request is answered with. -/
def answerFrame (logic : MsgLogic) : Option Request → Option (List UInt8)
  | some (.login _ _) => some loginFrame
  | some (.checkDynmicCode c s d) =>
    (verdict logic c s).map fun ok => checkFrame (verdictCode ok) d
  | _ => none

/-- The reply to a request is sent as the frame that answers it. -/
theorem map_sentFrame_replyTo (junk : DealJunk) (logic : MsgLogic) (q : Option Request) :
    (replyTo junk logic q).map sentFrame = answerFrame logic q := by
  rcases q with _ | (⟨a, p⟩ | ⟨a, p⟩ | ⟨c, s, d⟩)
  · rfl
  · rfl
  · simp only [replyTo, answerFrame, Option.map_some, loginReply_sent]
  · cases hv : verdict logic c s with
    | none => simp only [replyTo, answerFrame, hv, Option.map_none]
    | some ok => simp only [replyTo, answerFrame, hv, Option.map_some, checkReply_sent]

end ShootGame.Analysis
