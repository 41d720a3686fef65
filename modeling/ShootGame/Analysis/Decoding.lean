import ShootGame.Model.MsgLogic

/-!
# What one iteration of `DealMsg` makes of the bytes

`decoded mem` is the request a message means, read off its memory directly: the two
protocol numbers select a class, and the class's fields stand at fixed offsets or
after a length prefix.  `dealOne_spec` connects it to the code: on a message whose
cursor is at the start, the loop body decodes `decoded`, and its answer is a function
of the decoded request alone.

The offsets read are recorded too (`DealSpec.accesses`): they follow from the header
and, for the two classes with strings, from the two announced lengths.
-/

set_option autoImplicit false

namespace ShootGame.Analysis

open ShootGame.Library ShootGame.Model

/-- Uninitialised storage that happens to be zero. -/
def zeroed : Junk := ⟨fun _ => 0, 0, 0⟩

def zeroedDeal : DealJunk := ⟨0, 0, zeroed⟩

/-! ## The meaning of a memory -/

def accountLen (mem : Memory) : ℕ := (mem.wordAt 6).toNat

/-- The announced length of the password, at the place the account's length leads to. -/
def passwordLen (mem : Memory) : ℕ := (mem.wordAt (8 + accountLen mem)).toNat

def accountAt (mem : Memory) : List UInt8 := cString (mem.load 8 (accountLen mem))

def passwordAt (mem : Memory) : List UInt8 :=
  cString (mem.load (10 + accountLen mem) (passwordLen mem))

/-- The branch `DealMsg` takes. -/
inductive RequestKind where
  | registerAccount
  | login
  | checkDynmicCode
deriving DecidableEq, Repr

def RequestKind.main : RequestKind → MainProtocol
  | registerAccount => .fmZdqLogin
  | login => .fmZdqLogin
  | checkDynmicCode => .fmQRoundMessage

def RequestKind.sub : RequestKind → SubProtocol
  | registerAccount => .c2zsRRegister
  | login => .c2zsRLogin
  | checkDynmicCode => .ds2zsRCheckDynmicCode

def kindOf : Request → RequestKind
  | .registerAccount _ _ => .registerAccount
  | .login _ _ => .login
  | .checkDynmicCode _ _ _ => .checkDynmicCode

/-- The branch two protocol numbers select. -/
def dispatch (main sub : UInt16) : Option RequestKind :=
  if main = MainProtocol.fmZdqLogin.code then
    if sub = SubProtocol.c2zsRRegister.code then some .registerAccount
    else if sub = SubProtocol.c2zsRLogin.code then some .login
    else none
  else if main = MainProtocol.fmQRoundMessage.code then
    if sub = SubProtocol.ds2zsRCheckDynmicCode.code then some .checkDynmicCode
    else none
  else none

def dispatchAt (mem : Memory) : Option RequestKind := dispatch (mem.wordAt 2) (mem.wordAt 4)

def fieldsAt (mem : Memory) : RequestKind → Request
  | .registerAccount => .registerAccount (accountAt mem) (passwordAt mem)
  | .login => .login (accountAt mem) (passwordAt mem)
  | .checkDynmicCode => .checkDynmicCode (mem.dwordAt 6) (mem.dwordAt 10) (mem.dwordAt 14)

/-- The request a memory means. -/
def decoded (mem : Memory) : Option Request := (dispatchAt mem).map (fieldsAt mem)

/-- The reads of the getters, for a kind of request. -/
def fieldReads (mem : Memory) : RequestKind → List Access
  | .checkDynmicCode => [⟨false, 6, 4⟩, ⟨false, 10, 4⟩, ⟨false, 14, 4⟩]
  | _ =>
    [⟨false, 6, 2⟩, ⟨false, 8, accountLen mem⟩, ⟨false, 8 + accountLen mem, 2⟩,
      ⟨false, 10 + accountLen mem, passwordLen mem⟩]

/-- The reads of `BaseMessage::get`. -/
def headerReads : List Access := [⟨false, 0, 2⟩, ⟨false, 2, 2⟩, ⟨false, 4, 2⟩]

/-- The verdict of `CheckDynmicCode` on the fields of a request. -/
def verdict (logic : MsgLogic) (dynmicCode sessionID : UInt32) : Option Bool :=
  logic.checkDynmicCode (toInt sessionID.toNat) (toInt dynmicCode.toNat)

def verdictCode : Bool → ErrorCode
  | true => .checkDynmicCodeOk
  | false => .checkDynmicCodeFail

/-- The answer to a decoded request. -/
def replyTo (junk : DealJunk) (logic : MsgLogic) : Option Request → Option HMessage
  | some (.login _ _) => some (MsgLogic.loginReply junk)
  | some (.checkDynmicCode c s d) =>
    (verdict logic c s).map fun ok => MsgLogic.checkReply junk (verdictCode ok) d
  | _ => none

/-- The search for the code of a decoded request meets a null entry. -/
def meetsNull (logic : MsgLogic) : Option Request → Bool
  | some (.checkDynmicCode c s _) => (verdict logic c s).isNone
  | _ => false

/-- The fields of a class make a request of that class. -/
theorem kindOf_fieldsAt (mem : Memory) (k : RequestKind) : kindOf (fieldsAt mem k) = k := by
  cases k <;> rfl

/-- The class of the decoded request is the one selected. -/
theorem map_kindOf_decoded (mem : Memory) : (decoded mem).map kindOf = dispatchAt mem := by
  unfold decoded
  cases dispatchAt mem with
  | none => rfl
  | some k => exact congrArg some (kindOf_fieldsAt mem k)

/-- A branch is taken on its own two protocol numbers only. -/
theorem dispatch_eq_some_iff (main sub : UInt16) (k : RequestKind) :
    dispatch main sub = some k ↔ main = k.main.code ∧ sub = k.sub.code := by
  unfold dispatch
  constructor
  · intro h
    split_ifs at h with h₁ h₂ h₃ h₄ h₅ <;> cases h <;> exact ⟨by assumption, by assumption⟩
  · rintro ⟨rfl, rfl⟩
    cases k <;> rfl

/-! ## The code decodes this meaning -/

/-- `BaseMessage::get` at the start of a message. -/
theorem baseMessage_get_spec (hmg : HMessage) (h : hmg.iPos = 0) :
    (BaseMessage.get hmg).1.iMainProtocol = hmg.byBuffer.wordAt 2 ∧
      (BaseMessage.get hmg).1.iSubProtocol = hmg.byBuffer.wordAt 4 ∧
      (BaseMessage.get hmg).2.byBuffer = hmg.byBuffer ∧
      (BaseMessage.get hmg).2.iPos = 6 ∧
      (BaseMessage.get hmg).2.accesses = hmg.accesses ++ headerReads := by
  simp [BaseMessage.get, h, headerReads]

/-- What `get` of a request reads, and where. -/
theorem accountRequest_get_spec (msg : AccountRequest) (hmg : HMessage) (h : hmg.iPos = 6) :
    (msg.get hmg).1.strAccount = accountAt hmg.byBuffer ∧
      (msg.get hmg).1.strPassword = passwordAt hmg.byBuffer ∧
      (msg.get hmg).2.accesses = hmg.accesses ++ fieldReads hmg.byBuffer .login := by
  have h8 : (6 : Int) + 2 = 8 := rfl
  have h10 : (6 : Int) + 2 + accountLen hmg.byBuffer + 2 = 10 + accountLen hmg.byBuffer := by ring
  refine ⟨?_, ?_, ?_⟩
  · simp [AccountRequest.get, h, accountAt, accountLen]
  · simp only [AccountRequest.get, HMessage.getString_fst, HMessage.getString_byBuffer,
      HMessage.getString_iPos, h]
    rw [passwordAt, passwordLen, ← h10]
    rfl
  · simp only [AccountRequest.get, HMessage.getString_accesses, HMessage.getString_byBuffer,
      HMessage.getString_iPos, h, fieldReads, List.append_assoc, List.cons_append,
      List.nil_append]
    rw [passwordLen, ← h10]
    rfl

/-- What `get` of a check reads, and where. -/
theorem checkDynmicCode_get_spec (msg : DS2ZSRCheckDynmicCode) (hmg : HMessage)
    (h : hmg.iPos = 6) :
    (msg.get hmg).1.dynmicCode = hmg.byBuffer.dwordAt 6 ∧
      (msg.get hmg).1.sessionID = hmg.byBuffer.dwordAt 10 ∧
      (msg.get hmg).1.sessionIDFromDS = hmg.byBuffer.dwordAt 14 ∧
      (msg.get hmg).2.accesses = hmg.accesses ++ fieldReads hmg.byBuffer .checkDynmicCode := by
  simp [DS2ZSRCheckDynmicCode.get, h, fieldReads]

/-- One iteration of `DealMsg` on a message whose cursor is at the start. -/
structure DealSpec (junk : DealJunk) (logic : MsgLogic) (hmg : HMessage) (d : Dealt) : Prop where
  request : d.request = decoded hmg.byBuffer
  reply : d.reply = replyTo junk logic (decoded hmg.byBuffer)
  nullEntry : d.nullEntry = meetsNull logic (decoded hmg.byBuffer)
  accesses : d.hmg.accesses = hmg.accesses ++ headerReads ++
    ((dispatchAt hmg.byBuffer).map (fieldReads hmg.byBuffer)).getD []

/-- The nested tests of the source select by `dispatch`. -/
theorem dealOne_eq_dispatch (junk : DealJunk) (logic : MsgLogic) (hmg : HMessage) :
    logic.dealOne junk hmg =
      match dispatch (BaseMessage.get hmg).1.iMainProtocol
          (BaseMessage.get hmg).1.iSubProtocol with
      | some .registerAccount =>
        MsgLogic.dealRegister junk (BaseMessage.get hmg).1 (BaseMessage.get hmg).2
      | some .login => MsgLogic.dealLogin junk (BaseMessage.get hmg).1 (BaseMessage.get hmg).2
      | some .checkDynmicCode =>
        logic.dealCheck junk (BaseMessage.get hmg).1 (BaseMessage.get hmg).2
      | none => ⟨(BaseMessage.get hmg).2, none, none, false⟩ := by
  dsimp only [MsgLogic.dealOne, dispatch]
  split_ifs <;> rfl

/-- The spec of an iteration of `DealMsg`. -/
theorem dealOne_spec (junk : DealJunk) (logic : MsgLogic) (hmg : HMessage) (h : hmg.iPos = 0) :
    DealSpec junk logic hmg (logic.dealOne junk hmg) := by
  obtain ⟨hmain, hsub, hbuf, hpos, hacc⟩ := baseMessage_get_spec hmg h
  have haccount := fun msg => accountRequest_get_spec msg (BaseMessage.get hmg).2 hpos
  have hcheck := fun msg => checkDynmicCode_get_spec msg (BaseMessage.get hmg).2 hpos
  rw [hbuf, hacc] at haccount hcheck
  have hd : dispatch (BaseMessage.get hmg).1.iMainProtocol (BaseMessage.get hmg).1.iSubProtocol =
      dispatchAt hmg.byBuffer := by rw [hmain, hsub, dispatchAt]
  rw [dealOne_eq_dispatch, hd]
  cases hk : dispatchAt hmg.byBuffer with
  | none => constructor <;> simp [decoded, hk, replyTo, meetsNull, hacc]
  | some k =>
    cases k with
    | registerAccount =>
      constructor <;>
        simp [MsgLogic.dealRegister, decoded, hk, fieldsAt, replyTo, meetsNull, haccount,
          fieldReads]
    | login =>
      constructor <;>
        simp [MsgLogic.dealLogin, decoded, hk, fieldsAt, replyTo, meetsNull, haccount, fieldReads]
    | checkDynmicCode =>
      cases hv : verdict logic (hmg.byBuffer.dwordAt 6) (hmg.byBuffer.dwordAt 10) with
      | none =>
        have hv' := hv
        simp only [verdict] at hv'
        constructor <;>
          simp [MsgLogic.dealCheck, decoded, hk, fieldsAt, replyTo, meetsNull, hcheck, hv, hv']
      | some ok =>
        have hv' := hv
        simp only [verdict] at hv'
        cases ok <;> constructor <;>
          simp [MsgLogic.dealCheck, decoded, hk, fieldsAt, replyTo, meetsNull, hcheck, hv, hv',
            verdictCode]

end ShootGame.Analysis
