import ShootGame.Analysis.EncoderSafety
import ShootGame.Analysis.Encoding
import ShootGame.Model.ProNetLogic

/-!
# From the outcome to the delegate

A node of the server turns its outcome into an answer, and the client turns the answer
into a call of a delegate.  The client looks at the header and the fields before the
list only, and whatever is put behind them leaves them as they are: `head_survives`
takes the head of a message to what the client reads, and the two nodes follow.
-/

set_option autoImplicit false

namespace ShootGame.Analysis

open ShootGame.Library ShootGame.Model

/-! ## The head of a frame -/

/-- A frame is as long as the cursor behind the newline says. -/
theorem sentFrame_length (sendHmg : HMessage) :
    (sentFrame sendHmg).length = (sendHmg.putChar 10).2.iPos.toNat := by
  simp [sentFrame, HMessage.finished, HMessage.getPosition, HMessage.getData]

/-- Behind the size field, a frame has the bytes of the buffer. -/
theorem sentFrame_getElem? (sendHmg : HMessage) {i : Int} (hlo : 2 ≤ i)
    (hhi : i < (sendHmg.putChar 10).2.iPos) :
    (sentFrame sendHmg)[i.toNat]? = some ((sendHmg.putChar 10).2.byBuffer i) := by
  have hstamp : (sendHmg.putChar 10).2.getPosition.2.byBuffer i =
      (sendHmg.putChar 10).2.byBuffer i :=
    Memory.store_apply_outside _ (Or.inr (by simpa using hlo))
  have hlt : i.toNat < (sendHmg.putChar 10).2.getPosition.1.toNat := by
    simp only [HMessage.getPosition]
    omega
  rw [sentFrame, HMessage.finished, HMessage.getData, Memory.load_getElem? _ _ _ _ hlt,
    zero_add, Int.toNat_of_nonneg (by omega), hstamp]

/-- What is put behind the first part of a message leaves that part, but for the size
field, in the frame that is sent. -/
theorem head_survives {hmg sendHmg : HMessage} (h : Advances hmg sendHmg) (hpos : 0 ≤ hmg.iPos)
    (junk : Junk) {i : Int} (hlo : 2 ≤ i) (hhi : i < hmg.iPos) :
    (HMessage.ofData junk (sentFrame sendHmg)).byBuffer i = hmg.byBuffer i := by
  -- the newline goes behind the head too
  have hnewline := (put_safe (show (Put.char 10).Bounded from trivial)
    (hpos.trans h.iPos_mono) h.iPos_le).advances
  have hall : Advances hmg (sendHmg.putChar 10).2 := h.trans hnewline
  have hcursor := hall.iPos_mono
  have hstore : (HMessage.ofData junk (sentFrame sendHmg)).byBuffer i =
      (sentFrame sendHmg).getD (i - 0).toNat 0 :=
    Memory.store_apply_inside _ (by omega) (by rw [sentFrame_length]; omega)
  rw [hstore, Int.sub_zero, List.getD_eq_getElem?_getD, sentFrame_getElem? sendHmg hlo (by omega),
    Option.getD_some, hall.below i hhi]

/-- The client reads each field of the head as it was put. -/
theorem head_load {hmg sendHmg : HMessage} (h : Advances hmg sendHmg) {junk : Junk}
    {as bs cs : List UInt8} (hext : Extends (HMessage.new junk) hmg (as ++ (bs ++ cs)))
    (junkMsg : Junk) {q : Int} {n : ℕ} (hq : q = as.length) (hn : n = bs.length) (hlo : 2 ≤ q) :
    (HMessage.ofData junkMsg (sentFrame sendHmg)).byBuffer.load q n = bs := by
  have hcursor : hmg.iPos = as.length + (bs.length + cs.length) := by
    rw [hext.iPos, HMessage.new_iPos, List.length_append, List.length_append]
    push_cast
    ring
  have hsame : (HMessage.ofData junkMsg (sentFrame sendHmg)).byBuffer.load q n =
      hmg.byBuffer.load q n := by
    apply Memory.load_congr
    intro i hlo' hhi
    exact head_survives h (by omega) junkMsg (by omega) (by omega)
  rw [hsame, hext.byBuffer]
  exact Memory.load_store_slice _ as bs cs hq hn

/-- The words the client looks at before it calls a delegate. -/
structure HeadIs (mem : Memory) (main sub : UInt16) (iErrorCode : UInt32) : Prop where
  main : mem.wordAt 2 = main
  sub : mem.wordAt 4 = sub
  errorCode : mem.dwordAt 6 = iErrorCode

/-- The head that was put is the head that the client finds, where the message has got longer
only. -/
theorem headIs_of_extends {hmg sendHmg : HMessage} (h : Advances hmg sendHmg) {junk : Junk}
    {wSize main sub : UInt16} {iErrorCode : UInt32} {rest : List UInt8}
    (hext : Extends (HMessage.new junk) hmg
      (leBytes wSize ++ leBytes main ++ leBytes sub ++ (beBytes iErrorCode ++ rest)))
    (junkMsg : Junk) :
    HeadIs (HMessage.ofData junkMsg (sentFrame sendHmg)).byBuffer main sub iErrorCode where
  main := by
    rw [List.append_assoc, List.append_assoc] at hext
    exact Memory.wordAt_of_load (head_load h hext junkMsg (by simp) rfl le_rfl)
  sub := by
    rw [List.append_assoc] at hext
    exact Memory.wordAt_of_load (head_load h hext junkMsg (by simp) rfl (by omega))
  errorCode := Memory.dwordAt_of_load (head_load h hext junkMsg (by simp) rfl (by omega))

/-! ## The client's side -/

section Client

variable {δ : Type}

/-- The executions of delegates among the effects of a message. -/
def calls (dealt : DealtMsg δ) : List (ClientEvent δ) :=
  dealt.events.filter fun
    | .log _ => false
    | _ => true

variable (junk : RecvJunk) (logic : UProNetLogic δ) (junkMsg : Junk) (data : List UInt8)

/-- A register answer: the delegate is executed once, with what the error code says. -/
theorem dealOne_register {iErrorCode : UInt32}
    (h : HeadIs (HMessage.ofData junkMsg data).byBuffer MainProtocol.fmZdqLogin.code
      OtherSubProtocol.zs2cARegister.code iErrorCode) :
    calls (logic.dealOne junk (HMessage.ofData junkMsg data)) =
        [.onRegist logic.onRegistDelegate (iErrorCode = RegisterErrorCode.regsterOk.code)] ∧
      ∃ recvMsg, (logic.dealOne junk (HMessage.ofData junkMsg data)).recvMsg =
          some (.registerAccount recvMsg) ∧
        recvMsg.iErrorCodeIndex = (HMessage.ofData junkMsg data).byBuffer.dwordAt 10 := by
  have hmain : (GameHMsg.BaseMessage.get (HMessage.ofData junkMsg data)).1.iMainProtocol =
      GameHMsg.mainCode .fmZdqLogin := h.main
  have hsub : (GameHMsg.BaseMessage.get (HMessage.ofData junkMsg data)).1.iSubProtocol =
      GameHMsg.otherSubCode .zs2cARegister := h.sub
  have hcode : ((GameHMsg.ZS2CARegisterAccount.new junk.size junk.field).get
      (GameHMsg.BaseMessage.get (HMessage.ofData junkMsg data)).2).1.iErrorCode = iErrorCode :=
    h.errorCode
  simp only [UProNetLogic.dealOne, UProNetLogic.dealLogin, hmain, hsub, hcode, if_true]
  refine ⟨?_, _, rfl, rfl⟩
  by_cases hok : iErrorCode = RegisterErrorCode.regsterOk.code
  · simp [calls, hok, GameHMsg.registerCode_eq]
  · simp [calls, hok, Ne.symm hok, GameHMsg.registerCode_eq]

/-- A login answer: the delegate is executed once, with what the error code says. -/
theorem dealOne_login {iErrorCode : UInt32}
    (h : HeadIs (HMessage.ofData junkMsg data).byBuffer MainProtocol.fmZdqLogin.code
      SubProtocol.zs2cALogin.code iErrorCode) :
    calls (logic.dealOne junk (HMessage.ofData junkMsg data)) =
      [.onLogin logic.onLoginDelegate (iErrorCode = LoginErrorCode.loginOk.code)] := by
  have hmain : (GameHMsg.BaseMessage.get (HMessage.ofData junkMsg data)).1.iMainProtocol =
      GameHMsg.mainCode .fmZdqLogin := h.main
  have hsub : (GameHMsg.BaseMessage.get (HMessage.ofData junkMsg data)).1.iSubProtocol =
      GameHMsg.subCode .zs2cALogin := h.sub
  have hne : GameHMsg.subCode .zs2cALogin ≠ GameHMsg.otherSubCode .zs2cARegister := by decide
  have hcode : ((GameHMsg.ZS2CALogin.new junk.size junk.field).get
      (GameHMsg.BaseMessage.get (HMessage.ofData junkMsg data)).2).1.iErrorCode = iErrorCode :=
    h.errorCode
  simp only [UProNetLogic.dealOne, UProNetLogic.dealLogin, hmain, hsub, hne, hcode, if_true,
    if_false]
  by_cases hok : iErrorCode = LoginErrorCode.loginOk.code
  · simp [calls, hok, GameHMsg.loginCode_eq]
  · simp [calls, hok, Ne.symm hok, GameHMsg.loginCode_eq]

end Client

/-! ## The two nodes -/

/-- What a register answer writes. -/
theorem registerAnswer_put_extends (msg : ZS2CARegisterAccount) (junk : Junk) :
    Extends (HMessage.new junk) (msg.put (HMessage.new junk))
      (leBytes msg.wSize ++ leBytes msg.iMainProtocol ++ leBytes msg.iSubProtocol ++
        (beBytes msg.iErrorCode ++ beBytes msg.iErrorCodeIndex)) := by
  have h₁ := (baseMessage_put_extends msg.toBaseMessage junk).putUInt le_rfl msg.iErrorCode
    (by simp)
  have h₂ := h₁.putUInt le_rfl msg.iErrorCodeIndex (by simp)
  rw [List.append_assoc (_ ++ _)] at h₂
  exact h₂

/-- What the client finds in a register answer. -/
theorem registerAnswer_head {msg : ZS2CARegisterAccount}
    (hmain : msg.iMainProtocol = MainProtocol.fmZdqLogin.code)
    (hsub : msg.iSubProtocol = OtherSubProtocol.zs2cARegister.code) (junk junkMsg : Junk) :
    HeadIs (HMessage.ofData junkMsg (sentFrame (msg.put (HMessage.new junk)))).byBuffer
        MainProtocol.fmZdqLogin.code OtherSubProtocol.zs2cARegister.code msg.iErrorCode ∧
      (HMessage.ofData junkMsg (sentFrame (msg.put (HMessage.new junk)))).byBuffer.dwordAt 10 =
        msg.iErrorCodeIndex := by
  have hext := registerAnswer_put_extends msg junk
  have hrefl : Advances (msg.put (HMessage.new junk)) (msg.put (HMessage.new junk)) := by
    apply Advances.refl
    rw [hext.iPos]
    simp
  constructor
  · rw [hmain, hsub] at hext
    exact headIs_of_extends hrefl hext junkMsg
  · rw [← List.append_assoc, ← List.append_nil (beBytes msg.iErrorCodeIndex)] at hext
    exact Memory.dwordAt_of_load (head_load hrefl hext junkMsg (by simp) rfl (by omega))

/-- The two branches of `DoLogic` differ in the code only. -/
theorem register_reply (junk : DealJunk) (node : CRegisterWaitNode) :
    ∃ msg : ZS2CARegisterAccount, node.reply junk = msg.put (HMessage.new junk.sendHmg) ∧
      msg.iMainProtocol = MainProtocol.fmZdqLogin.code ∧
      msg.iSubProtocol = OtherSubProtocol.zs2cARegister.code ∧
      (msg.iErrorCode = RegisterErrorCode.regsterOk.code ↔ 0 < node.outdata.read) ∧
      msg.iErrorCodeIndex = UInt32.ofInt node.outdata.read := by
  let sendMsg (code : RegisterErrorCode) : ZS2CARegisterAccount :=
    { ZS2CARegisterAccount.new junk.wSize junk.field with
      iErrorCode := code.code
      iErrorCodeIndex := UInt32.ofInt node.outdata.read }
  by_cases hok : node.outdata.read > 0
  · refine ⟨sendMsg .regsterOk, ?_, rfl, rfl, iff_of_true rfl hok, rfl⟩
    rw [CRegisterWaitNode.reply, if_pos hok]
  · have hcodes : RegisterErrorCode.regsterFail.code ≠ RegisterErrorCode.regsterOk.code := by
      decide
    refine ⟨sendMsg .regsterFail, ?_, rfl, rfl, iff_of_false hcodes hok, rfl⟩
    rw [CRegisterWaitNode.reply, if_neg hok]

/-- What the client finds in a login answer, whatever is put behind it. -/
theorem loginAnswer_head {msg : ZS2CALogin}
    (hmain : msg.iMainProtocol = MainProtocol.fmZdqLogin.code)
    (hsub : msg.iSubProtocol = SubProtocol.zs2cALogin.code) {puts : List Put}
    (hlen : ∀ put ∈ puts, IntLength put) {junk : Junk}
    (hin : StaysInside (runPuts Put.run puts (msg.put (HMessage.new junk))).2) (junkMsg : Junk) :
    HeadIs (HMessage.ofData junkMsg
        (sentFrame (runPuts Put.run puts (msg.put (HMessage.new junk))).2)).byBuffer
      MainProtocol.fmZdqLogin.code SubProtocol.zs2cALogin.code msg.iErrorCode := by
  have hext := loginAnswer_put_extends msg junk
  have hcursor : (msg.put (HMessage.new junk)).iPos = 18 := by
    rw [hext.iPos]
    simp
  rw [List.append_assoc (_ ++ _), List.append_assoc (_ ++ _ ++ _), hmain, hsub] at hext
  have hputs := runPuts_advances_of_inside hlen (by omega) (by omega) hin
  exact headIs_of_extends hputs hext junkMsg

/-- The puts of the server entries have `int` lengths. -/
theorem entryPuts_intLength (entries : List ServerData) :
    ∀ put ∈ entries.flatMap CLoginWaitNode.entryPuts, IntLength put := by
  intro put hput
  obtain ⟨data, -, hdata⟩ := List.mem_flatMap.mp hput
  simp only [CLoginWaitNode.entryPuts, List.mem_cons, List.not_mem_nil, or_false] at hdata
  rcases hdata with rfl | rfl | rfl | rfl | rfl <;> trivial

/-- `DoLogic` puts the entries of the list behind the answer, or none. -/
theorem login_reply (outside : ℕ → ServerData) (junk : DealJunk)
    (vecServerList : List ServerData) (node : CLoginWaitNode) :
    ∃ (msg : ZS2CALogin) (puts : List Put),
      node.reply outside junk vecServerList =
        (runPuts Put.run puts (msg.put (HMessage.new junk.sendHmg))).2 ∧
      (∀ put ∈ puts, IntLength put) ∧
      msg.iMainProtocol = MainProtocol.fmZdqLogin.code ∧
      msg.iSubProtocol = SubProtocol.zs2cALogin.code ∧
      (msg.iErrorCode = LoginErrorCode.loginOk.code ↔
        node.checkisOK.read = true ∧ 0 < node.servercount.read) := by
  have hsucceeded : node.succeeded = true ↔
      node.checkisOK.read = true ∧ 0 < node.servercount.read := by
    simp [CLoginWaitNode.succeeded]
  rw [← hsucceeded]
  let sendMsg := ZS2CALogin.new junk.wSize junk.field
  cases hok : node.succeeded with
  | true =>
    refine ⟨{ sendMsg with
      iErrorCode := LoginErrorCode.loginOk.code, dynmicCode := node.dwDynamicCode },
      (node.entries outside vecServerList).flatMap CLoginWaitNode.entryPuts, ?_,
      entryPuts_intLength _, rfl, rfl, iff_of_true rfl rfl⟩
    simp only [CLoginWaitNode.reply, hok, if_true]
    exact CLoginWaitNode.entryLoop_eq_runPuts _ rfl _
  | false =>
    have hcodes : LoginErrorCode.loginFail.code ≠ LoginErrorCode.loginOk.code := by decide
    refine ⟨{ sendMsg with iErrorCode := LoginErrorCode.loginFail.code }, [], ?_, by simp,
      rfl, rfl, iff_of_false hcodes Bool.false_ne_true⟩
    simp only [CLoginWaitNode.reply, hok, Bool.false_eq_true, if_false]
    rfl

/-! ## Server and client together -/

/-- A node has built a frame: its puts stayed inside the buffer of the message, and what
it sends fits the client's.  (The length of a string is an `int` to the puts; one that
wraps passes the check, and the copy runs over whatever stands behind the buffer.) -/
structure FrameBuilt (sendHmg : HMessage) : Prop where
  inside : StaysInside sendHmg
  size : (sentFrame sendHmg).length ≤ GameHMsg.bufferSize

/-- Wherever the message stands in a batch, `DealMsg` deals with it as `P` says. -/
def DealtAs {δ : Type} (logic : UProNetLogic δ) (junk : RecvJunk) (hmg : HMessage)
    (P : DealtMsg δ → Prop) : Prop :=
  ∀ before after, ∃ dealt,
    logic.dealMsg junk (before ++ hmg :: after) =
      logic.dealMsg junk before ++ dealt :: logic.dealMsg junk after ∧ P dealt

/-- What the loop does with a message it does wherever the message stands. -/
theorem dealtAs_of_dealOne {δ : Type} {logic : UProNetLogic δ} {junk : RecvJunk}
    {hmg : HMessage} {P : DealtMsg δ → Prop} (h : P (logic.dealOne junk hmg)) :
    DealtAs logic junk hmg P := by
  intro before after
  refine ⟨_, ?_, h⟩
  simp [UProNetLogic.dealMsg]

/-- An `int` as an unsigned number is its remainder. -/
theorem toNat_uint32_ofInt (n : Int) : ((UInt32.ofInt n).toNat : Int) = n % 2 ^ 32 := by
  have hlo : 0 ≤ n % 2 ^ 32 := Int.emod_nonneg n (by decide)
  have hhi : n % 2 ^ 32 < 2 ^ 32 := Int.emod_lt_of_pos n (by decide)
  have hword : (n % 2 ^ 32).toNat < 2 ^ 32 := by omega
  have hofNat : (UInt32.ofInt n).toNat = (n % 2 ^ 32).toNat := UInt32.toNat_ofNat_of_lt' hword
  rw [hofNat, Int.toNat_of_nonneg hlo]

/-- With both delegates bound, the answer of a node makes `DealMsg` execute one of them
once, with the outcome of the node; a register answer also carries the outcome itself. -/
theorem outcome_reaches_delegate {δ : Type} (onlogin onregister : δ) (unbound : UProNetLogic δ)
    (outside : ℕ → ServerData) (junk : DealJunk) (recvJunk : RecvJunk) (junkMsg : Junk) :
    let logic := (unbound.onLogin onlogin).onRegister onregister
    (∀ node : CRegisterWaitNode,
      DealtAs logic recvJunk (HMessage.ofData junkMsg (sentFrame (node.reply junk))) fun dealt =>
        (∃ ok, calls dealt = [.onRegist (some onregister) ok] ∧
          (ok = true ↔ 0 < node.outdata.read)) ∧
        ∃ recvMsg, dealt.recvMsg = some (.registerAccount recvMsg) ∧
          (recvMsg.iErrorCodeIndex.toNat : Int) = node.outdata.read % 2 ^ 32) ∧
    ∀ (vecServerList : List ServerData) (node : CLoginWaitNode),
      FrameBuilt (node.reply outside junk vecServerList) →
      DealtAs logic recvJunk
        (HMessage.ofData junkMsg (sentFrame (node.reply outside junk vecServerList))) fun dealt =>
        ∃ ok, calls dealt = [.onLogin (some onlogin) ok] ∧
          (ok = true ↔ node.checkisOK.read = true ∧ 0 < node.servercount.read) := by
  intro logic
  constructor
  · intro node
    apply dealtAs_of_dealOne
    obtain ⟨msg, hreply, hmain, hsub, hcode, hindex⟩ := register_reply junk node
    rw [hreply]
    obtain ⟨hhead, hdword⟩ := registerAnswer_head hmain hsub junk.sendHmg junkMsg
    obtain ⟨hcall, recvMsg, hrecv, hfield⟩ := dealOne_register recvJunk logic junkMsg _ hhead
    refine ⟨⟨_, hcall, ?_⟩, recvMsg, hrecv, ?_⟩
    · rw [decide_eq_true_iff, hcode]
    · rw [hfield, hdword, hindex]
      exact toNat_uint32_ofInt _
  · intro vecServerList node hbuilt
    apply dealtAs_of_dealOne
    obtain ⟨msg, puts, hreply, hlen, hmain, hsub, hcode⟩ :=
      login_reply outside junk vecServerList node
    have hin := hbuilt.inside
    rw [hreply] at hin ⊢
    have hhead := loginAnswer_head hmain hsub hlen hin junkMsg
    refine ⟨_, dealOne_login recvJunk logic junkMsg _ hhead, ?_⟩
    rw [decide_eq_true_iff, hcode]

/-- A login that succeeded, with one server in the list. -/
def oneServerNode : CLoginWaitNode where
  dwSessionID := .unset 0
  strAccount := [65]
  strPassword := [66]
  dwDynamicCode := 9
  checkisOK := .assigned true
  servercount := .assigned 1

/-- A registration and a login with one server in the list. -/
theorem outcome_reaches_delegate_one_server :
    let logic : UProNetLogic ℕ := (UProNetLogic.onLogin 1 ⟨none, none⟩).onRegister 2
    DealtAs logic ⟨0, 0⟩ (HMessage.ofData ⟨fun _ => 0, 0, 0⟩
      (sentFrame (oneServerNode.reply (fun _ => ⟨0, [], [], 0, 0⟩) ⟨0, 0, ⟨fun _ => 0, 0, 0⟩⟩
        [⟨7, [83], [49, 46, 50], 80, 1⟩]))) fun dealt =>
        ∃ ok, calls dealt = [.onLogin (some 1) ok] ∧
          (ok = true ↔ oneServerNode.checkisOK.read = true ∧
            0 < oneServerNode.servercount.read) := by
  refine (outcome_reaches_delegate 1 2 _ _ _ _ _).2 _ _ ⟨?_, ?_⟩
  · unfold StaysInside
    decide +kernel
  · rw [sentFrame_length]
    decide +kernel

end ShootGame.Analysis
