import ShootGame.Analysis.Encoding
import ShootGame.Model.GameHMsg

/-!
# From the client's encoder to the server's decoder

The client builds a request with its own copy of the codec, the server reads it with
the other one.  `client_requests_survive` takes the two functions of the client that
send a request through the server's read handler and `DealMsg`: the same account and
password come out, and the cursor stops where the client's payload ends.
-/

set_option autoImplicit false

namespace ShootGame.Analysis

open ShootGame.Library ShootGame.Model

/-! ## Where the getters stop -/

/-- The offset behind the last field of a request. -/
def frameEnd (mem : Memory) : RequestKind → Int
  | .checkDynmicCode => 18
  | _ => 10 + accountLen mem + passwordLen mem

/-- `get` leaves the cursor behind the account and the password. -/
theorem accountRequest_get_iPos (msg : AccountRequest) (hmg : HMessage) (h : hmg.iPos = 6) :
    (msg.get hmg).2.iPos = 10 + accountLen hmg.byBuffer + passwordLen hmg.byBuffer := by
  simp only [AccountRequest.get, HMessage.getString_iPos, HMessage.getString_byBuffer, h]
  have hoff : (6 : Int) + 2 + (hmg.byBuffer.wordAt 6).toNat = 8 + accountLen hmg.byBuffer := by
    rw [accountLen]
    norm_num
  rw [hoff, passwordLen]
  ring

/-- `DealMsg` leaves the cursor behind the last field it decodes. -/
theorem dealOne_iPos (junk : DealJunk) (logic : MsgLogic) (hmg : HMessage) {k : RequestKind}
    (h : hmg.iPos = 0) (hk : dispatchAt hmg.byBuffer = some k) :
    (logic.dealOne junk hmg).hmg.iPos = frameEnd hmg.byBuffer k := by
  obtain ⟨hmain, hsub, hbuf, hpos, -⟩ := baseMessage_get_spec hmg h
  have hdispatch : dispatch (BaseMessage.get hmg).1.iMainProtocol
      (BaseMessage.get hmg).1.iSubProtocol = some k := by
    rw [hmain, hsub]
    exact hk
  rw [dealOne_eq_dispatch, hdispatch]
  cases k with
  | registerAccount =>
    simp only [MsgLogic.dealRegister, accountRequest_get_iPos _ _ hpos, hbuf, frameEnd]
  | login => simp only [MsgLogic.dealLogin, accountRequest_get_iPos _ _ hpos, hbuf, frameEnd]
  | checkDynmicCode =>
    -- the cursor is the same in all three outcomes of the search
    simp only [MsgLogic.dealCheck]
    split <;> simp [DS2ZSRCheckDynmicCode.get, hpos, frameEnd]

/-- The fields of an encoded request end where its encoding does. -/
theorem frameEnd_encoding (mem : Memory) (q : Request) (rest : List UInt8)
    (hfit : (encoding q).length < 10000) :
    frameEnd (mem.store 0 (encoding q ++ rest)) (kindOf q) = (encoding q).length := by
  rw [encoding_length] at hfit ⊢
  have hpayload := load_payload mem q rest
  cases q with
  | registerAccount a p =>
    simp only [payload, List.length_append, HMessage.stringBytes_length] at hpayload hfit ⊢
    obtain ⟨⟨hlenA, -⟩, hlenP, -⟩ := lengths_of_load (by omega) (by omega) hpayload
    simp only [kindOf, frameEnd, hlenA, hlenP]
    omega
  | login a p =>
    simp only [payload, List.length_append, HMessage.stringBytes_length] at hpayload hfit ⊢
    obtain ⟨⟨hlenA, -⟩, hlenP, -⟩ := lengths_of_load (by omega) (by omega) hpayload
    simp only [kindOf, frameEnd, hlenA, hlenP]
    omega
  | checkDynmicCode c s d => simp [kindOf, frameEnd, payload]

/-! ## A frame in a chunk -/

/-- The chunk starts with `frame`, and the server reads the request `q` from it: the size
field is the length of the frame, `DealMsg` decodes `q`, and the cursor ends behind the
frame. -/
structure ReadsAs (session : SessionClient) (chunk frame : List UInt8) (q : Request)
    (junkMsg : Junk) (junk : DealJunk) (logic : MsgLogic) : Prop where
  size : (BaseMessage.get (MyZServerNetwork.receivedMsg session chunk junkMsg)).1.wSize.toNat =
    frame.length
  request : (logic.dealOne junk (MyZServerNetwork.receivedMsg session chunk junkMsg)).request =
    some q
  cursor : (logic.dealOne junk (MyZServerNetwork.receivedMsg session chunk junkMsg)).hmg.iPos =
    frame.length

/-- An encoded request is read as the request it encodes, whatever stands behind it. -/
theorem readsAs_encoding (session : SessionClient) (rest : List UInt8) {q : Request}
    (junkMsg : Junk) (junk : DealJunk) (logic : MsgLogic) (hnul : NulFree q)
    (hfit : (encoding q).length < 10000) :
    ReadsAs session (encoding q ++ rest) (encoding q) q junkMsg junk logic where
  size := by
    have hload := Memory.load_store_slice junkMsg.byBuffer []
      (leBytes (UInt16.ofNat ((body (kindOf q).main (kindOf q).sub (payload q)).length + 2)))
      (body (kindOf q).main (kindOf q).sub (payload q) ++ rest) (q := 0) (n := 2) rfl rfl
    rw [List.nil_append, ← List.append_assoc] at hload
    have hword := Memory.wordAt_of_load hload
    have hlen : (body (kindOf q).main (kindOf q).sub (payload q)).length + 2 =
        (encoding q).length := by
      rw [encoding, sized_length, Nat.add_comm]
    rw [hlen] at hword
    exact (congrArg UInt16.toNat hword).trans (UInt16.toNat_ofNat_of_lt'
      (show (encoding q).length < 2 ^ 16 by omega))
  request := by
    rw [(dealOne_spec junk logic _ rfl).request]
    exact decoded_encoding junkMsg.byBuffer q rest hnul hfit
  cursor := by
    have hkind : dispatchAt (junkMsg.byBuffer.store 0 (encoding q ++ rest)) = some (kindOf q) :=
      dispatchAt_sized junkMsg.byBuffer (kindOf q) (payload q) rest
    rw [dealOne_iPos junk logic
      (MyZServerNetwork.receivedMsg session (encoding q ++ rest) junkMsg) rfl hkind]
    exact frameEnd_encoding junkMsg.byBuffer q rest hfit

/-! ## The client's senders -/

/-- `GameLogicLogin` sends the login put into a new message. -/
theorem gameLogicLogin_eq (junk : GameHMsg.SendJunk) (a p : List UInt8) :
    GameHMsg.gameLogicLogin junk a p =
      [Request.put junk.size 0 (.login a p) (HMessage.new junk.hMsg)] := by
  simp only [GameHMsg.gameLogicLogin, GameHMsg.AccountRequest.put_eq, GameHMsg.C2ZSRLogin.new,
    GameHMsg.AccountRequest.new_toServer]
  rfl

/-- `GameLogicRegister` sends the registration put into a new message. -/
theorem gameLogicRegister_eq (junk : GameHMsg.SendJunk) (a p : List UInt8) :
    GameHMsg.gameLogicRegister junk a p =
      [Request.put junk.size 0 (.registerAccount a p) (HMessage.new junk.hMsg)] := by
  simp only [GameHMsg.gameLogicRegister, GameHMsg.AccountRequest.put_eq,
    GameHMsg.C2ZSRRegisterAccount.new, GameHMsg.AccountRequest.new_toServer]
  rfl

/-- One message is sent, and the server reads `q` from every chunk that starts with its
finished buffer. -/
def Survives (sent : List HMessage) (q : Request) : Prop :=
  ∃ hMsg, sent = [hMsg] ∧ ∀ session rest junkMsg junk logic,
    ReadsAs session (GameHMsg.finished hMsg ++ rest) (GameHMsg.finished hMsg) q junkMsg junk logic

/-- A request without NULs that fits survives. -/
theorem survives_put (junk : GameHMsg.SendJunk) {q : Request} (hnul : NulFree q)
    (hfit : (encoding q).length < 10000) :
    Survives [q.put junk.size 0 (HMessage.new junk.hMsg)] q := by
  refine ⟨_, rfl, fun session rest junkMsg junk' logic => ?_⟩
  have hframe : GameHMsg.finished (q.put junk.size 0 (HMessage.new junk.hMsg)) = encoding q :=
    frame_eq_encoding junk.size 0 junk.hMsg q hfit
  rw [hframe]
  exact readsAs_encoding session rest junkMsg junk' logic hnul hfit

/-- A login and a registration of the client arrive as they were entered. -/
theorem client_requests_survive {a p : List UInt8} (ha : 0 ∉ a) (hp : 0 ∉ p)
    (hfit : 10 + a.length + p.length ≤ 4000) (junk : GameHMsg.SendJunk) :
    Survives (GameHMsg.gameLogicLogin junk a p) (.login a p) ∧
      Survives (GameHMsg.gameLogicRegister junk a p) (.registerAccount a p) := by
  have hlen : ∀ q ∈ [Request.login a p, .registerAccount a p], (encoding q).length < 10000 := by
    intro q hq
    rw [encoding_length]
    simp only [List.mem_cons, List.not_mem_nil, or_false] at hq
    rcases hq with rfl | rfl <;>
      simp only [payload, List.length_append, HMessage.stringBytes_length] <;> omega
  constructor
  · rw [gameLogicLogin_eq]
    exact survives_put junk ⟨ha, hp⟩ (hlen _ (by simp))
  · rw [gameLogicRegister_eq]
    exact survives_put junk ⟨ha, hp⟩ (hlen _ (by simp))

/-- An account of two bytes and a password of one. -/
theorem client_requests_survive_short :
    Survives (GameHMsg.gameLogicLogin ⟨zeroed, 0xffff⟩ [65, 66] [67]) (.login [65, 66] [67]) ∧
      Survives (GameHMsg.gameLogicRegister ⟨zeroed, 0xffff⟩ [65, 66] [67])
        (.registerAccount [65, 66] [67]) :=
  client_requests_survive (by decide) (by decide) (by decide) ⟨zeroed, 0xffff⟩

end ShootGame.Analysis
