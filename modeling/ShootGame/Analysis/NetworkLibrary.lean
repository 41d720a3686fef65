import ShootGame.Analysis.Callbacks
import ShootGame.Analysis.WireFormat
import ShootGame.Model.System

/-!
# What is relied on of the network library

The client sends and receives through `ProNetWork`, which is a parameter of the system.
The results about the whole system rely on two things of it: that it sends the bytes of a
finished message (`SendsFinished`), and that of frames which announce their lengths it
returns one message each, in their order (`ReturnsFrames`).

Of a message returned nothing is known but that it shows the bytes of its frame.  This is
enough for `DealMsg`, which looks at the first ten (`dealOne_of_shows`).
-/

set_option autoImplicit false

namespace ShootGame.Analysis

open ShootGame.Library ShootGame.Model

/-! ## The assumptions -/

/-- `SendMsgToServer` sends the bytes of the message, with its length in front. -/
def SendsFinished (lib : ProNetWork) : Prop :=
  ∀ hMsg, lib.sendMsgToServer hMsg = GameHMsg.finished hMsg

/-- The frame has its length in front. -/
def Announces (frame : List UInt8) : Prop := 2 ≤ frame.length ∧ announced frame = frame.length

/-- A getter of the message starts at the first byte of the frame. -/
structure Shows (hmg : HMessage) (frame : List UInt8) : Prop where
  iPos : hmg.iPos = 0
  bytes : hmg.byBuffer.load 0 frame.length = frame

/-- `RecvMsgFromServer` returns a message for each frame that has arrived whole. -/
def ReturnsFrames (lib : ProNetWork) : Prop :=
  ∀ storage frames, (∀ frame ∈ frames, Announces frame) →
    List.Forall₂ Shows (lib.recvMsgFromServer storage frames.flatten) frames

/-! ## A library that meets them -/

/-- A message built from the bytes of a frame shows them. -/
theorem shows_ofData (junk : Junk) (frame : List UInt8) :
    Shows (HMessage.ofData junk frame) frame where
  iPos := rfl
  bytes := Memory.load_store junk.byBuffer 0 frame

/-- The frames at the front of a stream, as far as the bytes go. -/
def splitFrames : ℕ → List UInt8 → List (List UInt8)
  | 0, _ => []
  | fuel + 1, bytes =>
    let len := announced bytes
    if 2 ≤ len ∧ len ≤ bytes.length then bytes.take len :: splitFrames fuel (bytes.drop len)
    else []

/-- A frame announces its length whatever stands behind it. -/
theorem Announces.append {frame : List UInt8} (h : Announces frame) (rest : List UInt8) :
    announced (frame ++ rest) = frame.length := by
  obtain ⟨hlen, hannounced⟩ := h
  match frame with
  | lo :: hi :: _ => exact hannounced

/-- Frames in a stream are found again. -/
theorem splitFrames_flatten {frames : List (List UInt8)}
    (h : ∀ frame ∈ frames, Announces frame) {fuel : ℕ} (hfuel : frames.flatten.length ≤ fuel) :
    splitFrames fuel frames.flatten = frames := by
  induction frames generalizing fuel with
  | nil => cases fuel <;> simp [splitFrames, announced]
  | cons frame frames ih =>
    rw [List.forall_mem_cons] at h
    have hlen := h.1.1
    rw [List.flatten_cons, List.length_append] at hfuel
    obtain ⟨fuel, rfl⟩ : ∃ n, fuel = n + 1 := ⟨fuel - 1, by omega⟩
    have hfits : 2 ≤ frame.length ∧ frame.length ≤ (frame ++ frames.flatten).length := by
      rw [List.length_append]
      omega
    rw [List.flatten_cons, splitFrames, h.1.append]
    simp only [if_pos hfits, List.take_left, List.drop_left]
    rw [ih h.2 (by omega)]

/-- A library that sends what is finished and takes what arrives apart again. -/
def framing : ProNetWork where
  sendMsgToServer := GameHMsg.finished
  recvMsgFromServer storage bytes :=
    (splitFrames bytes.length bytes).mapIdx fun i frame => HMessage.ofData (storage i) frame

/-- It sends finished messages. -/
theorem framing_sendsFinished : SendsFinished framing := fun _ => rfl

/-- And it returns the frames that have arrived. -/
theorem framing_returnsFrames : ReturnsFrames framing := by
  intro storage frames hframes
  change List.Forall₂ Shows (List.mapIdx _ (splitFrames _ frames.flatten)) frames
  rw [splitFrames_flatten hframes le_rfl, List.forall₂_iff_get]
  refine ⟨List.length_mapIdx, fun i hi hi' => ?_⟩
  simpa using shows_ofData (storage i) frames[i]

/-! ## The head of a message -/

section Client

variable {δ : Type}

/-- The effects of a message, from the two protocol numbers and the first field. -/
def eventsOfHead (logic : UProNetLogic δ) (main sub : UInt16) (iErrorCode : UInt32) :
    List (ClientEvent δ) :=
  if main = GameHMsg.mainCode .fmZdqLogin then
    (if sub = GameHMsg.otherSubCode .zs2cARegister then
      (if GameHMsg.registerCode .regsterOk = iErrorCode then
        [.onRegist logic.onRegistDelegate true]
      else [.onRegist logic.onRegistDelegate false])
    else if sub = GameHMsg.subCode .zs2cALogin then
      (if GameHMsg.loginCode .loginOk = iErrorCode then
        [.onLogin logic.onLoginDelegate true]
      else [.onLogin logic.onLoginDelegate false])
    else [.log "Unknow MSG(Sub)"]) ++ [.log "Unknow MSG(Main)"]
  else [.log "Unknow MSG(Main)"]

/-- `DealMsg` decides by the head of a message. -/
theorem dealOne_eventsOfHead (junk : RecvJunk) (logic : UProNetLogic δ) {hmg : HMessage}
    (hpos : hmg.iPos = 0) :
    (logic.dealOne junk hmg).events =
      eventsOfHead logic (hmg.byBuffer.wordAt 2) (hmg.byBuffer.wordAt 4)
        (hmg.byBuffer.dwordAt 6) := by
  obtain ⟨byBuffer, iPos, iDataUseSize, iSessionID, dynmicCode, accesses⟩ := hmg
  obtain rfl : iPos = 0 := hpos
  set hmg : HMessage := ⟨byBuffer, 0, iDataUseSize, iSessionID, dynmicCode, accesses⟩
  have hmain : (GameHMsg.BaseMessage.get hmg).1.iMainProtocol = hmg.byBuffer.wordAt 2 := rfl
  have hsub : (GameHMsg.BaseMessage.get hmg).1.iSubProtocol = hmg.byBuffer.wordAt 4 := rfl
  have hregister : ((GameHMsg.ZS2CARegisterAccount.new junk.size junk.field).get
      (GameHMsg.BaseMessage.get hmg).2).1.iErrorCode = hmg.byBuffer.dwordAt 6 := rfl
  have hlogin : ((GameHMsg.ZS2CALogin.new junk.size junk.field).get
      (GameHMsg.BaseMessage.get hmg).2).1.iErrorCode = hmg.byBuffer.dwordAt 6 := rfl
  unfold UProNetLogic.dealOne eventsOfHead UProNetLogic.dealLogin
  simp only [hmain, hsub, hregister, hlogin]
  split_ifs <;> rfl

/-- Two messages that show the first ten bytes of a frame do the same. -/
theorem dealOne_of_shows {frame : List UInt8} (hlen : 10 ≤ frame.length) {hmg hmg' : HMessage}
    (h : Shows hmg frame) (h' : Shows hmg' frame) (junk junk' : RecvJunk)
    (logic : UProNetLogic δ) :
    (logic.dealOne junk hmg).events = (logic.dealOne junk' hmg').events := by
  have hsame : ∀ i : Int, 0 ≤ i → i < 10 → hmg.byBuffer i = hmg'.byBuffer i := by
    intro i hlo hhi
    obtain ⟨k, rfl⟩ := Int.eq_ofNat_of_zero_le hlo
    have hbyte := congrArg (·[k]?) (h.bytes.trans h'.bytes.symm)
    simp only [Memory.load_getElem? _ _ _ _ (show k < frame.length by omega), zero_add,
      Option.some.injEq] at hbyte
    exact hbyte
  rw [dealOne_eventsOfHead junk logic h.iPos, dealOne_eventsOfHead junk' logic h'.iPos,
    Memory.wordAt_congr fun i hlo hhi => hsame i (by omega) (by omega),
    Memory.wordAt_congr fun i hlo hhi => hsame i (by omega) (by omega),
    Memory.dwordAt_congr fun i hlo hhi => hsame i (by omega) (by omega)]

end Client

end ShootGame.Analysis
