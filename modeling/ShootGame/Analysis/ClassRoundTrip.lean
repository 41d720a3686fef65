import ShootGame.Analysis.Callbacks
import ShootGame.Analysis.MessageDrift

/-!
# Which classes survive the wire

An object is put on one side, framed, and read into some object of the class on the other
side: by the header's `get` and then by that of the class.  `received_of_reads` is the one
argument for all classes: where a `get` reads the types that `put` writes, it finds the
fields.  The two classes left over are those whose `get` does not.
-/

set_option autoImplicit false

namespace ShootGame.Analysis

open ShootGame.Library ShootGame.Model

namespace MessageClass

/-- What the client finds in a message: the header, and the fields of the object `other`
after `get`. -/
def gameReceived (k : MessageClass) (other : k.Game) (hmg : HMessage) : List Field :=
  let baseMsg := GameHMsg.BaseMessage.get hmg
  [.uShort baseMsg.1.size, .uShort baseMsg.1.iMainProtocol, .uShort baseMsg.1.iSubProtocol] ++
    (k.fields (k.toServer (k.gameGet other baseMsg.2).1)).drop 3

/-- The same on the server. -/
def serverReceived (k : MessageClass) (other : k.Server) (hmg : HMessage) : List Field :=
  let baseMsg := BaseMessage.get hmg
  [.uShort baseMsg.1.wSize, .uShort baseMsg.1.iMainProtocol, .uShort baseMsg.1.iSubProtocol] ++
    (k.fields (k.serverGet other baseMsg.2).1).drop 3

/-- The types that `put` writes, whatever the object. -/
theorem gameReceived_eq {k : MessageClass} (hk : k ≠ .ds2cAGetAllRole) (msg : k.Server)
    (other : k.Game) (hmg : HMessage) :
    k.gameReceived other hmg = (getFields ((k.fields msg).map Field.type) hmg).1 := by
  cases k with
  | ds2cAGetAllRole => exact absurd rfl hk
  | _ => rfl

/-- The server reads the fields of a class by their types, but for two classes. -/
theorem serverReceived_eq {k : MessageClass} (hrole : k ≠ .ds2cAGetAllRole)
    (hregister : k ≠ .zs2cARegisterAccount) (msg other : k.Server) (hmg : HMessage) :
    k.serverReceived other hmg = (getFields ((k.fields msg).map Field.type) hmg).1 := by
  cases k with
  | ds2cAGetAllRole => exact absurd rfl hrole
  | zs2cARegisterAccount => exact absurd rfl hregister
  | _ => rfl

/-- The size field stands first. -/
theorem exists_fields_eq_cons (k : MessageClass) (msg : k.Server) :
    ∃ wSize : UInt16, k.fields msg = .uShort wSize :: (k.fields msg).tail := by
  cases k <;> exact ⟨_, rfl⟩

end MessageClass

/-! ## Frames -/

/-- The frame carries the fields behind a stamp of its length. -/
def FrameOf (fields : List Field) (frame : List UInt8) : Prop :=
  ∃ rest, frame = leBytes (UInt16.ofNat frame.length) ++ (fields.flatMap Field.bytes ++ rest)

/-- A message with its fields put behind the size is a frame of them. -/
theorem frameOf_finished {hmg : HMessage} {junk : Junk} {wSize : UInt16} {fields : List Field}
    {rest : List UInt8} (h : Extends (HMessage.new junk) hmg
      ((Field.uShort wSize :: fields).flatMap Field.bytes ++ rest)) :
    FrameOf fields hmg.finished := by
  rw [List.flatMap_cons, List.append_assoc] at h
  have hframe := HMessage.finished_of_extends h
  have hlength : hmg.finished.length = (fields.flatMap Field.bytes ++ rest).length + 2 := by
    rw [hframe, List.length_append, leBytes_length, Nat.add_comm]
  refine ⟨rest, ?_⟩
  rw [hlength, hframe]

/-- The newline that the server puts behind a message leaves its fields where they are. -/
theorem frameOf_sentFrame {hmg : HMessage} {junk : Junk} {wSize : UInt16} {fields : List Field}
    (h : Extends (HMessage.new junk) hmg ((Field.uShort wSize :: fields).flatMap Field.bytes))
    (hfit : fieldsSize (.uShort wSize :: fields) + 1 < 10000) :
    FrameOf fields (sentFrame hmg) := by
  refine frameOf_finished (h.putChar le_rfl 10 ?_)
  rw [HMessage.new_iPos, flatMap_bytes_length]
  omega

/-- What getters of the right types find in a frame. -/
theorem getFields_frame {fields : List Field} {frame : List UInt8} (hframe : FrameOf fields frame)
    (hnul : ∀ field ∈ fields, field.NulFree) (hfit : 2 + fieldsSize fields < 10000) (junk : Junk)
    (more : List UInt8) (wSize : UInt16) :
    (getFields ((Field.uShort wSize :: fields).map Field.type)
        (HMessage.ofData junk (frame ++ more))).1 =
      .uShort (UInt16.ofNat frame.length) :: fields := by
  obtain ⟨rest, hsplit⟩ := hframe
  have hnul' : ∀ field ∈ Field.uShort (UInt16.ofNat frame.length) :: fields, field.NulFree :=
    List.forall_mem_cons.mpr ⟨trivial, hnul⟩
  refine (getFields_spec hnul' (by simpa [Field.size] using hfit) ?_).1
  have hbytes : frame ++ more = [] ++
      ((Field.uShort (UInt16.ofNat frame.length) :: fields).flatMap Field.bytes ++
        (rest ++ more)) := by
    conv_lhs => rw [hsplit]
    simp [Field.bytes]
  unfold HMessage.ofData
  rw [hbytes]
  exact Memory.load_store_slice _ _ _ _ rfl (flatMap_bytes_length _).symm

namespace MessageClass

/-- The message fits the buffers of both sides, and no string in it has a NUL. -/
structure Sendable (k : MessageClass) (msg : k.Server) : Prop where
  fits : fieldsSize (k.fields msg) < GameHMsg.bufferSize
  nulFree : ∀ field ∈ k.fields msg, field.NulFree

/-- What the server puts and sends, the client reads. -/
def ReachesClient (k : MessageClass) : Prop :=
  ∀ (msg : k.Server) (other : k.Game) (junk junk' : Junk), k.Sendable msg →
    let frame := sentFrame (k.serverPut msg (HMessage.new junk))
    k.gameReceived other (HMessage.ofData junk' frame) =
      .uShort (UInt16.ofNat frame.length) :: (k.fields msg).tail

/-- What the client puts and sends, the server reads, whatever comes behind it. -/
def ReachesServer (k : MessageClass) : Prop :=
  ∀ (msg : k.Game) (other : k.Server) (junk junk' : Junk) (more : List UInt8),
    k.Sendable (k.toServer msg) →
    let frame := GameHMsg.finished (k.gamePut msg (HMessage.new junk))
    k.serverReceived other (HMessage.ofData junk' (frame ++ more)) =
      .uShort (UInt16.ofNat frame.length) :: (k.fields (k.toServer msg)).tail

/-- All classes but one reach the client. -/
theorem reachesClient_of_ne {k : MessageClass} (hk : k ≠ .ds2cAGetAllRole) : k.ReachesClient := by
  intro msg other junk junk' hsend frame
  have hfits := hsend.fits
  have hnul := hsend.nulFree
  obtain ⟨wSize, hfields⟩ := k.exists_fields_eq_cons msg
  unfold GameHMsg.bufferSize at hfits
  have hput := k.serverPut_extends (by omega : fieldsSize (k.fields msg) < 10000) junk
  rw [hfields] at hput hfits hnul
  rw [gameReceived_eq hk msg, hfields, List.tail_cons]
  have hsize : 2 + fieldsSize (k.fields msg).tail < 4096 := by
    simpa [Field.size] using hfits
  have hread := getFields_frame (frameOf_sentFrame hput (by omega))
    (List.forall_mem_cons.mp hnul).2 (by omega) junk' [] wSize
  rwa [List.append_nil] at hread

/-- All classes but two reach the server. -/
theorem reachesServer_of_ne {k : MessageClass} (hrole : k ≠ .ds2cAGetAllRole)
    (hregister : k ≠ .zs2cARegisterAccount) : k.ReachesServer := by
  intro msg other junk junk' more hsend frame
  have hfits := hsend.fits
  have hnul := hsend.nulFree
  obtain ⟨wSize, hfields⟩ := k.exists_fields_eq_cons (k.toServer msg)
  unfold GameHMsg.bufferSize at hfits
  have hput := k.serverPut_extends (by omega : fieldsSize (k.fields (k.toServer msg)) < 10000) junk
  rw [hfields] at hput hfits hnul
  rw [serverReceived_eq hrole hregister (k.toServer msg), hfields, List.tail_cons]
  have hsize : 2 + fieldsSize (k.fields (k.toServer msg)).tail < 4096 := by
    simpa [Field.size] using hfits
  rw [← gamePut_eq, ← List.append_nil (List.flatMap _ _)] at hput
  exact getFields_frame (frameOf_finished hput) (List.forall_mem_cons.mp hnul).2
    (by omega) junk' more wSize

/-! ## The classes left over -/

/-- Neither side's `get` reads the count that `put` writes last. -/
theorem role_count_unread (other : GameHMsg.DS2CAGetAllRole) (other' : DS2CAGetAllRole)
    (hmg : HMessage) :
    (gameReceived .ds2cAGetAllRole other hmg).getLast? = some (.uInt other.iCount) ∧
      (serverReceived .ds2cAGetAllRole other' hmg).getLast? = some (.uInt other'.iCount) :=
  ⟨rfl, rfl⟩

/-- The server's register answer keeps the index it had before. -/
theorem register_index_unread (other : ZS2CARegisterAccount) (hmg : HMessage) :
    (serverReceived .zs2cARegisterAccount other hmg).getLast? =
      some (.uInt other.iErrorCodeIndex) :=
  rfl

/-- The role list does not reach the client. -/
theorem not_reachesClient_role : ¬ReachesClient .ds2cAGetAllRole := by
  intro h
  let msg : DS2CAGetAllRole := ⟨⟨0, 0, 0⟩, 1, []⟩
  let other : GameHMsg.DS2CAGetAllRole := ⟨⟨0, 0, 0⟩, 0, []⟩
  have hsend : Sendable .ds2cAGetAllRole msg :=
    ⟨by decide, by simp [fields, roleFields, headerFields, Field.NulFree]⟩
  have hlast := congrArg List.getLast? (h msg other zeroed zeroed hsend)
  rw [(role_count_unread other msg _).1] at hlast
  cases hlast

/-- The role list does not reach the server. -/
theorem not_reachesServer_role : ¬ReachesServer .ds2cAGetAllRole := by
  intro h
  let msg : GameHMsg.DS2CAGetAllRole := ⟨⟨0, 0, 0⟩, 1, []⟩
  let other : DS2CAGetAllRole := ⟨⟨0, 0, 0⟩, 0, []⟩
  have hsend : Sendable .ds2cAGetAllRole msg.toServer :=
    ⟨by decide, by simp [fields, roleFields, headerFields, Field.NulFree]⟩
  have hlast := congrArg List.getLast? (h msg other zeroed zeroed [] hsend)
  rw [(role_count_unread msg other _).2] at hlast
  cases hlast

/-- The register answer does not reach the server. -/
theorem not_reachesServer_register : ¬ReachesServer .zs2cARegisterAccount := by
  intro h
  let msg : GameHMsg.ZS2CARegisterAccount := ⟨⟨0, 0, 0⟩, 1, 1⟩
  let other : ZS2CARegisterAccount := ⟨⟨0, 0, 0⟩, 0, 0⟩
  have hsend : Sendable .zs2cARegisterAccount msg.toServer :=
    ⟨by decide, by simp [fields, registerFields, headerFields, Field.NulFree]⟩
  have hlast := congrArg List.getLast? (h msg other zeroed zeroed [] hsend)
  rw [register_index_unread other] at hlast
  cases hlast

end MessageClass

/-- From the server to the client every class but the role list arrives as it was sent, from
the client to the server every class but the role list and the register answer. -/
theorem class_round_trip_iff (k : MessageClass) :
    (k.ReachesClient ↔ k ≠ .ds2cAGetAllRole) ∧
      (k.ReachesServer ↔ k ≠ .ds2cAGetAllRole ∧ k ≠ .zs2cARegisterAccount) := by
  constructor
  · constructor
    · rintro h rfl
      exact MessageClass.not_reachesClient_role h
    · exact MessageClass.reachesClient_of_ne
  · constructor
    · intro h
      constructor
      · rintro rfl
        exact MessageClass.not_reachesServer_role h
      · rintro rfl
        exact MessageClass.not_reachesServer_register h
    · rintro ⟨hrole, hregister⟩
      exact MessageClass.reachesServer_of_ne hrole hregister

end ShootGame.Analysis
