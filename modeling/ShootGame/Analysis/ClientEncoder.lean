import ShootGame.Analysis.ClientRequests
import ShootGame.Analysis.EncoderSafety

/-!
# The client's encoder and its buffer

`CheckPut` of the client compares with the server's capacity, so a put can be accepted
and run over the end of the client's `m_byBuffer`.  What a sequence of puts does to the
buffer is settled by the lengths of its copies alone: `client_writes_inside_iff` says for
which lengths every byte written is a byte of the buffer.
-/

set_option autoImplicit false

namespace ShootGame.Analysis

open ShootGame.Library ShootGame.Model

/-- Every byte written so far is one of the client's `m_byBuffer`. -/
def WritesInside (hmg : HMessage) : Prop :=
  ∀ a ∈ hmg.accesses, a.isWrite = true → ∀ i, a.Covers i → 0 ≤ i ∧ i < GameHMsg.bufferSize

/-- A new message has written nothing. -/
theorem writesInside_new (junk : Junk) : WritesInside (HMessage.new junk) := by
  intro a ha
  cases ha

/-- What stayed inside did so before. -/
theorem WritesInside.of_prefix {hmg hmg' : HMessage} (h : WritesInside hmg')
    (hgrow : hmg.accesses <+: hmg'.accesses) : WritesInside hmg := by
  intro a ha
  exact h a (hgrow.subset ha)

/-- After another copy the writes are inside if they were and the copy is. -/
theorem writesInside_copy {hmg hmg' : HMessage} {start : Int} {len : ℕ}
    (haccesses : hmg'.accesses = hmg.accesses ++ [⟨true, start, len⟩]) :
    WritesInside hmg' ↔
      WritesInside hmg ∧ ∀ i, start ≤ i → i < start + len → 0 ≤ i ∧ i < GameHMsg.bufferSize := by
  unfold WritesInside
  rw [haccesses, List.forall_mem_append, List.forall_mem_singleton]
  apply and_congr_right
  intro _
  simp only [Access.Covers, true_imp_iff, and_imp]

/-! ## The copies of a sequence -/

/-- The lengths of the copies that a put makes when none is refused. -/
def putCopies : Put → List Int
  | .char _ => [1]
  | .uShort _ => [2]
  | .uInt _ => [4]
  | .charArray _ iLen => [iLen]
  | .string str => [2, toInt str.length]

/-- A copy that an empty buffer has room for. -/
def Short (n : Int) : Prop := 0 ≤ n ∧ n ≤ GameHMsg.bufferSize

instance (n : Int) : Decidable (Short n) := inferInstanceAs (Decidable (_ ∧ _))

/-- The lengths of the short copies together. -/
def shortSum (ns : List Int) : Int := (ns.filter fun n => decide (Short n)).sum

/-- `CheckPut` refuses every copy that is not short, where the short ones before it, and
what was there at first, end at `iPos`. -/
def LongRefused : Int → List Int → Prop
  | _, [] => True
  | iPos, n :: ns =>
    if Short n then LongRefused (iPos + n) ns
    else (10000 ≤ iPos + n ∧ iPos + n < 2 ^ 31) ∧ LongRefused iPos ns

/-- The short copies have room in the client's buffer, and the others are refused. -/
def RoomFor (iPos : Int) (ns : List Int) : Prop :=
  iPos + shortSum ns ≤ GameHMsg.bufferSize ∧ LongRefused iPos ns

instance decidableLongRefused : (iPos : Int) → (ns : List Int) → Decidable (LongRefused iPos ns)
  | _, [] => inferInstanceAs (Decidable True)
  | iPos, n :: ns =>
    have := decidableLongRefused (iPos + n) ns
    have := decidableLongRefused iPos ns
    inferInstanceAs (Decidable (if Short n then _ else _ ∧ _))

instance (iPos : Int) (ns : List Int) : Decidable (RoomFor iPos ns) :=
  inferInstanceAs (Decidable (_ ∧ _))

/-- Short copies do not move the cursor back. -/
theorem shortSum_nonneg (ns : List Int) : 0 ≤ shortSum ns := by
  unfold shortSum
  apply List.sum_nonneg
  intro n hn
  have hshort := of_decide_eq_true (List.mem_filter.mp hn).2
  exact hshort.1

/-- The short copies of two lists. -/
theorem shortSum_append (ns ms : List Int) : shortSum (ns ++ ms) = shortSum ns + shortSum ms := by
  simp [shortSum]

/-- A short copy counts. -/
theorem shortSum_cons_of_short {n : Int} (h : Short n) (ns : List Int) :
    shortSum (n :: ns) = n + shortSum ns := by
  simp [shortSum, h]

/-- A copy that is not short does not. -/
theorem shortSum_cons_of_long {n : Int} (h : ¬ Short n) (ns : List Int) :
    shortSum (n :: ns) = shortSum ns := by
  simp [shortSum, h]

/-- Behind a short copy the others are refused further on. -/
theorem longRefused_cons_of_short {n : Int} (h : Short n) (iPos : Int) (ns : List Int) :
    LongRefused iPos (n :: ns) ↔ LongRefused (iPos + n) ns := by
  rw [LongRefused, if_pos h]

/-- A copy that is not short has to be refused where it stands. -/
theorem longRefused_cons_of_long {n : Int} (h : ¬ Short n) (iPos : Int) (ns : List Int) :
    LongRefused iPos (n :: ns) ↔
      (10000 ≤ iPos + n ∧ iPos + n < 2 ^ 31) ∧ LongRefused iPos ns := by
  rw [LongRefused, if_neg h]

/-- The copies of the second list are refused behind the short ones of the first. -/
theorem longRefused_append (iPos : Int) (ns ms : List Int) :
    LongRefused iPos (ns ++ ms) ↔
      LongRefused iPos ns ∧ LongRefused (iPos + shortSum ns) ms := by
  induction ns generalizing iPos with
  | nil => simp [LongRefused, shortSum]
  | cons n ns ih =>
    rw [List.cons_append]
    by_cases hshort : Short n
    · rw [longRefused_cons_of_short hshort, longRefused_cons_of_short hshort, ih,
        shortSum_cons_of_short hshort, add_assoc]
    · rw [longRefused_cons_of_long hshort, longRefused_cons_of_long hshort, ih,
        shortSum_cons_of_long hshort, and_assoc, and_assoc, and_assoc]

/-- There is room for two lists of copies if there is for the second behind the first. -/
theorem roomFor_append (iPos : Int) (ns ms : List Int) :
    RoomFor iPos (ns ++ ms) ↔ RoomFor iPos ns ∧ RoomFor (iPos + shortSum ns) ms := by
  unfold RoomFor
  rw [longRefused_append, shortSum_append, ← add_assoc]
  have hrest := shortSum_nonneg ms
  constructor
  · rintro ⟨hroom, hfirst, hsecond⟩
    exact ⟨⟨by omega, hfirst⟩, hroom, hsecond⟩
  · rintro ⟨⟨-, hfirst⟩, hroom, hsecond⟩
    exact ⟨hroom, hfirst, hsecond⟩

/-! ## One put -/

/-- What copies of the lengths `ns` to the cursor of `hmg` do, `hmg'` being the message
after them. -/
structure Places (ns : List Int) (hmg hmg' : HMessage) : Prop where
  inside : WritesInside hmg' ↔ RoomFor hmg.iPos ns
  iPos : WritesInside hmg' → hmg'.iPos = hmg.iPos + shortSum ns

/-- The cursor of a message that has stayed inside of the buffer. -/
structure Contained (hmg : HMessage) : Prop where
  inside : WritesInside hmg
  iPos_nonneg : 0 ≤ hmg.iPos
  iPos_le : hmg.iPos ≤ GameHMsg.bufferSize

/-- A new message is contained. -/
theorem contained_new (junk : Junk) : Contained (HMessage.new junk) where
  inside := writesInside_new junk
  iPos_nonneg := le_rfl
  iPos_le := by simp

namespace Places

variable {ns ms : List Int} {hmg hmg' hmg'' : HMessage}

/-- No copies. -/
theorem nil (hc : Contained hmg) : Places [] hmg hmg where
  inside := by
    have hle := hc.iPos_le
    simpa [RoomFor, LongRefused, shortSum, hc.inside] using hle
  iPos := by simp [shortSum]

/-- Copies that stay inside leave a contained message. -/
theorem contained (h : Places ns hmg hmg') (hc : Contained hmg) (hin : WritesInside hmg') :
    Contained hmg' where
  inside := hin
  iPos_nonneg := by
    have hpos := hc.iPos_nonneg
    have hsum := shortSum_nonneg ns
    rw [h.iPos hin]
    omega
  iPos_le := by
    rw [h.iPos hin]
    exact (h.inside.mp hin).1

/-- A copy outside of the buffer stays in the history, so nothing is said about the copies
behind it. -/
theorem append (h : Places ns hmg hmg') (hgrow : hmg'.accesses <+: hmg''.accesses)
    (h' : WritesInside hmg' → Places ms hmg' hmg'') : Places (ns ++ ms) hmg hmg'' where
  inside := by
    rw [roomFor_append]
    constructor
    · intro hin
      have hin' := hin.of_prefix hgrow
      have hrest := (h' hin').inside.mp hin
      rw [h.iPos hin'] at hrest
      exact ⟨h.inside.mp hin', hrest⟩
    · rintro ⟨hfirst, hrest⟩
      have hin' := h.inside.mpr hfirst
      rw [← h.iPos hin'] at hrest
      exact (h' hin').inside.mpr hrest
  iPos := by
    intro hin
    have hin' := hin.of_prefix hgrow
    rw [(h' hin').iPos hin, h.iPos hin', shortSum_append, add_assoc]

end Places

section OneCopy

variable {hmg hmg' : HMessage} {n : Int}

/-- `CheckPut` from a cursor in the client's buffer, the wrap of the sum included. -/
theorem checkPutAt_from_buffer {iPos : Int} (hpos : 0 ≤ iPos) (hle : iPos ≤ GameHMsg.bufferSize)
    (hlo : -2 ^ 31 ≤ n) (hhi : n < 2 ^ 31) :
    checkPutAt iPos n = true ↔ ¬ (10000 ≤ iPos + n ∧ iPos + n < 2 ^ 31) := by
  unfold GameHMsg.bufferSize at hle
  unfold checkPutAt
  rw [decide_eq_true_iff]
  by_cases hwrap : iPos + n < 2 ^ 31
  · unfold toInt
    rw [Int.bmod_eq_of_le (by omega) (by omega)]
    omega
  · rw [HMessage.toInt_of_ge (by omega) (by omega)]
    omega

/-- A length that is not short makes the copy run over the end, negative lengths included:
as a `size_t` they are larger than any buffer. -/
theorem toSizeT_of_long (hlong : ¬ Short n) (hlo : -2 ^ 31 ≤ n) (hhi : n < 2 ^ 31) :
    GameHMsg.bufferSize < toSizeT n := by
  unfold Short GameHMsg.bufferSize at hlong
  unfold GameHMsg.bufferSize toSizeT
  omega

/-- A short copy has room if it ends inside of the buffer. -/
theorem roomFor_short (hshort : Short n) (iPos : Int) :
    RoomFor iPos [n] ↔ iPos + n ≤ GameHMsg.bufferSize := by
  unfold RoomFor
  rw [longRefused_cons_of_short hshort, shortSum_cons_of_short hshort]
  simp [LongRefused, shortSum]

/-- A copy that is not short is in order where `CheckPut` refuses it. -/
theorem roomFor_long (hlong : ¬ Short n) {iPos : Int} (hle : iPos ≤ GameHMsg.bufferSize) :
    RoomFor iPos [n] ↔ 10000 ≤ iPos + n ∧ iPos + n < 2 ^ 31 := by
  unfold RoomFor
  rw [longRefused_cons_of_long hlong, shortSum_cons_of_long hlong]
  simpa [LongRefused, shortSum] using fun _ _ => hle

/-- A short copy stays inside exactly if its last byte does. -/
theorem writesInside_of_short (hc : Contained hmg) (hshort : Short n)
    (haccesses : hmg'.accesses = hmg.accesses ++ [⟨true, hmg.iPos, toSizeT n⟩]) :
    WritesInside hmg' ↔ hmg.iPos + n ≤ GameHMsg.bufferSize := by
  have hpos := hc.iPos_nonneg
  have hle := hc.iPos_le
  unfold Short at hshort
  have hsize : (toSizeT n : Int) = n := by
    unfold toSizeT
    unfold GameHMsg.bufferSize at hshort
    omega
  rw [writesInside_copy haccesses]
  constructor
  · rintro ⟨-, hbytes⟩
    by_contra hover
    have hlast := hbytes (hmg.iPos + n - 1) (by omega) (by omega)
    omega
  · intro hroom
    refine ⟨hc.inside, ?_⟩
    intro i hfrom hto
    omega

/-- Any other copy covers the first byte behind the buffer. -/
theorem not_writesInside_of_long (hc : Contained hmg) (hlong : ¬ Short n) (hlo : -2 ^ 31 ≤ n)
    (hhi : n < 2 ^ 31)
    (haccesses : hmg'.accesses = hmg.accesses ++ [⟨true, hmg.iPos, toSizeT n⟩]) :
    ¬ WritesInside hmg' := by
  have hpos := hc.iPos_nonneg
  have hle := hc.iPos_le
  have hsize := toSizeT_of_long hlong hlo hhi
  rw [writesInside_copy haccesses]
  rintro ⟨-, hbytes⟩
  have hfirst := hbytes GameHMsg.bufferSize hle (by omega)
  omega

/-- One copy behind `CheckPut`, where `hmg'` is the message after the copy. -/
theorem places_copy (hc : Contained hmg) (hlo : -2 ^ 31 ≤ n) (hhi : n < 2 ^ 31)
    (haccesses : hmg'.accesses = hmg.accesses ++ [⟨true, hmg.iPos, toSizeT n⟩])
    (hcursor : hmg'.iPos = hmg.iPos + n) :
    Places [n] hmg (if hmg.checkPut n = false then (false, hmg) else (true, hmg')).2 := by
  have hle := hc.iPos_le
  have hcheck : hmg.checkPut n = true ↔ ¬ (10000 ≤ hmg.iPos + n ∧ hmg.iPos + n < 2 ^ 31) :=
    checkPutAt_from_buffer hc.iPos_nonneg hle hlo hhi
  by_cases hshort : Short n
  · have hok : hmg.checkPut n = true := by
      rw [hcheck]
      unfold Short at hshort
      unfold GameHMsg.bufferSize at hshort hle
      omega
    rw [hok, if_neg (by simp)]
    refine ⟨?_, ?_⟩
    · rw [writesInside_of_short hc hshort haccesses, roomFor_short hshort]
    · intro _
      rw [hcursor, shortSum_cons_of_short hshort]
      simp [shortSum]
  · cases hok : hmg.checkPut n with
    | false =>
      rw [if_pos rfl]
      rw [hok] at hcheck
      refine ⟨?_, ?_⟩
      · rw [roomFor_long hshort hle]
        exact iff_of_true hc.inside (by simpa using hcheck)
      · intro _
        rw [shortSum_cons_of_long hshort]
        simp [shortSum]
    | true =>
      rw [if_neg (by simp)]
      have hout := not_writesInside_of_long hc hshort hlo hhi haccesses
      refine ⟨?_, fun hin => absurd hin hout⟩
      rw [roomFor_long hshort hle]
      exact iff_of_false hout (hcheck.mp hok)

/-- `putUShort` makes a copy of two bytes. -/
theorem places_putUShort (data : UInt16) (hc : Contained hmg) :
    Places [2] hmg (hmg.putUShort data).2 := by
  apply places_copy hc (by omega) (by omega) _ rfl
  rfl

/-- `putCharArray` makes a copy of its length. -/
theorem places_putCharArray (pData : List UInt8) (hc : Contained hmg) (hlo : -2 ^ 31 ≤ n)
    (hhi : n < 2 ^ 31) : Places [n] hmg (hmg.putCharArray pData n).2 := by
  apply places_copy hc hlo hhi _ rfl
  simp [HMessage.writeBytes, HMessage.charArray]

/-- The prefix of a string is never refused as long as the cursor is in the buffer. -/
theorem putUShort_accepted (data : UInt16) (hc : Contained hmg) :
    (hmg.putUShort data).1 = true := by
  have hpos := hc.iPos_nonneg
  have hle := hc.iPos_le
  rw [(HMessage.putUShort_spec data hmg).1, checkPutAt_from_buffer hpos hle (by omega) (by omega)]
  unfold GameHMsg.bufferSize at hle
  omega

end OneCopy

/-- Every put makes the copies of its lengths, unless one of them leaves the buffer. -/
theorem places_put {put : Put} {hmg : HMessage} (hlen : IntLength put) (hc : Contained hmg) :
    Places (putCopies put) hmg (put.run hmg).2 := by
  cases put with
  | char data => exact places_copy (n := 1) hc (by omega) (by omega) rfl rfl
  | uShort data => exact places_putUShort data hc
  | uInt data => exact places_copy (n := 4) hc (by omega) (by omega) rfl rfl
  | charArray pData iLen => exact places_putCharArray pData hc hlen.1 hlen.2
  | string str =>
    obtain ⟨hlo, hhi⟩ := toInt_range str.length
    have hhead := places_putUShort (UInt16.ofInt (toInt str.length)) hc
    have hok := putUShort_accepted (UInt16.ofInt (toInt str.length)) hc
    change Places ([2] ++ [toInt str.length]) hmg (hmg.putString str).2
    unfold HMessage.putString
    dsimp only
    rw [hok, if_neg (by simp)]
    apply hhead.append
    · exact checked_accesses _ (List.prefix_append _ _)
    · intro hin
      exact places_putCharArray str (hhead.contained hc hin) hlo hhi

/-! ## Every sequence -/

/-- By induction on the sequence; the cursor of the next put is where the short copies of
the ones before it end. -/
theorem places_runPuts {puts : List Put} {hmg : HMessage} (hlen : ∀ put ∈ puts, IntLength put)
    (hc : Contained hmg) :
    Places (puts.flatMap putCopies) hmg (runPuts Put.run puts hmg).2 := by
  induction puts generalizing hmg with
  | nil => exact Places.nil hc
  | cons put puts ih =>
    rw [List.forall_mem_cons] at hlen
    have hput := places_put hlen.1 hc
    rw [List.flatMap_cons, runPuts_cons_snd]
    apply hput.append (runPuts_accesses puts _)
    intro hin
    exact ih hlen.2 (hput.contained hc hin)

/-- Puts on a new message stay inside exactly if there is room for their copies. -/
theorem writesInside_runPuts (junk : Junk) {puts : List Put}
    (hlen : ∀ put ∈ puts, IntLength put) :
    WritesInside (runPuts Put.gameRun puts (HMessage.new junk)).2 ↔
      RoomFor 0 (puts.flatMap putCopies) := by
  rw [GameHMsg.gameRun_eq]
  exact (places_runPuts hlen (contained_new junk)).inside

/-- The copies of a request: three words of header, then two strings. -/
def requestCopies (account password : List UInt8) : List Int :=
  [2, 2, 2, 2, toInt account.length, 2, toInt password.length]

/-- So does the `put` of a request. -/
theorem writesInside_accountRequest (junk : Junk) (msg : GameHMsg.AccountRequest) :
    WritesInside (msg.put (HMessage.new junk)) ↔
      RoomFor 0 (requestCopies msg.strAccount msg.strPassword) := by
  rw [GameHMsg.AccountRequest.put_eq_runPuts, writesInside_runPuts]
  · rfl
  · intro put hput
    simp only [GameHMsg.AccountRequest.puts, GameHMsg.BaseMessage.puts, List.cons_append,
      List.nil_append, List.mem_cons, List.not_mem_nil, or_false] at hput
    rcases hput with rfl | rfl | rfl | rfl | rfl <;> trivial

/-- The client's encoder keeps to its buffer exactly where the short copies of the sequence
have room in it and `CheckPut` refuses all others. -/
theorem client_writes_inside_iff (junk : Junk) {puts : List Put}
    (hlen : ∀ put ∈ puts, IntLength put) :
    (WritesInside (runPuts Put.gameRun puts (HMessage.new junk)).2 ↔
        RoomFor 0 (puts.flatMap putCopies)) ∧
      ∀ (sendJunk : GameHMsg.SendJunk) (a p : List UInt8),
        ((∀ hMsg ∈ GameHMsg.gameLogicLogin sendJunk a p, WritesInside hMsg) ↔
          RoomFor 0 (requestCopies a p)) ∧
        ((∀ hMsg ∈ GameHMsg.gameLogicRegister sendJunk a p, WritesInside hMsg) ↔
          RoomFor 0 (requestCopies a p)) := by
  refine ⟨writesInside_runPuts junk hlen, ?_⟩
  intro sendJunk a p
  constructor
  · unfold GameHMsg.gameLogicLogin
    dsimp only
    rw [List.forall_mem_singleton, writesInside_accountRequest]
  · unfold GameHMsg.gameLogicRegister
    dsimp only
    rw [List.forall_mem_singleton, writesInside_accountRequest]

/-- The first string is short, the second one longer than the buffer and refused. -/
theorem client_writes_inside_two_strings :
    (WritesInside (runPuts Put.gameRun
          [.string (List.replicate 4000 65), .string (List.replicate 7000 66)]
          (HMessage.new zeroed)).2 ↔
        RoomFor 0 ([.string (List.replicate 4000 65), .string (List.replicate 7000 66)].flatMap
          putCopies)) ∧
      ∀ (sendJunk : GameHMsg.SendJunk) (a p : List UInt8),
        ((∀ hMsg ∈ GameHMsg.gameLogicLogin sendJunk a p, WritesInside hMsg) ↔
          RoomFor 0 (requestCopies a p)) ∧
        ((∀ hMsg ∈ GameHMsg.gameLogicRegister sendJunk a p, WritesInside hMsg) ↔
          RoomFor 0 (requestCopies a p)) := by
  have hlen : ∀ put ∈ [Put.string (List.replicate 4000 65), .string (List.replicate 7000 66)],
      IntLength put := by
    intro put hput
    rcases List.mem_cons.mp hput with rfl | hput
    · trivial
    · rw [List.mem_singleton.mp hput]
      trivial
  exact client_writes_inside_iff zeroed hlen

/-- An account of 4096 bytes is accepted, and its bytes run over the end of the buffer. -/
theorem not_client_writes_inside :
    ¬ ∀ (sendJunk : GameHMsg.SendJunk) (a p : List UInt8),
      ∀ hMsg ∈ GameHMsg.gameLogicLogin sendJunk a p, WritesInside hMsg := by
  intro h
  have hin := h ⟨zeroed, 0⟩ (List.replicate 4096 65) [66] _ (List.mem_singleton_self _)
  rw [writesInside_accountRequest] at hin
  rw [requestCopies, List.length_replicate] at hin
  revert hin
  decide

end ShootGame.Analysis
