import ShootGame.Analysis.Encoding

/-!
# Reads beyond the received bytes

The getters check nothing, so a received chunk may make `DealMsg` read bytes it did
not receive.  Two consequences are bounded exactly here: which messages make it read
outside the buffer (`reads_inside_iff`), and for which chunks the outcome depends on
what the buffer held before (`same_on_stale_bytes_iff`).
-/

set_option autoImplicit false

namespace ShootGame.Analysis

open ShootGame.Library ShootGame.Model

/-! ## Outside the buffer -/

/-- Every byte index read so far lies in `m_byBuffer`. -/
def ReadsInside (hmg : HMessage) : Prop :=
  ∀ a ∈ hmg.accesses, a.isWrite = false → ∀ i, a.Covers i → 0 ≤ i ∧ i < 10000

/-- The lengths announced for an account and a password stay inside the buffer, where
the header asks for them. -/
def LengthsFit (mem : Memory) : Prop :=
  dispatchAt mem = some .registerAccount ∨ dispatchAt mem = some .login →
    10 + accountLen mem + passwordLen mem ≤ 10000

/-- The reads of `DealMsg` on a received message: the header, and the fields of the class that it
selects. -/
theorem accesses_dealOne_receivedMsg (session : SessionClient) (data : List UInt8) (junk : Junk)
    (djunk : DealJunk) (logic : MsgLogic) :
    (logic.dealOne djunk (MyZServerNetwork.receivedMsg session data junk)).hmg.accesses =
      ⟨true, 0, data.length⟩ :: headerReads ++
        ((dispatchAt (junk.byBuffer.store 0 data)).map
          (fieldReads (junk.byBuffer.store 0 data))).getD [] :=
  (dealOne_spec djunk logic (MyZServerNetwork.receivedMsg session data junk) rfl).accesses

/-- A field is read and not written. -/
theorem isWrite_of_mem_fieldReads {mem : Memory} {k : RequestKind} {r : Access}
    (h : r ∈ fieldReads mem k) : r.isWrite = false := by
  cases k <;> simp only [fieldReads, List.mem_cons, List.not_mem_nil, or_false] at h
  case checkDynmicCode => rcases h with rfl | rfl | rfl <;> rfl
  all_goals rcases h with rfl | rfl | rfl | rfl <;> rfl

/-- The two string reads end at the sum of the announced lengths. -/
theorem stringReads_inside_iff (a p : ℕ) :
    (∀ r ∈ [(⟨false, 6, 2⟩ : Access), ⟨false, 8, a⟩, ⟨false, 8 + a, 2⟩, ⟨false, 10 + a, p⟩],
      ∀ i, r.Covers i → 0 ≤ i ∧ i < 10000) ↔ 10 + a + p ≤ 10000 := by
  constructor
  · intro h
    have hprefix := h ⟨false, 8 + a, 2⟩ (by simp) (9 + a)
      ⟨show (8 + a : Int) ≤ 9 + a by omega, show (9 + a : Int) < 8 + a + (2 : ℕ) by omega⟩
    by_cases hp : p = 0
    · omega
    · have hlast := h ⟨false, 10 + a, p⟩ (by simp) (9 + a + p)
        ⟨show (10 + a : Int) ≤ 9 + a + p by omega, show (9 + a + p : Int) < 10 + a + p by omega⟩
      omega
  · intro h r hr i hi
    simp only [List.mem_cons, List.not_mem_nil, or_false] at hr
    obtain ⟨hlo, hhi⟩ := hi
    rcases hr with rfl | rfl | rfl | rfl <;> simp only at hlo hhi <;> omega

/-- The header is inside of the buffer. -/
theorem headerReads_inside : ∀ r ∈ headerReads, ∀ i, r.Covers i → 0 ≤ i ∧ i < 10000 := by
  rintro r hr i ⟨hlo, hhi⟩
  simp only [headerReads, List.mem_cons, List.not_mem_nil, or_false] at hr
  rcases hr with rfl | rfl | rfl <;> simp only at hlo hhi <;> omega

/-- The reads stay inside if those of the fields do. -/
theorem readsInside_iff_fieldReads (session : SessionClient) (data : List UInt8) (junk : Junk)
    (djunk : DealJunk) (logic : MsgLogic) :
    ReadsInside (logic.dealOne djunk (MyZServerNetwork.receivedMsg session data junk)).hmg ↔
      ∀ r ∈ ((dispatchAt (junk.byBuffer.store 0 data)).map
        (fieldReads (junk.byBuffer.store 0 data))).getD [],
        ∀ i, r.Covers i → 0 ≤ i ∧ i < 10000 := by
  rw [ReadsInside, accesses_dealOne_receivedMsg]
  constructor
  · intro h r hr i hi
    refine h r (by simp [hr]) ?_ i hi
    cases hk : dispatchAt (junk.byBuffer.store 0 data) with
    | none => simp [hk] at hr
    | some k =>
      rw [hk] at hr
      exact isWrite_of_mem_fieldReads hr
  · intro h r hr hread i hi
    simp only [List.cons_append, List.mem_cons, List.mem_append] at hr
    rcases hr with rfl | hr | hr
    · cases hread
    · exact headerReads_inside r hr i hi
    · exact h r hr i hi

/-- The reads of the fields stay inside if the two lengths leave room. -/
theorem fieldReads_inside_iff (mem : Memory) :
    (∀ r ∈ ((dispatchAt mem).map (fieldReads mem)).getD [],
      ∀ i, r.Covers i → 0 ≤ i ∧ i < 10000) ↔ LengthsFit mem := by
  unfold LengthsFit
  cases hk : dispatchAt mem with
  | none => simp
  | some k =>
    cases k with
    | registerAccount => simpa [fieldReads] using stringReads_inside_iff _ _
    | login => simpa [fieldReads] using stringReads_inside_iff _ _
    | checkDynmicCode =>
      simp only [Option.map_some, Option.getD_some, fieldReads, Option.some_inj, reduceCtorEq,
        or_self, false_implies, iff_true]
      rintro r hr i ⟨hlo, hhi⟩
      simp only [List.mem_cons, List.not_mem_nil, or_false] at hr
      rcases hr with rfl | rfl | rfl <;> simp only at hlo hhi <;> omega

/-- `DealMsg` reads inside the buffer exactly where the announced lengths fit it. -/
theorem reads_inside_iff (session : SessionClient) (data : List UInt8) (junk : Junk)
    (djunk : DealJunk) (logic : MsgLogic) :
    ReadsInside (logic.dealOne djunk (MyZServerNetwork.receivedMsg session data junk)).hmg ↔
      LengthsFit (junk.byBuffer.store 0 data) :=
  (readsInside_iff_fieldReads session data junk djunk logic).trans (fieldReads_inside_iff _)

/-- A login whose account length is `65535`: the password's length is read far behind
the buffer. -/
def longAccountChunk : List UInt8 := [8, 0, 0x01, 0x20, 0x03, 0x00, 0xff, 0xff]

/-- Eight bytes make the server read behind its buffer. -/
theorem longAccountChunk_reads_outside :
    longAccountChunk.length ≤ 4000 ∧
      ¬ ReadsInside (MsgLogic.empty.dealOne zeroedDeal
        (MyZServerNetwork.receivedMsg ⟨0, 1, .assigned 0⟩ longAccountChunk
          zeroed)).hmg := by
  refine ⟨by decide, fun h => ?_⟩
  have hfit :=
    (fieldReads_inside_iff _).mp ((readsInside_iff_fieldReads _ _ _ _ _).mp h) (.inr (by decide))
  have hlen : accountLen (zeroed.byBuffer.store 0 longAccountChunk) = 65535 := by decide
  rw [hlen] at hfit
  omega

/-! ## Stale bytes inside the buffer -/

/-- What one iteration of `DealMsg` shows: the branch taken, whether it ran into a null
entry, and the session and bytes of its reply. -/
def observed (logic : MsgLogic) (djunk : DealJunk) (hmg : HMessage) :
    Option RequestKind × Bool × Option (Int × List UInt8) :=
  let d := logic.dealOne djunk hmg
  (d.request.map kindOf, d.nullEntry, d.reply.map fun r => (hmg.iSessionID.read, sentFrame r))

/-- For every session and client snapshot, the outcome on a chunk does not depend on
what the buffer held before, nor on any other uninitialised storage. -/
def SameOnStaleBytes (data : List UInt8) : Prop :=
  ∀ (logic : MsgLogic) (session : SessionClient) (djunk djunk' : DealJunk) (junk junk' : Junk),
    (∀ i, i < 0 ∨ 10000 ≤ i → junk.byBuffer i = junk'.byBuffer i) →
      observed logic djunk (MyZServerNetwork.receivedMsg session data junk) =
        observed logic djunk' (MyZServerNetwork.receivedMsg session data junk')

def headerCode (k : RequestKind) : List UInt8 := leBytes k.main.code ++ leBytes k.sub.code

/-- The received bytes settle the outcome: too short for a header, they begin no
header that `DealMsg` dispatches on; otherwise a check of a dynamic code is complete. -/
def Settled (data : List UInt8) : Prop :=
  if data.length < 6 then ∀ k, ¬ data.drop 2 <+: headerCode k
  else (data.drop 2).take 4 = headerCode .checkDynmicCode → 18 ≤ data.length

/-- The two protocol numbers are four bytes. -/
@[simp] theorem headerCode_length (k : RequestKind) : (headerCode k).length = 4 := by
  simp [headerCode]

/-- The class of a request is told by the four bytes of its protocol numbers. -/
theorem dispatchAt_eq_some_iff (mem : Memory) (k : RequestKind) :
    dispatchAt mem = some k ↔ mem.load 2 4 = headerCode k := by
  have hload : mem.load 2 4 = leBytes (mem.wordAt 2) ++ leBytes (mem.wordAt 4) := by
    rw [show (4 : ℕ) = 2 + 2 from rfl, Memory.load_add, Memory.load_two, Memory.load_two]
    rfl
  rw [dispatchAt, dispatch_eq_some_iff]
  constructor
  · rintro ⟨hmain, hsub⟩
    rw [hload, hmain, hsub, headerCode]
  · intro h
    rw [hload, headerCode] at h
    obtain ⟨hmain, hsub⟩ := List.append_inj h (by simp)
    exact ⟨leBytes_inj hmain, leBytes_inj hsub⟩

/-- What is observed of a received message depends on its buffer and its session's id. -/
theorem observed_receivedMsg (logic : MsgLogic) (session : SessionClient) (djunk : DealJunk)
    (data : List UInt8) (junk : Junk) :
    observed logic djunk (MyZServerNetwork.receivedMsg session data junk) =
      (dispatchAt (junk.byBuffer.store 0 data),
        meetsNull logic (decoded (junk.byBuffer.store 0 data)),
        (answerFrame logic (decoded (junk.byBuffer.store 0 data))).map
          fun frame => (session.iID, frame)) := by
  have hspec := dealOne_spec djunk logic (MyZServerNetwork.receivedMsg session data junk) rfl
  have hbuf : (MyZServerNetwork.receivedMsg session data junk).byBuffer =
      junk.byBuffer.store 0 data := rfl
  simp only [observed, hspec.request, hspec.nullEntry, hspec.reply, hbuf, map_kindOf_decoded,
    ← map_sentFrame_replyTo djunk, Option.map_map]
  rfl

/-- The fields of a check are in the first eighteen bytes. -/
theorem fieldsAt_check_congr (mem mem' : Memory)
    (h : ∀ i, 0 ≤ i → i < 18 → mem i = mem' i) :
    fieldsAt mem .checkDynmicCode = fieldsAt mem' .checkDynmicCode := by
  simp only [fieldsAt]
  rw [Memory.dwordAt_congr fun i hlo hhi => h i (by omega) (by omega),
    Memory.dwordAt_congr (p := 10) fun i hlo hhi => h i (by omega) (by omega),
    Memory.dwordAt_congr (p := 14) fun i hlo hhi => h i (by omega) (by omega)]

/-- A chunk that begins no header leaves no branch to take, whatever completes it. -/
theorem dispatchAt_eq_none_of_short {data : List UInt8} (hlen : data.length < 6)
    (h : ∀ k, ¬ data.drop 2 <+: headerCode k) (mem : Memory) :
    dispatchAt (mem.store 0 data) = none := by
  by_contra hsome
  obtain ⟨k, hk⟩ := Option.ne_none_iff_exists'.mp hsome
  rw [dispatchAt_eq_some_iff] at hk
  refine h k ?_
  by_cases h2 : data.length ≤ 2
  · rw [List.drop_eq_nil_of_le h2]
    exact List.nil_prefix
  · have hsplit : (4 : ℕ) = (data.length - 2) + (6 - data.length) := by omega
    rw [hsplit, Memory.load_add] at hk
    have hfirst : (mem.store 0 data).load 2 (data.length - 2) = data.drop 2 := by
      have hin : (mem.store 0 data).load (2 : ℕ) (data.length - 2) =
          (data.drop 2).take (data.length - 2) := Memory.load_store_inside mem (by omega)
      rw [List.take_of_length_le (by simp)] at hin
      exact hin
    rw [hfirst] at hk
    exact ⟨_, hk⟩

/-- The protocol numbers of a message that has them are in its bytes. -/
theorem load_header {data : List UInt8} (hlen : 6 ≤ data.length) (mem : Memory) :
    (mem.store 0 data).load 2 4 = (data.drop 2).take 4 :=
  Memory.load_store_inside mem (q := 2) (by omega)

/-- A chunk with a whole header selects one branch over every memory. -/
theorem dispatchAt_of_header {data : List UInt8} (hlen : 6 ≤ data.length) (mem mem' : Memory) :
    dispatchAt (mem.store 0 data) = dispatchAt (mem'.store 0 data) := by
  apply Option.ext
  intro k
  rw [dispatchAt_eq_some_iff, dispatchAt_eq_some_iff, load_header hlen, load_header hlen]

/-- A settled chunk has the same outcome over every stale buffer. -/
theorem sameOnStaleBytes_of_settled {data : List UInt8} (h : Settled data) :
    SameOnStaleBytes data := by
  intro logic session djunk djunk' junk junk' _
  rw [observed_receivedMsg, observed_receivedMsg]
  unfold Settled at h
  split_ifs at h with hshort
  · simp only [decoded, dispatchAt_eq_none_of_short hshort h, Option.map_none, answerFrame,
      meetsNull]
  · have hlen : 6 ≤ data.length := by omega
    have hsame := dispatchAt_of_header hlen junk.byBuffer junk'.byBuffer
    cases hk : dispatchAt (junk'.byBuffer.store 0 data) with
    | none => simp only [decoded, hsame, hk, Option.map_none, answerFrame, meetsNull]
    | some k =>
      cases k with
      | registerAccount =>
        simp only [decoded, hsame, hk, Option.map_some, fieldsAt, answerFrame, meetsNull]
      | login => simp only [decoded, hsame, hk, Option.map_some, fieldsAt, answerFrame, meetsNull]
      | checkDynmicCode =>
        have hcomplete : 18 ≤ data.length := by
          apply h
          rw [← load_header hlen junk'.byBuffer]
          exact (dispatchAt_eq_some_iff _ _).mp hk
        have hfields := fieldsAt_check_congr (junk.byBuffer.store 0 data)
          (junk'.byBuffer.store 0 data) fun i hlo hhi => by
            rw [Memory.store_apply_inside _ hlo (by omega),
              Memory.store_apply_inside _ hlo (by omega)]
        simp only [decoded, hsame, hk, Option.map_some, hfields]

def filled (b : UInt8) : Memory := fun i => if 0 ≤ i ∧ i < 10000 then b else 0

/-- Behind the buffer the filled memory is zero. -/
theorem filled_outside {i : Int} (b : UInt8) (h : i < 0 ∨ 10000 ≤ i) : filled b i = 0 :=
  if_neg (by omega)

/-- Two stale buffers show one outcome on such a chunk. -/
theorem outcomes_eq {data : List UInt8} (h : SameOnStaleBytes data) (mem mem' : Memory)
    (hagree : ∀ i, i < 0 ∨ 10000 ≤ i → mem i = mem' i) :
    dispatchAt (mem.store 0 data) = dispatchAt (mem'.store 0 data) ∧
      answerFrame MsgLogic.empty (decoded (mem.store 0 data)) =
        answerFrame MsgLogic.empty (decoded (mem'.store 0 data)) := by
  have hsame := h MsgLogic.empty ⟨0, 0, .unset 0⟩ ⟨0, 0, ⟨filled 0, 0, 0⟩⟩ ⟨0, 0, ⟨filled 0, 0, 0⟩⟩
    ⟨mem, 0, 0⟩ ⟨mem', 0, 0⟩ hagree
  rw [observed_receivedMsg, observed_receivedMsg] at hsame
  simp only [Prod.mk.injEq] at hsame
  exact ⟨hsame.1, Option.map_injective (fun a b hab => (Prod.mk.inj hab).2) hsame.2.2⟩

/-- Stale bytes can complete a header whose beginning was received. -/
theorem dispatchAt_completed {data : List UInt8} {k : RequestKind} (hlen : data.length < 6)
    (hpre : data.drop 2 <+: headerCode k) :
    dispatchAt (((filled 0).store 2 (headerCode k)).store 0 data) = some k := by
  rw [dispatchAt_eq_some_iff]
  apply List.ext_getElem?
  intro j
  by_cases hj : j < 4
  · rw [Memory.load_getElem? _ _ _ _ hj, List.getElem?_eq_getElem (by simpa using hj)]
    congr 1
    by_cases hin : 2 + j < data.length
    · have hget := hpre.getElem (i := j) (by simp only [List.length_drop]; omega)
      rw [List.getElem_drop] at hget
      rw [Memory.store_apply_inside _ (by omega) (by omega), ← hget,
        show ((2 : Int) + j - 0).toNat = 2 + j by omega, List.getD_eq_getElem _ _ hin]
    · rw [Memory.store_apply_outside _ (by omega),
        Memory.store_apply_inside _ (by omega) (by rw [headerCode_length]; omega),
        show ((2 : Int) + j - 2).toNat = j by omega, List.getD_eq_getElem _ _ (by simpa using hj)]
  · rw [List.getElem?_eq_none (by simpa using hj), List.getElem?_eq_none (by simpa using hj)]

/-- Less than a header over `0xff` bytes selects no class. -/
theorem dispatchAt_filled {data : List UInt8} (hlen : data.length < 6) :
    dispatchAt ((filled 0xff).store 0 data) = none := by
  by_contra hsome
  obtain ⟨k, hk⟩ := Option.ne_none_iff_exists'.mp hsome
  rw [dispatchAt_eq_some_iff] at hk
  have hlast := congrArg (fun l => l[3]?) hk
  simp only [Memory.load_getElem? _ _ 4 3 (by decide)] at hlast
  rw [Memory.store_apply_outside _ (by omega)] at hlast
  cases k <;> revert hlast <;> decide

/-- An unsettled chunk has two outcomes. -/
theorem settled_of_sameOnStaleBytes {data : List UInt8} (h : SameOnStaleBytes data) :
    Settled data := by
  unfold Settled
  split_ifs with hlen
  · intro k hpre
    have hboth := (outcomes_eq h ((filled 0).store 2 (headerCode k)) (filled 0xff) fun i hi => by
      rw [Memory.store_apply_outside _ (by rw [headerCode_length]; omega),
        filled_outside _ hi, filled_outside _ hi]).1
    rw [dispatchAt_completed hlen hpre, dispatchAt_filled hlen] at hboth
    cases hboth
  · intro hcode
    by_contra hshort
    have hframes := (outcomes_eq h (filled 0) (filled 1) fun i hi => by
      rw [filled_outside _ hi, filled_outside _ hi]).2
    have hcheck : ∀ mem : Memory, dispatchAt (mem.store 0 data) = some .checkDynmicCode := by
      intro mem
      rw [dispatchAt_eq_some_iff, ← hcode]
      exact load_header (by omega) mem
    simp only [decoded, hcheck, Option.map_some, fieldsAt, answerFrame,
      verdict_of_isEmpty (show MsgLogic.empty.mapAllClient = ∅ from rfl), Option.some_inj]
      at hframes
    -- the echoed id ends with byte 17, which was not received
    have hlast := Memory.apply_eq_of_dwordAt_eq (checkFrame_inj hframes)
    rw [Memory.store_apply_outside _ (by omega), Memory.store_apply_outside _ (by omega)] at hlast
    revert hlast
    decide

/-- The outcome of `DealMsg` on a chunk is independent of stale memory exactly where the
received bytes settle it. -/
theorem same_on_stale_bytes_iff (data : List UInt8) : SameOnStaleBytes data ↔ Settled data :=
  ⟨settled_of_sameOnStaleBytes, sameOnStaleBytes_of_settled⟩

/-- A check of a dynamic code cut off after its header. -/
def truncatedCheck : List UInt8 := [18, 0, 0x37, 0x10, 0xe8, 0x03]

/-- The answer to six bytes of a check depends on what the buffer held before. -/
theorem truncatedCheck_leaks :
    truncatedCheck.length ≤ 4000 ∧ ¬ SameOnStaleBytes truncatedCheck := by
  refine ⟨by decide, fun h => ?_⟩
  have hsettled := settled_of_sameOnStaleBytes h
  rw [Settled, if_neg (by decide)] at hsettled
  exact absurd (hsettled (by decide)) (by decide)

end ShootGame.Analysis
