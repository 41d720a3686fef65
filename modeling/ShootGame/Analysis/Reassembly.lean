import Mathlib.Algebra.Order.BigOperators.Group.List
import ShootGame.Analysis.Addressing
import ShootGame.Analysis.Delivery
import ShootGame.Analysis.IdReuse

/-!
# Reassembly of a byte stream

TCP delivers the bytes of a sequence of frames cut anywhere.  `Handle_Read` makes a
message of every chunk and `DealMsg` decodes one request from every message, so that the
sent requests come out again exactly where the chunks are the frames
(`reassembles_iff`).

The hard direction rests on stale memory.  What a connection's chunks mean must not
depend on what their buffers held before, and a chunk that is decoded to the same
request over every memory is at least as long as that request's frame
(`encoding_length_le`).  The chunks are no longer than the frames altogether, so no
chunk can be longer or shorter than its frame.
-/

set_option autoImplicit false

namespace ShootGame.Analysis

open ShootGame.Library ShootGame.Model

/-! ## Chunks that mean the same over every memory -/

def constant (b : UInt8) : Memory := fun _ => b

/-- Behind what is stored the memory is as it was. -/
theorem store_constant_outside {b : UInt8} {data : List UInt8} {i : Int}
    (h : data.length ≤ i) : (constant b).store 0 data i = b :=
  Memory.store_apply_outside _ (by omega)

/-- A word whose high byte was not received is large or small with that byte. -/
theorem wordAt_constant (b : UInt8) {data : List UInt8} {p : Int} (h : data.length ≤ p + 1) :
    b.toNat * 256 ≤ (((constant b).store 0 data).wordAt p).toNat ∧
      (((constant b).store 0 data).wordAt p).toNat ≤ b.toNat * 256 + 255 := by
  rw [Memory.wordAt, leWord_toNat, store_constant_outside h]
  have hlow := ((constant b).store 0 data p).toNat_lt
  omega

/-- A word within the bytes received does not depend on the memory under them. -/
theorem wordAt_received {data : List UInt8} {p : Int} (hlo : 0 ≤ p) (hhi : p + 2 ≤ data.length)
    (mem mem' : Memory) : (mem.store 0 data).wordAt p = (mem'.store 0 data).wordAt p :=
  Memory.wordAt_congr fun i h₁ h₂ => by
    rw [Memory.store_apply_inside _ (by omega) (by omega),
      Memory.store_apply_inside _ (by omega) (by omega)]

/-- A string none of whose bytes was received has its announced length over bytes that
are not NUL. -/
theorem cString_load_stale {b : UInt8} (hb : b ≠ 0) {data : List UInt8} {p : Int}
    (h : data.length ≤ p) (n : ℕ) :
    (cString (((constant b).store 0 data).load p n)).length = n := by
  rw [cString_eq_self, Memory.load_length]
  rw [Memory.mem_load]
  rintro ⟨k, -, hk⟩
  rw [store_constant_outside (by omega)] at hk
  exact hb hk

/-- A string over zeros ends with the received bytes. -/
theorem cString_load_zero (data : List UInt8) {p : ℕ} (hp : p ≤ data.length) (n : ℕ) :
    p + (cString (((constant 0).store 0 data).load p n)).length ≤ data.length := by
  by_contra hlong
  have hprefix : cString (((constant 0).store 0 data).load p n) <+:
      ((constant 0).store 0 data).load p n := List.takeWhile_prefix _
  have hlen := cString_length_le (((constant 0).store 0 data).load p n)
  rw [Memory.load_length] at hlen
  have hlt : data.length - p < (cString (((constant 0).store 0 data).load p n)).length := by omega
  have hget := hprefix.getElem hlt
  have hzero : (((constant 0).store 0 data).load p n)[data.length - p]? = some 0 := by
    rw [Memory.load_getElem? _ _ _ _ (by omega), store_constant_outside (by omega)]
  rw [List.getElem?_eq_getElem (by rw [Memory.load_length]; omega), Option.some.injEq] at hzero
  have hmem := List.getElem_mem hlt
  rw [hget, hzero] at hmem
  exact zero_notMem_cString _ hmem

/-- Where a string behind its length is the same over two memories, its length was
received. -/
theorem length_received {data str : List UInt8} {p : Int}
    (hff : cString (((constant 0xff).store 0 data).load (p + 2)
      (((constant 0xff).store 0 data).wordAt p).toNat) = str)
    (h0 : cString (((constant 0).store 0 data).load (p + 2)
      (((constant 0).store 0 data).wordAt p).toNat) = str) : p + 2 ≤ data.length := by
  by_contra hshort
  have hstale : (data.length : Int) ≤ p + 1 := by omega
  have hlarge := (wordAt_constant 0xff hstale).1
  have hsmall := (wordAt_constant 0 hstale).2
  have hlenff := cString_load_stale (b := 0xff) (by decide)
    (show (data.length : Int) ≤ p + 2 by omega) (((constant 0xff).store 0 data).wordAt p).toNat
  have hlen0 := cString_length_le (((constant 0).store 0 data).load (p + 2)
    (((constant 0).store 0 data).wordAt p).toNat)
  rw [hff] at hlenff
  rw [h0, Memory.load_length] at hlen0
  have h255 : (0xff : UInt8).toNat = 255 := rfl
  have hzero : (0 : UInt8).toNat = 0 := rfl
  omega

/-- Two strings that are the same over every memory lie in the received bytes. -/
theorem strings_length_le {data a p : List UInt8}
    (ha : ∀ mem : Memory, accountAt (mem.store 0 data) = a)
    (hp : ∀ mem : Memory, passwordAt (mem.store 0 data) = p) :
    10 + a.length + p.length ≤ data.length := by
  have ha0 := ha (constant 0)
  have h8 := length_received (p := 6) (ha (constant 0xff)) ha0
  have hlen : accountLen ((constant 0xff).store 0 data) = accountLen ((constant 0).store 0 data) :=
    congrArg UInt16.toNat (wordAt_received (by omega) h8 _ _)
  have hpff := hp (constant 0xff)
  have hp0 := hp (constant 0)
  rw [passwordAt, passwordLen, hlen] at hpff
  rw [passwordAt, passwordLen] at hp0
  have hn : a.length ≤ accountLen ((constant 0).store 0 data) := by
    rw [← ha0, accountAt]
    simpa using cString_length_le (((constant 0).store 0 data).load 8 _)
  generalize accountLen ((constant 0).store 0 data) = n at *
  have hoff : (10 : Int) + n = 8 + n + 2 := by ring
  rw [hoff] at hpff hp0
  have h10 := length_received (p := 8 + n) hpff hp0
  have hin := cString_load_zero data (p := 10 + n) (by omega)
    (((constant 0).store 0 data).wordAt (8 + n)).toNat
  rw [show ((10 + n : ℕ) : Int) = 8 + n + 2 by push_cast; ring, hp0] at hin
  omega

/-- A chunk that means the same request over every memory is as long as its frame. -/
theorem encoding_length_le {data : List UInt8} {q : Request}
    (h : ∀ mem : Memory, decoded (mem.store 0 data) = some q) :
    (encoding q).length ≤ data.length := by
  have hfields : ∀ mem : Memory, fieldsAt (mem.store 0 data) (kindOf q) = q := by
    intro mem
    have hkind := map_kindOf_decoded (mem.store 0 data)
    rw [h mem, Option.map_some] at hkind
    have hdecoded := h mem
    rwa [decoded, ← hkind, Option.map_some, Option.some_inj] at hdecoded
  rw [encoding_length]
  cases q with
  | registerAccount a p =>
    have hstrings := strings_length_le (fun mem => (Request.registerAccount.inj (hfields mem)).1)
      (fun mem => (Request.registerAccount.inj (hfields mem)).2)
    simp only [payload, List.length_append, HMessage.stringBytes_length]
    omega
  | login a p =>
    have hstrings := strings_length_le (fun mem => (Request.login.inj (hfields mem)).1)
      (fun mem => (Request.login.inj (hfields mem)).2)
    simp only [payload, List.length_append, HMessage.stringBytes_length]
    omega
  | checkDynmicCode c sid d =>
    by_contra hshort
    simp only [payload, List.length_append, beBytes_length] at hshort
    have hff := (Request.checkDynmicCode.inj (hfields (constant 0xff))).2.2
    have h0 := (Request.checkDynmicCode.inj (hfields (constant 0))).2.2
    have hlast := Memory.apply_eq_of_dwordAt_eq (hff.trans h0.symm)
    rw [store_constant_outside (by omega), store_constant_outside (by omega)] at hlast
    revert hlast
    decide

/-! ## What a drained run has decoded -/

/-- The request an effect decoded from a message of a session. -/
def requestOf (object : ℕ) : Effect → Option Request
  | .dealt hmg request => if hmg.iSessionID.read = sessionId object then request else none
  | _ => none

def requestsFrom (object : ℕ) (effects : List Effect) : List Request :=
  effects.filterMap (requestOf object)

/-- The request a read means. -/
def meaning (read : List UInt8 × Junk) : Option Request :=
  decoded (read.2.byBuffer.store 0 read.1)

/-- The requests of a client are what its messages decode to. -/
theorem requestsFrom_eq_filterMap {rand : UInt32} {h : List (Event × List Effect)} {s : Server}
    (hrun : ServerRun rand h s) (object : ℕ) :
    requestsFrom object (outputs h) =
      (messagesOf object ((outputs h).filterMap dealtMsg)).filterMap
        fun hmg => decoded hmg.byBuffer := by
  have hall : ∀ eff ∈ outputs h, requestOf object eff = (dealtMsg eff).bind fun hmg =>
      if hmg.iSessionID.read = sessionId object then decoded hmg.byBuffer else none := by
    intro eff hmem
    cases eff with
    | dealt hmg request =>
      obtain ⟨e, o, hentry, hin⟩ := mem_outputs.mp hmem
      obtain ⟨k, t, v, ht, hstep⟩ := hrun.step_of_mem hentry
      rw [decoded_of_dealt (flowInv_of_run ht) (stepped_of_step hstep).2 hin]
      rfl
    | _ => rfl
  rw [requestsFrom, List.filterMap_congr hall, messagesOf, List.filterMap_filter,
    List.filterMap_filterMap]
  simp

/-- The messages decode to what the reads mean. -/
theorem filterMap_decoded_of_receivedBy {object : ℕ} {reads : List (List UInt8 × Junk)}
    {hmgs : List HMessage} (h : List.Forall₂ (ReceivedBy object) reads hmgs) :
    hmgs.filterMap (fun hmg => decoded hmg.byBuffer) = reads.filterMap meaning := by
  induction h with
  | nil => rfl
  | cons hread _ ih =>
    obtain ⟨session, -, rfl⟩ := hread
    rw [List.filterMap_cons, List.filterMap_cons, ih]
    rfl

/-- Once nothing is waiting, the requests decoded from a session are what its reads mean,
one by one. -/
theorem requestsFrom_of_drained {rand : UInt32} {h : List (Event × List Effect)} {s : Server}
    (hrun : ServerRun rand h s) {object : ℕ} (hown : OwnId object (inputs h))
    (hdrained : waiting s = []) :
    requestsFrom object (outputs h) = (readsOn object (inputs h)).filterMap meaning := by
  have hqueued := queued_of_session hrun hown
  rw [queued_eq_dealt_append_waiting hrun, hdrained, List.append_nil] at hqueued
  rw [requestsFrom_eq_filterMap hrun, filterMap_decoded_of_receivedBy hqueued]

/-! ## Runs that drain -/

/-- Reads of one client that nothing goes wrong with. -/
def readAll (reads : List (List UInt8 × Junk)) : List Event :=
  reads.map fun read => .readDone 0 false read.1 read.2

/-- Any reads of at most 4000 bytes make a run with one client. -/
theorem exists_run_reads (reads : List (List UInt8 × Junk))
    (hlen : ∀ r ∈ reads, r.1.length ≤ 4000) :
    ∃ h s, ServerRun 0 h s ∧ s.halted = none ∧
      inputs h = .acceptDone false 0 :: readAll reads := by
  induction reads using List.reverseRecOn with
  | nil =>
    obtain ⟨h, s, hrun, hrunning, hin⟩ := exists_run_accepts 0 1
    exact ⟨h, s, hrun, hrunning, hin⟩
  | append_singleton reads read ih =>
    obtain ⟨h, s, hrun, hrunning, hin⟩ := ih fun r hmem => hlen r (List.mem_append_left _ hmem)
    have haccepts : 0 < accepts (inputs h) := by
      rw [hin]
      exact Nat.lt_of_lt_of_le Nat.zero_lt_one (by simp [accepts, isAccept])
    obtain ⟨t, o, hstep, hrunning'⟩ :=
      exists_read_step hrun hrunning haccepts false (hlen read (by simp)) read.2
    exact ⟨_, t, hrun.next hstep, hrunning', by simp [hin, readAll]⟩

/-- In such a run one identifier is taken. -/
theorem leaseOps_reads (reads : List (List UInt8 × Junk)) :
    leaseOps (.acceptDone false 0 :: readAll reads) = [.take 0] := by
  induction reads using List.reverseRecOn with
  | nil => rfl
  | append_singleton reads read ih =>
    rw [readAll, List.map_append, ← List.cons_append, List.map_singleton, leaseOps_concat]
    exact (List.append_nil _).trans ih

/-- There is one accept. -/
theorem accepts_reads (reads : List (List UInt8 × Junk)) :
    accepts (.acceptDone false 0 :: readAll reads) = 1 := by
  have hnone : accepts (readAll reads) = 0 := by
    rw [accepts, readAll, List.countP_map, List.countP_eq_zero]
    simp [isAccept]
  rw [← List.singleton_append, accepts_append, hnone]
  rfl

/-- The reads of the client are these. -/
theorem readsOn_reads (reads : List (List UInt8 × Junk)) :
    readsOn 0 (.acceptDone false 0 :: readAll reads) = reads := by
  rw [← List.singleton_append, readsOn_append, readAll, readsOn, readsOn, List.filterMap_map]
  exact List.filterMap_some

/-- The main loop alone reads nothing. -/
theorem readDone_notMem_of_mainOnly {es : List Event} (h : MainOnly es) (object : ℕ) (error : Bool)
    (data : List UInt8) (junk : Junk) : .readDone object error data junk ∉ es := by
  intro hmem
  obtain ⟨djunk, outcome, heq⟩ := h _ hmem
  cases heq

/-- No client is read while the main loop runs alone. -/
theorem readsOn_of_mainOnly {es : List Event} (h : MainOnly es) (object : ℕ) :
    readsOn object es = [] := by
  rw [readsOn, List.filterMap_eq_nil_iff]
  intro e hmem
  obtain ⟨junk, outcome, rfl⟩ := h e hmem
  rfl

/-- The main loop deals with all messages of the client without missing it. -/
theorem answersListed_reads {h : List (Event × List Effect)} {s : Server}
    (hrun : ServerRun 0 h s) (hrunning : s.halted = none) {reads : List (List UInt8 × Junk)}
    (hin : inputs h = .acceptDone false 0 :: readAll reads) : AnswersListed s := by
  intro hmg hmem _
  obtain ⟨session, data, junk, rfl, hlt, hnum⟩ := origin_of_waiting hrun hmg hmem
  rw [hin, accepts_reads, Nat.lt_one_iff] at hlt
  have hentry := table_eq_leased hrun hrunning session.iID
  rw [hin, leaseOps_reads, hnum.iID, hlt] at hentry
  have hlease : leased sessionId [.take 0] (sessionId 0) = some 0 := by
    simp [leased, LeaseOp.apply]
  rw [hlease, Option.map_some] at hentry
  obtain ⟨entry, hfound, hsome⟩ := Option.map_eq_some_iff.mp hentry
  obtain ⟨found, rfl, -⟩ := Option.map_eq_some_iff.mp hsome
  refine ⟨found, ?_⟩
  rw [← hfound, ← hlt, ← hnum.iID]
  rfl

/-- The client's chunks can be read and dealt with. -/
theorem exists_drained_run (reads : List (List UInt8 × Junk))
    (hlen : ∀ r ∈ reads, r.1.length ≤ 4000) :
    ∃ h s, ServerRun 0 h s ∧ waiting s = [] ∧ readsOn 0 (inputs h) = reads ∧
      OwnId 0 (inputs h) ∧ NoFailedRead (inputs h) := by
  obtain ⟨h, s, hrun, hrunning, hin⟩ := exists_run_reads reads hlen
  have hflow := flowInv_of_run hrun
  obtain ⟨k, t, hk, hmain, hend⟩ := exists_drain hflow hrunning zeroedDeal
  have haddressed := (addressed_run hflow (answersListed_reads hrun hrunning hin) hk
    fun k₁ e o k₂ s₁ heq _ => by
      obtain ⟨junk, outcome, rfl⟩ := hmain e (by rw [heq]; simp)
      trivial).2
  have hdrained : waiting t = [] := by
    rcases hend with ⟨id, frame, hmiss⟩ | ⟨hempty, -⟩
    · obtain ⟨session, hsession⟩ := haddressed id none frame hmiss
      cases hsession
    · exact hempty
  have hread : ∀ object error data junk, .readDone object error data junk ∈ inputs (h ++ k) →
      object = 0 ∧ error = false := by
    intro object error data junk hmem
    rw [inputs_append, hin] at hmem
    simp only [List.cons_append, List.mem_cons, List.mem_append, reduceCtorEq, false_or] at hmem
    rcases hmem with hmem | hmem
    · obtain ⟨read, -, heq⟩ := List.mem_map.mp hmem
      simp only [Event.readDone.injEq] at heq
      exact ⟨heq.1.symm, heq.2.1.symm⟩
    · exact absurd hmem (readDone_notMem_of_mainOnly hmain object error data junk)
  refine ⟨h ++ k, t, hrun.trans hk, hdrained, ?_, ?_, ?_⟩
  · rw [inputs_append, hin, readsOn_append, readsOn_reads, readsOn_of_mainOnly hmain,
      List.append_nil]
  · exact fun object error data junk hmem _ => (hread object error data junk hmem).1
  · intro object data junk hmem
    have hfailed := (hread object true data junk hmem).2
    cases hfailed

/-! ## The stream of one connection -/

/-- The bytes a sender puts on the wire for a request. -/
def Sent (q : Request) (frame : List UInt8) : Prop :=
  ∃ junk junkField junkMsg, frame = q.frame junk junkField junkMsg

/-- Whenever exactly these chunks have been read on a connection, in whatever company and
over whatever memory, and everything has been dealt with, the requests decoded from its
session are these. -/
def Reassembles (reqs : List Request) (chunks : List (List UInt8)) : Prop :=
  ∀ object rand h s, ServerRun rand h s → OwnId object (inputs h) →
    (∀ data junk, .readDone object true data junk ∉ inputs h) →
    chunksOn object (inputs h) = chunks → waiting s = [] →
    requestsFrom object (outputs h) = reqs

/-- The frames sent are the encodings, where these fit. -/
theorem frames_eq_map_encoding {reqs : List Request} {frames : List (List UInt8)}
    (hfit : ∀ q ∈ reqs, (encoding q).length ≤ 4000) (hsent : List.Forall₂ Sent reqs frames) :
    frames = reqs.map encoding := by
  induction hsent with
  | nil => rfl
  | cons hframe _ ih =>
    obtain ⟨junk, junkField, junkMsg, rfl⟩ := hframe
    rw [List.forall_mem_cons] at hfit
    rw [List.map_cons, ← ih hfit.2, frame_eq_encoding _ _ _ _ (by omega)]

/-- Reads that carry one encoding each mean the requests. -/
theorem filterMap_meaning_encoding {reqs : List Request} (hnul : ∀ q ∈ reqs, NulFree q)
    (hfit : ∀ q ∈ reqs, (encoding q).length ≤ 4000) {reads : List (List UInt8 × Junk)}
    (hreads : reads.map Prod.fst = reqs.map encoding) : reads.filterMap meaning = reqs := by
  induction reqs generalizing reads with
  | nil => simp [List.map_eq_nil_iff.mp hreads]
  | cons q reqs ih =>
    rw [List.forall_mem_cons] at hnul hfit
    obtain ⟨read, rest, rfl, hfirst, hrest⟩ := List.map_eq_cons_iff.mp hreads
    have hmeaning : meaning read = some q := by
      have hdecoded := decoded_encoding read.2.byBuffer q [] hnul.1 (by omega)
      rwa [List.append_nil, ← hfirst] at hdecoded
    rw [List.filterMap_cons_some hmeaning, ih hnul.2 hfit.2 hrest]

/-- What is reassembled is reassembled over any memory. -/
theorem filterMap_meaning_of_reassembles {reqs : List Request} {chunks : List (List UInt8)}
    (h : Reassembles reqs chunks) (hlen : ∀ c ∈ chunks, c.length ≤ 4000)
    (reads : List (List UInt8 × Junk)) (hreads : reads.map Prod.fst = chunks) :
    reads.filterMap meaning = reqs := by
  obtain ⟨k, s, hrun, hdrained, hon, hown, hnone⟩ := exists_drained_run reads fun r hmem =>
    hlen r.1 (hreads ▸ List.mem_map_of_mem hmem)
  have hchunks : chunksOn 0 (inputs k) = chunks := by rw [chunksOn, hon, hreads]
  rw [← h 0 0 k s hrun hown (hnone 0) hchunks hdrained, requestsFrom_of_drained hrun hown hdrained,
    hon]

/-- Where the requests are reassembled over any memory, no chunk depends on it. -/
theorem meaning_eq_of_reassembles {reqs : List Request} {chunks : List (List UInt8)}
    (h : Reassembles reqs chunks) (hlen : ∀ c ∈ chunks, c.length ≤ 4000) {c : List UInt8}
    (hc : c ∈ chunks) (junk junk' : Junk) : meaning (c, junk) = meaning (c, junk') := by
  obtain ⟨before, after, rfl⟩ := List.append_of_mem hc
  have hreqs : ∀ j : Junk,
      (before.map fun c => (c, zeroed)).filterMap meaning ++ ((meaning (c, j)).toList ++
        (after.map fun c => (c, zeroed)).filterMap meaning) = reqs := by
    intro j
    rw [← filterMap_meaning_of_reassembles h hlen
      ((before.map fun c => (c, zeroed)) ++ (c, j) :: after.map fun c => (c, zeroed))
      (by simp [Function.comp_def]), List.filterMap_append]
    cases hm : meaning (c, j) <;> simp [hm]
  have heq := (hreqs junk).trans (hreqs junk').symm
  rw [List.append_cancel_left_eq, List.append_cancel_right_eq] at heq
  revert heq
  cases meaning (c, junk) <;> cases meaning (c, junk') <;> simp

/-- Chunks that are at least as long as what they mean, and no longer altogether, are
just as long. -/
theorem lengths_eq_of_sum_eq (value : List UInt8 → Option Request) (chunks : List (List UInt8))
    (hne : ∀ c ∈ chunks, c ≠ [])
    (hle : ∀ c ∈ chunks, ∀ q, value c = some q → (encoding q).length ≤ c.length)
    (hsum : (chunks.map List.length).sum ≤
      ((chunks.filterMap value).map fun q => (encoding q).length).sum) :
    chunks.map List.length = (chunks.filterMap value).map fun q => (encoding q).length := by
  have hbound : ∀ cs : List (List UInt8),
      (∀ c ∈ cs, ∀ q, value c = some q → (encoding q).length ≤ c.length) →
      ((cs.filterMap value).map fun q => (encoding q).length).sum ≤ (cs.map List.length).sum := by
    intro cs hcs
    induction cs with
    | nil => simp
    | cons c cs ih =>
      rw [List.forall_mem_cons] at hcs
      have hrest := ih hcs.2
      cases hv : value c with
      | none =>
        simp only [List.map_cons, List.sum_cons, List.filterMap_cons, hv]
        omega
      | some q =>
        have hfirst := hcs.1 q hv
        simp only [List.map_cons, List.sum_cons, List.filterMap_cons, hv]
        omega
  induction chunks with
  | nil => rfl
  | cons c cs ih =>
    rw [List.forall_mem_cons] at hne hle
    have hrest := hbound cs hle.2
    cases hv : value c with
    | none =>
      have hpos := List.length_pos_iff.mpr hne.1
      simp only [List.map_cons, List.sum_cons, List.filterMap_cons, hv] at hsum
      omega
    | some q =>
      have hfirst := hle.1 q hv
      simp only [List.map_cons, List.sum_cons, List.filterMap_cons, hv] at hsum ⊢
      rw [ih hne.2 hle.2 (by omega), show c.length = (encoding q).length by omega]

/-- Chunks that the requests are reassembled from are their encodings. -/
theorem chunks_eq_of_reassembles {reqs : List Request} {chunks : List (List UInt8)}
    (hchunks : ∀ c ∈ chunks, c ≠ [] ∧ c.length ≤ 4000)
    (hcut : chunks.flatten = (reqs.map encoding).flatten) (h : Reassembles reqs chunks) :
    chunks = reqs.map encoding := by
  have hlen : ∀ c ∈ chunks, c.length ≤ 4000 := fun c hc => (hchunks c hc).2
  have hreqs : chunks.filterMap (fun c => meaning (c, zeroed)) = reqs := by
    have hreads := filterMap_meaning_of_reassembles h hlen
      (chunks.map fun c => (c, zeroed)) (by simp [Function.comp_def])
    rwa [List.filterMap_map] at hreads
  have hlengths := lengths_eq_of_sum_eq (fun c => meaning (c, zeroed)) chunks
    (fun c hc => (hchunks c hc).1)
    (fun c hc q hq => encoding_length_le fun mem =>
      (meaning_eq_of_reassembles h hlen hc ⟨mem, 0, 0⟩ zeroed).trans hq)
    (by
      have htotal := congrArg List.length hcut
      rw [List.length_flatten, List.length_flatten, List.map_map] at htotal
      rw [hreqs, htotal]
      rfl)
  rw [hreqs] at hlengths
  rw [List.eq_iff_flatten_eq, hcut, hlengths, List.map_map]
  exact ⟨rfl, rfl⟩

/-- The requests sent over a connection are the requests decoded exactly where every
read delivers one whole frame. -/
theorem reassembles_iff {reqs : List Request} {frames chunks : List (List UInt8)}
    (hnul : ∀ q ∈ reqs, NulFree q) (hfit : ∀ q ∈ reqs, (encoding q).length ≤ 4000)
    (hsent : List.Forall₂ Sent reqs frames) (hcut : chunks.flatten = frames.flatten)
    (hchunks : ∀ c ∈ chunks, c ≠ [] ∧ c.length ≤ 4000) :
    Reassembles reqs chunks ↔ chunks = frames := by
  obtain rfl := frames_eq_map_encoding hfit hsent
  refine ⟨chunks_eq_of_reassembles hchunks hcut, ?_⟩
  rintro rfl object rand h s hrun hown hnone hon hdrained
  rw [requestsFrom_of_drained hrun hown hdrained]
  exact filterMap_meaning_encoding hnul hfit hon

/-- Two logins, the bytes of the first and of the second. -/
def twoLogins : List Request := [.login [65] [66], .login [67] [68]]

/-- The two logins are sent as their encodings. -/
theorem twoLogins_sent : List.Forall₂ Sent twoLogins (twoLogins.map encoding) := by
  rw [List.forall₂_map_right_iff, List.forall₂_same]
  intro q hq
  have hfit : ∀ q ∈ twoLogins, (encoding q).length < 10000 := by decide
  exact ⟨0, 0, zeroed, (frame_eq_encoding 0 0 zeroed q (hfit q hq)).symm⟩

/-- Read one by one, two logins are decoded. -/
theorem reassembles_iff_two_logins : Reassembles twoLogins (twoLogins.map encoding) :=
  (reassembles_iff (by simp [twoLogins, NulFree]) (by decide) twoLogins_sent rfl
    (by decide)).mpr rfl

/-- Read at once, they are not. -/
theorem coalesced_logins_lost :
    (∀ q ∈ twoLogins, NulFree q ∧ (encoding q).length ≤ 4000) ∧
      (twoLogins.map encoding).flatten.length ≤ 4000 ∧
      ¬ Reassembles twoLogins [(twoLogins.map encoding).flatten] := by
  refine ⟨by simp [twoLogins, NulFree, encoding_length, payload], by decide, fun h => ?_⟩
  have heq := chunks_eq_of_reassembles (by decide) (by simp) h
  exact absurd (congrArg List.length heq) (by decide)

end ShootGame.Analysis
