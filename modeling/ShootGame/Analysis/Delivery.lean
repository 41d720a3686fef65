import Mathlib.Data.List.Forall2
import ShootGame.Analysis.SessionTable

/-!
# Requests and answers of one session

The requests of a session are the chunks read on its connection, and its answers the
frames written to its socket.  Between the two stand the queue, the batch and the table.
`queued_of_session` follows the chunks to the queue, and `orderly_step` the messages
taken from there to the frames.

In a run without failures the frames are the answers to the requests dealt with so far,
each exactly once and in order (`replies_in_order`).
-/

set_option autoImplicit false

namespace ShootGame.Analysis

open ShootGame.Library ShootGame.Model

/-! ## The view of one session -/

/-- The bytes an event reads on the connection of `object`, and the storage they go to. -/
def readOf (object : ℕ) : Event → Option (List UInt8 × Junk)
  | .readDone o _ data junk => if o = object then some (data, junk) else none
  | _ => none

def readsOn (object : ℕ) (es : List Event) : List (List UInt8 × Junk) :=
  es.filterMap (readOf object)

def chunksOn (object : ℕ) (es : List Event) : List (List UInt8) := (readsOn object es).map Prod.fst

/-- The bytes an effect writes to the connection of `object`. -/
def frameTo (object : ℕ) : Effect → Option (List UInt8)
  | .write o frame accepted => if o = object then some (frame.take accepted) else none
  | _ => none

def framesTo (object : ℕ) (effects : List Effect) : List (List UInt8) :=
  effects.filterMap (frameTo object)

/-- The messages that carry the id of a session. -/
def messagesOf (object : ℕ) (hmgs : List HMessage) : List HMessage :=
  hmgs.filter fun hmg => hmg.iSessionID.read = sessionId object

/-- The message was received on the connection of `object` by this read. -/
def ReceivedBy (object : ℕ) (read : List UInt8 × Junk) (hmg : HMessage) : Prop :=
  ∃ session, session.object = object ∧
    hmg = MyZServerNetwork.receivedMsg session read.1 read.2

def Holds (object : ℕ) (data : List UInt8) (hmg : HMessage) : Prop :=
  ∃ junk, ReceivedBy object (data, junk) hmg

/-- No other connection with the id of this one is read. -/
def OwnId (object : ℕ) (es : List Event) : Prop :=
  ∀ o error data junk, Event.readDone o error data junk ∈ es → sessionId o = sessionId object →
    o = object

/-- An id of one's own in a run is so in its parts. -/
theorem OwnId.of_append {object : ℕ} {es fs : List Event} (h : OwnId object (es ++ fs)) :
    OwnId object es ∧ OwnId object fs :=
  ⟨fun o error data junk hmem => h o error data junk (List.mem_append_left _ hmem),
    fun o error data junk hmem => h o error data junk (List.mem_append_right _ hmem)⟩

/-- The messages of a session in two lists. -/
@[simp] theorem messagesOf_append (object : ℕ) (l₁ l₂ : List HMessage) :
    messagesOf object (l₁ ++ l₂) = messagesOf object l₁ ++ messagesOf object l₂ :=
  List.filter_append ..

/-- The reads on a connection in two lists of events. -/
@[simp] theorem readsOn_append (object : ℕ) (es fs : List Event) :
    readsOn object (es ++ fs) = readsOn object es ++ readsOn object fs :=
  List.filterMap_append ..

/-- The frames to a connection in two lists of effects. -/
@[simp] theorem framesTo_append (object : ℕ) (o₁ o₂ : List Effect) :
    framesTo object (o₁ ++ o₂) = framesTo object o₁ ++ framesTo object o₂ :=
  List.filterMap_append ..

/-- A step queues the chunk it reads as a message of its session, and nothing else. -/
theorem queued_step {object : ℕ} {es : List Event} {s t : Server} {e : Event} {o : List Effect}
    (hflow : FlowInv s) (hinv : TableInv es s) (hown : OwnId object [e]) (h : Stepped s e t o) :
    List.Forall₂ (ReceivedBy object) (readsOn object [e])
      (messagesOf object (o.filterMap queuedMsg)) := by
  rcases queued_of_stepped hflow h with
    ⟨object', error, data, junk, session, rfl, hreading, hqueued⟩ | ⟨hnoread, hnone⟩
  · obtain ⟨hobject, hlt, hnum⟩ := hinv.of_find? hreading
    have hid : (MyZServerNetwork.receivedMsg session data junk).iSessionID.read =
        sessionId object' := by rw [← hobject, ← hnum.iID]; rfl
    simp only [hqueued, readsOn, readOf, messagesOf, List.filterMap_cons, List.filterMap_nil,
      List.filter_cons, List.filter_nil, hid]
    by_cases hsame : object' = object
    · subst hsame
      simpa using ⟨session, hobject, rfl⟩
    · have hother : sessionId object' ≠ sessionId object :=
        fun heq => hsame (hown object' error data junk (by simp) heq)
      simp [hsame, hother]
  · rw [hnone]
    cases e with
    | readDone object' error data junk => exact absurd rfl (hnoread object' error data junk)
    | _ => exact .nil

/-- The messages of a session that were ever queued are those of the reads on its
connection. -/
theorem queued_of_session {object : ℕ} {rand : UInt32} {h : List (Event × List Effect)}
    {s : Server} (hrun : ServerRun rand h s) (hown : OwnId object (inputs h)) :
    List.Forall₂ (ReceivedBy object) (readsOn object (inputs h))
      (messagesOf object ((outputs h).filterMap queuedMsg)) := by
  induction hrun with
  | start => exact .nil
  | next hprefix hstep ih =>
    rw [inputs_append] at hown
    obtain ⟨hown₁, hown₂⟩ := hown.of_append
    rw [inputs_append, outputs_append, readsOn_append, List.filterMap_append, messagesOf_append]
    have hlast := queued_step (flowInv_of_run hprefix) (tableInv_of_run hprefix) hown₂
      (stepped_of_step hstep).2
    rw [outputs_cons, outputs_nil, List.append_nil]
    exact List.rel_append (ih hown₁) hlast

/-! ## Runs without failures -/

/-- What one chunk carries: a complete request, or a message that is no request. -/
def Carries (data : List UInt8) : Option Request → Prop
  | some q => NulFree q ∧ data = encoding q
  | none => ∀ mem : Memory, decoded (mem.store 0 data) = none

/-- An event without a failure: a read succeeds and carries one message. -/
def OrderlyEvent : Event → Prop
  | .acceptDone _ _ => True
  | .readDone _ error data _ => error = false ∧ ∃ q, Carries data q
  | .mainStep _ outcome => outcome ≠ .throws

def FullWrite : Effect → Prop
  | .write _ frame accepted => accepted = frame.length
  | _ => True

instance (eff : Effect) : Decidable (FullWrite eff) :=
  match eff with
  | .write _ frame accepted => inferInstanceAs (Decidable (accepted = frame.length))
  | .armRead _ | .store _ _ _ | .erase _ _ _ | .enqueue _ _ | .dealt _ _ | .lookup _ _ _ =>
    .isTrue trivial

/-- A run without failures in which no id comes up twice. -/
structure Orderly (h : List (Event × List Effect)) : Prop where
  events : ∀ e ∈ inputs h, OrderlyEvent e
  fewAccepts : accepts (inputs h) < 999999999
  writes : ∀ eff ∈ outputs h, FullWrite eff

/-- The first part of an orderly run is orderly. -/
theorem Orderly.of_append {h k : List (Event × List Effect)} (horderly : Orderly (h ++ k)) :
    Orderly h := by
  obtain ⟨hevents, hfew, hwrites⟩ := horderly
  rw [inputs_append] at hevents hfew
  rw [outputs_append] at hwrites
  rw [accepts_append] at hfew
  exact ⟨fun e hmem => hevents e (List.mem_append_left _ hmem), by omega,
    fun eff hmem => hwrites eff (List.mem_append_left _ hmem)⟩

/-- A chunk that carries a request is decoded to it over any storage. -/
theorem Carries.decoded_eq {data : List UInt8} {q : Option Request} (h : Carries data q)
    (hlen : data.length ≤ 4000) (mem : Memory) : decoded (mem.store 0 data) = q := by
  cases q with
  | none => exact h mem
  | some q =>
    obtain ⟨hnul, rfl⟩ := h
    have hdecoded := decoded_encoding mem q [] hnul (by omega)
    rwa [List.append_nil] at hdecoded

def AllListed (es : List Event) (s : Server) : Prop := ∀ n < accepts es, Listed s (sessionId n)

/-- Where no session is missing and every write takes its whole frame, dealing with a message
writes its answer to its session. -/
theorem orderly_deal {es : List Event} {s : Server} (hflow : FlowInv s) (hinv : TableInv es s)
    (horigin : ∀ hmg ∈ waiting s, Origin es hmg) (hrunning : s.halted = none)
    (hlisted : AllListed es s) (hfew : accepts es < 999999999) {i : ℕ} {hmg : HMessage}
    (hpc : s.pc = .dealMsg i) (hmsg : s.msgLogic.vecAllClientMsg[i]? = some hmg)
    (junk : DealJunk) {outcome : WriteOutcome} (houtcome : outcome ≠ .throws)
    (hwrites : ∀ eff ∈ (s.dealStep junk outcome i hmg).2, FullWrite eff) :
    (s.dealStep junk outcome i hmg).1.halted = none ∧
      (s.dealStep junk outcome i hmg).1.network = s.network ∧
      ∀ object < 999999999, framesTo object (s.dealStep junk outcome i hmg).2 =
        (messagesOf object [hmg]).filterMap answerOf := by
  obtain ⟨session, data, mjunk, hreceived, hlt, hnum⟩ :=
    horigin hmg (by rw [waiting_deal hpc hmsg]; simp)
  have hid : hmg.iSessionID.read = sessionId session.object := by
    rw [← hnum.iID, hreceived]
    rfl
  obtain ⟨net, halted, o, hdeal, heq⟩ := hflow.dealStep_eq hpc hmsg junk outcome
  rw [heq] at hwrites ⊢
  cases hdeal with
  | silent hanswer =>
    refine ⟨hrunning, rfl, fun object _ => ?_⟩
    by_cases hof : sessionId session.object = sessionId object <;>
      simp [framesTo, frameTo, messagesOf, List.filterMap_cons, hid, hof, hanswer]
  | missing table frame hanswer hentry htable =>
    obtain ⟨session', hfound⟩ := hlisted session.object hlt
    exact absurd (hid ▸ hfound) (hentry session')
  | written frame session' n hanswer hentry haccepts =>
    refine ⟨rfl, rfl, fun object hobject => ?_⟩
    obtain ⟨hlt', hnum', hkey⟩ := hinv.entries _ session' hentry
    have hto : session'.object = object ↔ sessionId session.object = sessionId object := by
      rw [← hid, ← hkey, hnum'.iID]
      exact ⟨fun h => by rw [h], sessionId_inj (by omega) hobject⟩
    have hfull : min n frame.length = frame.length :=
      hwrites (.write session'.object frame (min n frame.length)) (by simp)
    by_cases hof : session'.object = object
    · simp [framesTo, frameTo, messagesOf, List.filterMap_cons, hid, hof, hto.mp hof, hanswer,
        hfull]
    · have hother : sessionId session.object ≠ sessionId object := fun h => hof (hto.mpr h)
      simp [framesTo, frameTo, messagesOf, List.filterMap_cons, hid, hof, hother]
  | threw frame session' hanswer hentry hthrows => exact absurd hthrows houtcome

/-- An orderly step keeps the process running and every session in the table, and what it
writes to a session is the answer to the message of that session it deals with. -/
theorem orderly_step {es : List Event} {s t : Server} {e : Event} {o : List Effect}
    (hflow : FlowInv s) (hinv : TableInv es s) (horigin : ∀ hmg ∈ waiting s, Origin es hmg)
    (hrunning : s.halted = none) (hlisted : AllListed es s)
    (hfew : accepts es < 999999999) (hevent : OrderlyEvent e)
    (hwrites : ∀ eff ∈ o, FullWrite eff) (h : Stepped s e t o) :
    t.halted = none ∧ AllListed (es ++ [e]) t ∧
      ∀ object < 999999999, framesTo object o =
        (messagesOf object (o.filterMap dealtMsg)).filterMap answerOf := by
  have hmain : ∀ junk outcome, AllListed (es ++ [.mainStep junk outcome]) s := by
    intro junk outcome n hn
    rw [accepts_append, accepts_mainStep, Nat.add_zero] at hn
    exact hlisted n hn
  cases h with
  | accept error junk session rest haccepting =>
    refine ⟨hrunning, fun n hn => ?_, fun _ _ => rfl⟩
    rw [accepts_append, accepts_acceptDone] at hn
    simp only [Listed, Std.TreeMap.getElem?_insert, Std.LawfulEqCmp.compare_eq_iff_eq,
      hinv.currentID]
    by_cases hnew : sessionId (accepts es) = sessionId n
    · exact ⟨session, if_pos hnew⟩
    · rw [if_neg hnew]
      have hold : n ≠ accepts es := fun heq => hnew (by rw [heq])
      exact hlisted n (by omega)
  | read object error data junk session hreading hlen =>
    obtain ⟨rfl, -⟩ := hevent
    refine ⟨hrunning, fun n hn => ?_, fun _ _ => rfl⟩
    rw [accepts_append, accepts_readDone, Nat.add_zero] at hn
    simpa [Listed, getElem?_tableAfterRead] using hlisted n hn
  | deal junk outcome i hmg hpc hmsg =>
    obtain ⟨hhalted, hnet, hframes⟩ := orderly_deal hflow hinv horigin hrunning hlisted hfew hpc
      hmsg junk hevent hwrites
    refine ⟨hhalted, fun n hn => ?_, ?_⟩
    · rw [Listed, hnet]
      exact hmain junk outcome n hn
    · rw [(hflow.filterMap_dealStep hpc hmsg junk outcome).2]
      exact hframes
  | _ => exact ⟨hrunning, hmain _ _, fun _ _ => rfl⟩

structure OrderlyInv (h : List (Event × List Effect)) (s : Server) : Prop where
  running : s.halted = none
  listed : AllListed (inputs h) s
  frames : ∀ object < 999999999, framesTo object (outputs h) =
    (messagesOf object ((outputs h).filterMap dealtMsg)).filterMap answerOf

/-- The invariant in every orderly run. -/
theorem orderlyInv_of_run {rand : UInt32} {h : List (Event × List Effect)} {s : Server}
    (hrun : ServerRun rand h s) (horderly : Orderly h) : OrderlyInv h s := by
  induction hrun with
  | start => exact ⟨rfl, fun n hn => absurd hn (by simp [accepts]), fun _ _ => rfl⟩
  | @next h u v e o hprefix hstep ih =>
    have hbefore := ih horderly.of_append
    obtain ⟨hrunning, hlisted, hframes⟩ := orderly_step (flowInv_of_run hprefix)
      (tableInv_of_run hprefix) (origin_of_waiting hprefix) hbefore.running hbefore.listed
      horderly.of_append.fewAccepts (horderly.events e (by simp))
      (fun eff hmem => horderly.writes eff (by simp [hmem])) (stepped_of_step hstep).2
    refine ⟨hrunning, by rw [inputs_append]; exact hlisted, fun object hobject => ?_⟩
    rw [outputs_append, outputs_cons, outputs_nil, List.append_nil, framesTo_append,
      hbefore.frames object hobject, hframes object hobject, List.filterMap_append,
      messagesOf_append, List.filterMap_append]

/-! ## Exactly once and in order -/

/-- In an orderly run only chunks of the connection's own session carry its id. -/
theorem Orderly.ownId {rand : UInt32} {h : List (Event × List Effect)} {s : Server}
    (hrun : ServerRun rand h s) (horderly : Orderly h) {object : ℕ}
    (hobject : object < 999999999) : OwnId object (inputs h) := by
  intro o error data junk hmem hid
  obtain ⟨effects, hentry⟩ := mem_inputs.mp hmem
  obtain ⟨h₁, h₂, rfl⟩ := List.append_of_mem hentry
  obtain ⟨t, v, ht, hstep, -⟩ := hrun.step_of_split
  cases (stepped_of_step hstep).2 with
  | read _ _ _ _ session hreading hlen =>
    obtain ⟨-, hlt, -⟩ := (tableInv_of_run ht).of_find? hreading
    have hfew := horderly.fewAccepts
    rw [inputs_append, accepts_append] at hfew
    exact sessionId_inj (by omega) hobject hid

/-- A chunk is what some read has brought, and not longer than a read. -/
theorem length_le_of_mem_chunksOn {rand : UInt32} {h : List (Event × List Effect)} {s : Server}
    (hrun : ServerRun rand h s) {object : ℕ} {data : List UInt8}
    (hmem : data ∈ chunksOn object (inputs h)) :
    data.length ≤ 4000 ∧ ∃ error junk, .readDone object error data junk ∈ inputs h := by
  obtain ⟨⟨_, junk⟩, hread, rfl⟩ := List.mem_map.mp hmem
  obtain ⟨e, he, hof⟩ := List.mem_filterMap.mp hread
  cases e with
  | readDone o error data junk' =>
    simp only [readOf] at hof
    split_ifs at hof with hsame
    simp only [Option.some.injEq, Prod.mk.injEq] at hof
    obtain ⟨rfl, rfl⟩ := hof
    refine ⟨?_, error, junk', hsame ▸ he⟩
    obtain ⟨effects, hentry⟩ := mem_inputs.mp he
    obtain ⟨k, t, v, -, hstep⟩ := hrun.step_of_mem hentry
    cases (stepped_of_step hstep).2 with
    | read _ _ _ _ session hreading hlen => exact hlen
  | _ => cases hof

/-- In an orderly run the process stays up, and for every session the chunks received
fall into those answered and those under way: the frames written to the session are the
answers to what the first carry, one for each login and each check, and the messages of
the session that are still queued or in the batch hold the others. -/
theorem replies_in_order {rand : UInt32} {h : List (Event × List Effect)} {s : Server}
    (hrun : ServerRun rand h s) (horderly : Orderly h) {object : ℕ}
    (hobject : object < accepts (inputs h)) :
    s.halted = none ∧ ∃ done rest answered,
      chunksOn object (inputs h) = done ++ rest ∧
        List.Forall₂ Carries done answered ∧
        framesTo object (outputs h) = answered.filterMap (fun q => q.bind answerTo) ∧
        List.Forall₂ (Holds object) rest (messagesOf object (waiting s)) := by
  have hround : object < 999999999 := hobject.trans horderly.fewAccepts
  have hinv := orderlyInv_of_run hrun horderly
  have hqueued : List.Forall₂ (Holds object) (chunksOn object (inputs h))
      (messagesOf object ((outputs h).filterMap queuedMsg)) := by
    rw [chunksOn, List.forall₂_map_left_iff]
    exact (queued_of_session hrun (horderly.ownId hrun hround)).imp fun read _ h => ⟨read.2, h⟩
  rw [queued_eq_dealt_append_waiting hrun, messagesOf_append] at hqueued
  set dealt := messagesOf object ((outputs h).filterMap dealtMsg) with hdealt
  have hcarries : ∀ data ∈ (chunksOn object (inputs h)).take dealt.length,
      data.length ≤ 4000 ∧ ∃ q, Carries data q := by
    intro data hmem
    obtain ⟨hlen, error, junk, hread⟩ := length_le_of_mem_chunksOn hrun (List.mem_of_mem_take hmem)
    exact ⟨hlen, (horderly.events _ hread).2⟩
  have hdone := (List.forall₂_and_left _ _).mpr
    ⟨hcarries, List.forall₂_take_append _ _ _ hqueued⟩
  have hrest := List.forall₂_drop_append _ _ _ hqueued
  refine ⟨hinv.running, _, _, dealt.map fun hmg => decoded hmg.byBuffer,
    (List.take_append_drop dealt.length _).symm, ?_, ?_, hrest⟩
  · rw [List.forall₂_map_right_iff]
    refine hdone.imp ?_
    rintro data hmg ⟨⟨hlen, q, hq⟩, junk, session, -, rfl⟩
    have hdecoded : decoded (MyZServerNetwork.receivedMsg session data junk).byBuffer = q :=
      hq.decoded_eq hlen junk.byBuffer
    rw [hdecoded]
    exact hq
  · rw [hinv.frames object hround, ← hdealt, List.filterMap_map]
    rfl

set_option maxRecDepth 10000 in
/-- Two clients connect, the second logs in and the first has a code checked, and the
main loop has answered the login. -/
theorem replies_in_order_two_clients :
    ∃ h s, ServerRun 7 h s ∧
      chunksOn 0 (inputs h) = [encoding (.checkDynmicCode 7 1 2)] ∧
      s.halted = none ∧ ∃ done rest answered,
        chunksOn 0 (inputs h) = done ++ rest ∧
          List.Forall₂ Carries done answered ∧
          framesTo 0 (outputs h) = answered.filterMap (fun q => q.bind answerTo) ∧
          List.Forall₂ (Holds 0) rest (messagesOf 0 (waiting s)) := by
  let events : List Event :=
    [.acceptDone false 5, .acceptDone false 6,
      .readDone 1 false (encoding (.login [65] [66])) zeroed,
      .readDone 0 false (encoding (.checkDynmicCode 7 1 2)) zeroed,
      .mainStep zeroedDeal (.accepts 100), .mainStep zeroedDeal (.accepts 100),
      .mainStep zeroedDeal (.accepts 100)]
  obtain ⟨h, s, hexec, hwrites⟩ : ∃ h s, exec Server.step (Server.start 7) events = some (s, h) ∧
      (outputs h).all (fun eff => decide (FullWrite eff)) = true := ⟨_, _, rfl, rfl⟩
  obtain ⟨hrun, hin⟩ := runs_of_exec hexec
  have horderly : Orderly h := by
    refine ⟨?_, by rw [hin]; decide, by simpa using hwrites⟩
    rw [hin]
    simp only [events, List.forall_mem_cons, List.not_mem_nil, false_implies, implies_true,
      and_true]
    exact ⟨trivial, trivial, ⟨rfl, some (.login [65] [66]), by simp [NulFree], rfl⟩,
      ⟨rfl, some (.checkDynmicCode 7 1 2), trivial, rfl⟩,
      by simp [OrderlyEvent], by simp [OrderlyEvent], by simp [OrderlyEvent]⟩
  exact ⟨h, s, hrun, by rw [hin]; rfl, replies_in_order hrun horderly (by rw [hin]; decide)⟩

end ShootGame.Analysis
