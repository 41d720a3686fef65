import ShootGame.Analysis.Addressing
import ShootGame.Library.Refinement

/-!
# The server as one queue

What the server is for, without its main loop: sessions come and go, what they send is put
into one queue, and the oldest message of the queue is answered at any time.  The program
moves messages in batches through three places and keeps its place in a batch; nothing of
this can be seen from outside.  Its runs have exactly the effects that the runs of the queue
have (`server_traces_iff`).
-/

set_option autoImplicit false

namespace ShootGame.Analysis

open ShootGame.Library ShootGame.Model

/-! ## The queue -/

/-- An operation that completes. -/
inductive Completion where
  | accept (error : Bool) (junk : UInt32)
  | read (object : ℕ) (error : Bool) (data : List UInt8) (junk : Junk)

/-- What the completion handlers make of the network. -/
def complete (network : MyZServerNetwork) : Completion → Option (MyZServerNetwork × List Effect)
  | .accept error junk =>
    match network.accepting with
    | [] => none
    | session :: rest =>
      some ({ network with accepting := rest }.handleAccept session error junk)
  | .read object error data junk =>
    match network.reading.find? fun session => session.object == object with
    | none => none
    | some session =>
      if 4000 < data.length then none
      else
        let reading := network.reading.eraseP fun session => session.object == object
        some ({ network with reading := reading }.handleRead session error data junk)

/-- The sessions and the queue; the queue is that of the network. -/
structure QueueServer where
  network : MyZServerNetwork
  halted : Option Halt

inductive QueueEvent where
  | completion (c : Completion)
  /-- The oldest message is dealt with; a write to answer it has this outcome. -/
  | answer (outcome : WriteOutcome)

namespace QueueServer

/-- What becomes of a message: it is answered by a write to its own session. -/
def deal (outcome : WriteOutcome) (hmg : HMessage) (network : MyZServerNetwork) :
    QueueServer × List Effect :=
  let request := Effect.dealt hmg (decoded hmg.byBuffer)
  match answerOf hmg with
  | none => (⟨network, none⟩, [request])
  | some frame =>
    let entry := network.mapAllClientSock[hmg.iSessionID.read]?.join
    let lookup := Effect.lookup hmg.iSessionID.read entry frame
    match entry, outcome with
    | none, _ => (⟨network, some .nullSession⟩, [request, lookup])
    | some session, .accepts n =>
      (⟨network, none⟩, [request, lookup, .write session.object frame (min n frame.length)])
    | some _, .throws => (⟨network, some .uncaughtException⟩, [request, lookup])

def step (q : QueueServer) (e : QueueEvent) : Option (QueueServer × List Effect) :=
  if q.halted.isSome then none
  else
    match e with
    | .completion c => (complete q.network c).map fun r => (⟨r.1, none⟩, r.2)
    | .answer outcome =>
      match q.network.vecAllClientMsg with
      | [] => none
      | hmg :: rest => some (deal outcome hmg { q.network with vecAllClientMsg := rest })

def start (rand : UInt32) : QueueServer where
  network := MyZServerNetwork.empty.acceptConnect rand
  halted := none

end QueueServer

abbrev QueueRun (rand : UInt32) (h : List (QueueEvent × List Effect)) (q : QueueServer) : Prop :=
  Runs QueueServer.step (QueueServer.start rand) h q

/-! ## Completions -/

/-- A completion adds to the end of the queue, whatever stands in it. -/
theorem complete_queue {network network' : MyZServerNetwork} {c : Completion} {o : List Effect}
    (h : complete network c = some (network', o)) :
    ∃ added, network'.vecAllClientMsg = network.vecAllClientMsg ++ added ∧
      ∀ queue, complete { network with vecAllClientMsg := queue } c =
        some ({ network' with vecAllClientMsg := queue ++ added }, o) := by
  cases c with
  | accept error junk =>
    cases haccepting : network.accepting with
    | nil => simp [complete, haccepting] at h
    | cons session rest =>
      simp only [complete, haccepting, MyZServerNetwork.handleAccept, Option.some.injEq,
        Prod.mk.injEq] at h
      obtain ⟨rfl, rfl⟩ := h
      refine ⟨[], (List.append_nil _).symm, ?_⟩
      intro queue
      simp [complete, MyZServerNetwork.handleAccept]
  | read object error data junk =>
    cases hreading : network.reading.find? fun session => session.object == object with
    | none => simp [complete, hreading] at h
    | some session =>
      simp only [complete, hreading] at h
      split_ifs at h with hlen
      simp only [handleRead_eq, Option.some.injEq, Prod.mk.injEq] at h
      obtain ⟨rfl, rfl⟩ := h
      refine ⟨[MyZServerNetwork.receivedMsg session data junk], rfl, ?_⟩
      intro queue
      simp [complete, hreading, hlen, handleRead_eq]

/-- The event of the server that a completion is. -/
def eventOf : Completion → Event
  | .accept error junk => .acceptDone error junk
  | .read object error data junk => .readDone object error data junk

/-- A completed read or accept is a step of the network alone. -/
theorem step_eventOf {s : Server} (hrunning : s.halted = none) (c : Completion) :
    Server.step s (eventOf c) =
      (complete s.network c).map fun r => ({ s with network := r.1 }, r.2) := by
  cases c with
  | accept error junk =>
    simp only [Server.step, eventOf, complete, hrunning, Option.isSome_none, Bool.false_eq_true,
      if_false]
    cases s.network.accepting <;> rfl
  | read object error data junk =>
    simp only [Server.step, eventOf, complete, hrunning, Option.isSome_none, Bool.false_eq_true,
      if_false]
    cases hreading : s.network.reading.find? fun session => session.object == object with
    | none => rfl
    | some session =>
      dsimp only
      split_ifs <;> rfl

/-! ## What corresponds -/

/-- The server as a queue: what waits anywhere waits in the queue. -/
def queueOf (s : Server) : MyZServerNetwork := { s.network with vecAllClientMsg := waiting s }

/-- The two have halted alike, or are in the same state. -/
structure SeenAs (s : Server) (q : QueueServer) : Prop where
  flow : FlowInv s
  halted : q.halted = s.halted
  network : s.halted = none → q.network = queueOf s

/-- The two start alike. -/
theorem seenAs_start (rand : UInt32) : SeenAs (Server.start rand) (QueueServer.start rand) where
  flow := flowInv_start rand
  halted := rfl
  network _ := rfl

/-- A running server has one queue. -/
theorem SeenAs.eq {s : Server} {q : QueueServer} (h : SeenAs s q) (hrunning : s.halted = none) :
    q = ⟨queueOf s, none⟩ := by
  obtain ⟨network, halted⟩ := q
  obtain rfl : network = queueOf s := h.network hrunning
  obtain rfl : halted = none := h.halted.trans hrunning
  rfl

/-- Dealing with a message of the batch is dealing with it in the queue. -/
theorem deal_of_dealing {s : Server} {outcome : WriteOutcome} {hmg : HMessage}
    {net : MyZServerNetwork} {halted : Option Halt} {o : List Effect}
    (hrunning : s.halted = none) (h : Dealing s outcome hmg net halted o)
    (queue : List HMessage) :
    QueueServer.deal outcome hmg { s.network with vecAllClientMsg := queue } =
        (⟨{ s.network with vecAllClientMsg := queue }, halted⟩, o) ∧
      (halted = none → net = s.network) := by
  cases h with
  | silent hanswer =>
    refine ⟨?_, fun _ => rfl⟩
    simp [QueueServer.deal, hanswer, hrunning]
  | missing table frame hanswer hentry =>
    have hnone : s.network.mapAllClientSock[hmg.iSessionID.read]?.join = none := by
      rcases hfound : s.network.mapAllClientSock[hmg.iSessionID.read]? with _ | (_ | session)
      · rfl
      · rfl
      · exact absurd hfound (hentry session)
    refine ⟨?_, fun h => by cases h⟩
    simp [QueueServer.deal, hanswer, hnone]
  | written frame session n hanswer hentry houtcome =>
    refine ⟨?_, fun _ => rfl⟩
    simp [QueueServer.deal, hanswer, hentry, houtcome]
  | threw frame session hanswer hentry houtcome =>
    refine ⟨?_, fun h => by cases h⟩
    simp [QueueServer.deal, hanswer, hentry, houtcome]

/-- An iteration of `DealMsg` is an answer of the queue. -/
theorem answer_of_deal {s : Server} (hflow : FlowInv s) (hrunning : s.halted = none) {i : ℕ}
    {hmg : HMessage} (hpc : s.pc = .dealMsg i)
    (hmsg : s.msgLogic.vecAllClientMsg[i]? = some hmg) (junk : DealJunk)
    (outcome : WriteOutcome) :
    ∃ q, QueueServer.step ⟨queueOf s, none⟩ (.answer outcome) =
        some (q, (s.dealStep junk outcome i hmg).2) ∧
      SeenAs (s.dealStep junk outcome i hmg).1 q := by
  have hafter := flowInv_step hflow (.deal junk outcome i hmg hpc hmsg)
  have hcons := hflow.waiting_dealStep hpc hmsg junk outcome
  obtain ⟨net, halted, o, hdeal, heq⟩ := hflow.dealStep_eq hpc hmsg junk outcome
  have hnet : (s.dealStep junk outcome i hmg).1.network = net := by rw [heq]
  have hhalted : (s.dealStep junk outcome i hmg).1.halted = halted := by rw [heq]
  have heffects : (s.dealStep junk outcome i hmg).2 = o := by rw [heq]
  obtain ⟨hqueue, hnetwork⟩ := deal_of_dealing hrunning hdeal
    (waiting (s.dealStep junk outcome i hmg).1)
  have hanswer : QueueServer.step ⟨queueOf s, none⟩ (.answer outcome) =
      some (⟨{ s.network with vecAllClientMsg := waiting (s.dealStep junk outcome i hmg).1 },
        halted⟩, (s.dealStep junk outcome i hmg).2) := by
    simp only [QueueServer.step, Option.isSome_none, Bool.false_eq_true, if_false, queueOf]
    rw [hcons]
    dsimp only
    rw [hqueue, heffects]
  refine ⟨_, hanswer, hafter, hhalted.symm, fun hgoes => ?_⟩
  unfold queueOf
  rw [hnet, hnetwork (hhalted.symm.trans hgoes)]

/-! ## From the server to the queue -/

/-- The completions among the events. -/
def completionOf : Event → Option Completion
  | .acceptDone error junk => some (.accept error junk)
  | .readDone object error data junk => some (.read object error data junk)
  | .mainStep _ _ => none

def completionIn : QueueEvent → Option Completion
  | .completion c => some c
  | .answer _ => none

/-- A completion is one for the queue, too. -/
theorem queue_complete {s t : Server} (hflow : FlowInv s) (hrunning : s.halted = none)
    {c : Completion} {o : List Effect} (hstep : Server.step s (eventOf c) = some (t, o)) :
    ∃ q, QueueServer.step ⟨queueOf s, none⟩ (.completion c) = some (q, o) ∧ SeenAs t q := by
  have hafter := flowInv_step hflow (stepped_of_step hstep).2
  rw [step_eventOf hrunning, Option.map_eq_some_iff] at hstep
  obtain ⟨⟨network, effects⟩, hcomplete, heq⟩ := hstep
  obtain ⟨rfl, rfl⟩ := Prod.mk.inj heq
  obtain ⟨added, hqueue, hall⟩ := complete_queue hcomplete
  have hsame : QueueServer.step ⟨queueOf s, none⟩ (.completion c) =
      some (⟨{ network with vecAllClientMsg := waiting s ++ added }, none⟩, effects) := by
    simp only [QueueServer.step, Option.isSome_none, Bool.false_eq_true, if_false, queueOf,
      hall (waiting s), Option.map_some]
  refine ⟨_, hsame, hafter, hrunning.symm, fun _ => ?_⟩
  unfold queueOf
  rw [waiting_network added hqueue]

/-- What the server does in a step the queue does in some. -/
theorem queue_of_step {s t : Server} {q : QueueServer} {e : Event} {o : List Effect}
    (hseen : SeenAs s q) (hstep : Server.step s e = some (t, o)) :
    ∃ k q', Runs QueueServer.step q k q' ∧
      (inputs k).filterMap completionIn = (completionOf e).toList ∧ outputs k = o ∧
      SeenAs t q' := by
  obtain ⟨hrunning, hstepped⟩ := stepped_of_step hstep
  obtain rfl := hseen.eq hrunning
  have hafter := flowInv_step hseen.flow hstepped
  have hconserved := waiting_step hseen.flow hstepped
  cases hstepped with
  | accept error junk =>
    obtain ⟨q, hq, hseen'⟩ := queue_complete (c := .accept error junk) hseen.flow hrunning hstep
    exact ⟨_, q, .single hq, rfl, by simp, hseen'⟩
  | read object error data junk =>
    obtain ⟨q, hq, hseen'⟩ :=
      queue_complete (c := .read object error data junk) hseen.flow hrunning hstep
    exact ⟨_, q, .single hq, rfl, by simp, hseen'⟩
  -- the steps of the main loop that deal with nothing
  | fetch | hand | finish =>
    refine ⟨[], _, .start, rfl, rfl, hafter, hrunning.symm, fun _ => ?_⟩
    have hsame := hconserved.symm
    simp only [List.filterMap_nil, List.append_nil, List.nil_append] at hsame
    unfold queueOf
    rw [hsame]
  | deal junk outcome i hmg hpc hmsg =>
    obtain ⟨q, hq, hseen'⟩ := answer_of_deal hseen.flow hrunning hpc hmsg junk outcome
    exact ⟨_, q, .single hq, rfl, by simp, hseen'⟩

/-! ## From the queue to the server -/

/-- While a message waits, the main loop gets to it without any effect.  By induction on how
far it is from there. -/
theorem exists_quiet_steps {s : Server} (hflow : FlowInv s) (hrunning : s.halted = none)
    (hwaiting : waiting s ≠ []) :
    ∃ k t i hmg, Runs Server.step s k t ∧ (inputs k).filterMap completionOf = [] ∧
      outputs k = [] ∧ FlowInv t ∧ t.halted = none ∧ queueOf t = queueOf s ∧
      t.pc = .dealMsg i ∧ t.msgLogic.vecAllClientMsg[i]? = some hmg := by
  induction hn : stage s using Nat.strong_induction_on generalizing s with
  | _ n ih =>
    subst hn
    obtain ⟨t, o, hstep⟩ :
        ∃ t o, Server.step s (.mainStep zeroedDeal (.accepts 0)) = some (t, o) :=
      ⟨_, _, by simp only [Server.step, hrunning]; rfl⟩
    have hstepped := (stepped_of_step hstep).2
    have hafter := flowInv_step hflow hstepped
    have hconserved := waiting_step hflow hstepped
    -- a step without effects that brings the loop closer
    have hnext : o = [] → t.halted = none → queueOf t = queueOf s → stage t < stage s →
        ∃ k t i hmg, Runs Server.step s k t ∧ (inputs k).filterMap completionOf = [] ∧
          outputs k = [] ∧ FlowInv t ∧ t.halted = none ∧ queueOf t = queueOf s ∧
          t.pc = .dealMsg i ∧ t.msgLogic.vecAllClientMsg[i]? = some hmg := by
      rintro rfl hgoes hqueue hless
      have hsame : waiting t ≠ [] := by
        have hwait := congrArg MyZServerNetwork.vecAllClientMsg hqueue
        rwa [show waiting t = waiting s from hwait]
      obtain ⟨k, u, i, hmg, hrun, hin, hout, hend⟩ := ih _ hless hafter hgoes hsame rfl
      refine ⟨_, u, i, hmg, (Runs.single hstep).trans hrun, ?_, ?_, ?_⟩
      · simpa [completionOf] using hin
      · simpa using hout
      · rwa [hqueue] at hend
    cases hstepped with
    | fetch _ _ hpc =>
      have hqueue : s.network.vecAllClientMsg ≠ [] := by simpa [waiting, hpc] using hwaiting
      obtain ⟨first, rest, hcons⟩ := List.exists_cons_of_ne_nil hqueue
      apply hnext rfl hrunning
      · simp [queueOf, waiting, hpc]
      · simp [stage, hpc, hcons]
    | hand _ _ vecTmpMsgList hpc =>
      apply hnext rfl hrunning
      · simp [queueOf, waiting, hpc]
      · cases vecTmpMsgList <;> simp [stage, hpc]
    | finish _ _ i hpc hdone =>
      have hle := List.getElem?_eq_none_iff.mp hdone
      apply hnext rfl hrunning
      · simp [queueOf, waiting, hpc, List.drop_eq_nil_of_le hle]
      · simp [stage, hpc, Nat.not_lt.mpr hle]
    | deal _ _ i hmg hpc hmsg =>
      exact ⟨[], s, i, hmg, .start, rfl, rfl, hflow, hrunning, rfl, hpc, hmsg⟩

/-- And the other way round. -/
theorem server_of_step {s : Server} {q q' : QueueServer} {e : QueueEvent} {o : List Effect}
    (hseen : SeenAs s q) (hstep : QueueServer.step q e = some (q', o)) :
    ∃ k t, Runs Server.step s k t ∧
      (inputs k).filterMap completionOf = (completionIn e).toList ∧ outputs k = o ∧
      SeenAs t q' := by
  have hgoes : q.halted = none := by
    by_contra hhalted
    have hsome : q.halted.isSome = true := Option.isSome_iff_ne_none.mpr hhalted
    simp [QueueServer.step, hsome] at hstep
  have hrunning : s.halted = none := hseen.halted.symm.trans hgoes
  obtain rfl := hseen.eq hrunning
  cases e with
  | completion c =>
    simp only [QueueServer.step, Option.isSome_none, Bool.false_eq_true, if_false,
      Option.map_eq_some_iff, Prod.mk.injEq] at hstep
    obtain ⟨⟨network, effects⟩, hcomplete, rfl, rfl⟩ := hstep
    -- the same with the queue that the network has
    obtain ⟨added, -, hall⟩ := complete_queue hcomplete
    have hserver : Server.step s (eventOf c) = some ({ s with network := { network with
        vecAllClientMsg := s.network.vecAllClientMsg ++ added } }, effects) := by
      rw [step_eventOf hrunning]
      exact congrArg (Option.map _) (hall s.network.vecAllClientMsg)
    obtain ⟨q, hq, hseen'⟩ := queue_complete hseen.flow hrunning hserver
    have hcompletion : completionOf (eventOf c) = some c := by cases c <;> rfl
    refine ⟨_, _, .single hserver, by simp [hcompletion, completionIn], by simp, ?_⟩
    simp only [QueueServer.step, Option.isSome_none, Bool.false_eq_true, if_false, hcomplete,
      Option.map_some, Option.some.injEq, Prod.mk.injEq, and_true] at hq
    rwa [← hq] at hseen'
  | answer outcome =>
    have hwaiting : waiting s ≠ [] := by
      intro hnone
      simp [QueueServer.step, queueOf, hnone] at hstep
    obtain ⟨k, t, i, hmg, hrun, hin, hout, hflow, hgoes, hqueue, hpc, hmsg⟩ :=
      exists_quiet_steps hseen.flow hrunning hwaiting
    obtain ⟨q, hq, hseen'⟩ := answer_of_deal hflow hgoes hpc hmsg zeroedDeal outcome
    rw [hqueue, hstep, Option.some.injEq, Prod.mk.injEq] at hq
    obtain ⟨rfl, rfl⟩ := hq
    refine ⟨_, _, hrun.next (step_deal hgoes hpc hmsg zeroedDeal outcome), ?_, ?_, hseen'⟩
    · simpa [completionOf, completionIn] using hin
    · simp [hout]

/-! ## Traces -/

/-- The accepts, reads and effects of a run of the server, in their order, are those of a run
of the queue, and each run of the queue has those of a run of the server: the three places
of the messages, the batches and what the main thread's local objects held cannot be told
from outside. -/
theorem server_traces_iff (rand : UInt32) (cs : List Completion) (o : List Effect) :
    (∃ h s, ServerRun rand h s ∧ (inputs h).filterMap completionOf = cs ∧ outputs h = o) ↔
      ∃ h q, QueueRun rand h q ∧ (inputs h).filterMap completionIn = cs ∧ outputs h = o := by
  constructor
  · rintro ⟨h, s, hrun, rfl, rfl⟩
    obtain ⟨k, q, hqueue, hin, hout, -⟩ := hrun.matched SeenAs completionOf completionIn
      (seenAs_start rand) queue_of_step
    exact ⟨k, q, hqueue, hin, hout⟩
  · rintro ⟨h, q, hrun, rfl, rfl⟩
    obtain ⟨k, s, hserver, hin, hout, -⟩ := hrun.matched (fun q s => SeenAs s q) completionIn
      completionOf (seenAs_start rand) server_of_step
    exact ⟨k, s, hserver, hin, hout⟩

end ShootGame.Analysis
