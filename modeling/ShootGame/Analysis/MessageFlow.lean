import ShootGame.Analysis.ServerSteps

/-!
# The way of a message from the socket to `DealMsg`

A read completion queues a message, `GetAllMsg` moves the queue to the main thread and
`DealMsg` takes it apart one message at a time.  `waiting` is what is under way at any
moment, and it is a queue: over a run, what was queued is what was dealt with followed
by what is waiting (`queued_eq_dealt_append_waiting`).

The failed reads are looked at here too: each of them queues a message and arms another
read (`quiet_after_error_iff`).
-/

set_option autoImplicit false

namespace ShootGame.Analysis

open ShootGame.Library ShootGame.Model

/-! ## Messages under way -/

/-- The messages received and not yet dealt with, oldest first. -/
def waiting (s : Server) : List HMessage :=
  match s.pc with
  | .getAllMsg => s.network.vecAllClientMsg
  | .getvecMsg vecTmpMsgList => vecTmpMsgList ++ s.network.vecAllClientMsg
  | .dealMsg i => s.msgLogic.vecAllClientMsg.drop i ++ s.network.vecAllClientMsg

def queuedMsg : Effect → Option HMessage
  | .enqueue _ hmg => some hmg
  | _ => none

def dealtMsg : Effect → Option HMessage
  | .dealt hmg _ => some hmg
  | _ => none

/-- The message holds what a read completion on some session put there. -/
def Received (hmg : HMessage) : Prop :=
  ∃ session data junk, hmg = MyZServerNetwork.receivedMsg session data junk

/-- A received message has its cursor at the beginning. -/
theorem Received.iPos_eq_zero {hmg : HMessage} (h : Received hmg) : hmg.iPos = 0 := by
  obtain ⟨session, data, junk, rfl⟩ := h
  rfl

/-- What every state of the server keeps: `MsgLogic` never gets a copy of the client
table, and no waiting message has been touched. -/
structure FlowInv (s : Server) : Prop where
  emptyCopy : s.msgLogic.mapAllClient = ∅
  received : ∀ hmg ∈ waiting s, Received hmg

/-- The invariant at the start. -/
theorem flowInv_start (rand : UInt32) : FlowInv (Server.start rand) :=
  ⟨rfl, by simp [waiting, Server.start, MyZServerNetwork.acceptConnect, MyZServerNetwork.empty]⟩

/-- A step of the network thread lets messages wait behind those that do. -/
theorem waiting_network {s : Server} {net : MyZServerNetwork} (ms : List HMessage)
    (hqueue : net.vecAllClientMsg = s.network.vecAllClientMsg ++ ms) :
    waiting { s with network := net } = waiting s ++ ms := by
  unfold waiting
  simp only [hqueue]
  cases s.pc <;> simp only [List.append_assoc]

/-- The message `DealMsg` is at is the first one waiting. -/
theorem waiting_deal {s : Server} {i : ℕ} {hmg : HMessage} (hpc : s.pc = .dealMsg i)
    (hmsg : s.msgLogic.vecAllClientMsg[i]? = some hmg) :
    waiting s =
      hmg :: (s.msgLogic.vecAllClientMsg.drop (i + 1) ++ s.network.vecAllClientMsg) := by
  obtain ⟨hlt, hget⟩ := List.getElem?_eq_some_iff.mp hmsg
  simp only [waiting, hpc]
  rw [List.drop_eq_getElem_cons hlt, hget, List.cons_append]

/-- The message `DealMsg` is at has not been touched. -/
theorem FlowInv.dealStep_eq {s : Server} (hinv : FlowInv s) {i : ℕ} {hmg : HMessage}
    (hpc : s.pc = .dealMsg i) (hmsg : s.msgLogic.vecAllClientMsg[i]? = some hmg)
    (junk : DealJunk) (outcome : WriteOutcome) :
    ∃ net halted o, Dealing s outcome hmg net halted o ∧
      s.dealStep junk outcome i hmg =
        ({ network := net
           msgLogic :=
            { s.msgLogic with
              vecAllClientMsg :=
                s.msgLogic.vecAllClientMsg.set i (s.msgLogic.dealOne junk hmg).hmg }
           pc := .dealMsg (i + 1)
           halted := halted }, o) := by
  have hreceived := hinv.received hmg (by rw [waiting_deal hpc hmsg]; simp)
  exact exists_dealing s junk outcome i hmg hreceived.iPos_eq_zero hinv.emptyCopy

/-- Dealing with a message takes it off the front. -/
theorem FlowInv.waiting_dealStep {s : Server} (hinv : FlowInv s) {i : ℕ} {hmg : HMessage}
    (hpc : s.pc = .dealMsg i) (hmsg : s.msgLogic.vecAllClientMsg[i]? = some hmg)
    (junk : DealJunk) (outcome : WriteOutcome) :
    waiting s = hmg :: waiting (s.dealStep junk outcome i hmg).1 := by
  obtain ⟨net, halted, o, hdeal, heq⟩ := hinv.dealStep_eq hpc hmsg junk outcome
  have hqueue : net.vecAllClientMsg = s.network.vecAllClientMsg := by cases hdeal <;> rfl
  rw [waiting_deal hpc hmsg, heq]
  simp only [waiting, hqueue, List.drop_set_of_lt (Nat.lt_succ_self i)]

/-- A main step in `DealMsg` deals with the next message. -/
theorem step_deal {s : Server} (hrunning : s.halted = none) {i : ℕ} {hmg : HMessage}
    (hpc : s.pc = .dealMsg i) (hmsg : s.msgLogic.vecAllClientMsg[i]? = some hmg)
    (junk : DealJunk) (outcome : WriteOutcome) :
    Server.step s (.mainStep junk outcome) =
      some ((s.dealStep junk outcome i hmg).1, (s.dealStep junk outcome i hmg).2) := by
  simp only [Server.step, hrunning, Server.mainStep, hpc, hmsg, Option.isSome_none,
    Bool.false_eq_true, if_false]

/-- What a round of `DealMsg` deals with is its message, as the request that it decodes to. -/
theorem FlowInv.mem_dealt_iff {s : Server} (hflow : FlowInv s) {i : ℕ} {hmg : HMessage}
    (hpc : s.pc = .dealMsg i) (hmsg : s.msgLogic.vecAllClientMsg[i]? = some hmg)
    (junk : DealJunk) (outcome : WriteOutcome) {hmg' : HMessage} {q : Option Request} :
    .dealt hmg' q ∈ (s.dealStep junk outcome i hmg).2 ↔
      hmg' = hmg ∧ q = decoded hmg.byBuffer := by
  obtain ⟨net, halted, o, hdeal, heq⟩ := hflow.dealStep_eq hpc hmsg junk outcome
  rw [heq]
  cases hdeal <;> simp

/-- The lookup of a session to reply to: the message's own, with what the table has. -/
theorem FlowInv.mem_lookup_iff {s : Server} (hflow : FlowInv s) {i : ℕ} {hmg : HMessage}
    (hpc : s.pc = .dealMsg i) (hmsg : s.msgLogic.vecAllClientMsg[i]? = some hmg)
    (junk : DealJunk) (outcome : WriteOutcome) {id : Int} {entry : Option SessionClient}
    {frame : List UInt8} :
    .lookup id entry frame ∈ (s.dealStep junk outcome i hmg).2 ↔
      id = hmg.iSessionID.read ∧
        entry = s.network.mapAllClientSock[hmg.iSessionID.read]?.join ∧
        answerOf hmg = some frame := by
  obtain ⟨net, halted, o, hdeal, heq⟩ := hflow.dealStep_eq hpc hmsg junk outcome
  rw [heq]
  cases hdeal with
  | silent hanswer => simp [hanswer]
  | missing table frame' hanswer hentry htable =>
    have hnone : s.network.mapAllClientSock[hmg.iSessionID.read]?.join = none := by
      rcases hfound : s.network.mapAllClientSock[hmg.iSessionID.read]? with _ | (_ | session)
      · rfl
      · rfl
      · exact absurd hfound (hentry session)
    simp [hanswer, hnone, eq_comm]
  | written frame' session n hanswer hentry houtcome => simp [hanswer, hentry, eq_comm]
  | threw frame' session hanswer hentry houtcome => simp [hanswer, hentry, eq_comm]

/-- A message is dealt with as the request that it decodes to. -/
theorem decoded_of_dealt {s t : Server} {e : Event} {o : List Effect} (hflow : FlowInv s)
    (h : Stepped s e t o) {hmg : HMessage} {q : Option Request} (hmem : .dealt hmg q ∈ o) :
    q = decoded hmg.byBuffer := by
  cases h with
  | deal junk outcome i hmg' hpc hmsg =>
    obtain ⟨rfl, hq⟩ := (hflow.mem_dealt_iff hpc hmsg junk outcome).mp hmem
    exact hq
  | read object error data junk session hreading hlen => simp [mem_erasedByRead] at hmem
  | _ => simp at hmem

/-- A failed read has no effect on the table but that it erases its session. -/
theorem filterMap_erasedByRead {β : Type} (f : Effect → Option β)
    (herase : ∀ object key old, f (.erase object key old) = none) (session : SessionClient)
    (error : Bool) (table : Std.TreeMap Int (Option SessionClient)) :
    (erasedByRead session error table).filterMap f = [] := by
  rw [List.filterMap_eq_nil_iff]
  intro eff hmem
  obtain ⟨-, old, -, rfl⟩ := mem_erasedByRead.mp hmem
  exact herase _ _ _

/-- A round of `DealMsg` queues nothing and deals with its message. -/
theorem FlowInv.filterMap_dealStep {s : Server} (hinv : FlowInv s) {i : ℕ} {hmg : HMessage}
    (hpc : s.pc = .dealMsg i) (hmsg : s.msgLogic.vecAllClientMsg[i]? = some hmg)
    (junk : DealJunk) (outcome : WriteOutcome) :
    (s.dealStep junk outcome i hmg).2.filterMap queuedMsg = [] ∧
      (s.dealStep junk outcome i hmg).2.filterMap dealtMsg = [hmg] := by
  obtain ⟨net, halted, o, hdeal, heq⟩ := hinv.dealStep_eq hpc hmsg junk outcome
  rw [heq]
  cases hdeal <;> exact ⟨rfl, rfl⟩

/-- One step takes messages from the front and adds messages at the end. -/
theorem waiting_step {s t : Server} {e : Event} {o : List Effect} (hinv : FlowInv s)
    (h : Stepped s e t o) :
    waiting s ++ o.filterMap queuedMsg = o.filterMap dealtMsg ++ waiting t := by
  cases h with
  | accept error junk session rest haccepting =>
    exact (waiting_network (s := s) [] (by simp)).symm
  | read object error data junk session hreading hlen =>
    rw [List.filterMap_append, List.filterMap_append,
      filterMap_erasedByRead queuedMsg fun _ _ _ => rfl,
      filterMap_erasedByRead dealtMsg fun _ _ _ => rfl]
    exact (waiting_network (s := s) _ (by rfl)).symm
  | fetch junk outcome hpc => simp [waiting, hpc]
  | hand junk outcome vecTmpMsgList hpc => simp [waiting, hpc]
  | finish junk outcome i hpc hdone =>
    simp [waiting, hpc, List.drop_eq_nil_of_le (List.getElem?_eq_none_iff.mp hdone)]
  | deal junk outcome i hmg hpc hmsg =>
    obtain ⟨hqueued, hdealt⟩ := hinv.filterMap_dealStep hpc hmsg junk outcome
    rw [hinv.waiting_dealStep hpc hmsg junk outcome, hqueued, hdealt, List.append_nil,
      List.singleton_append]

/-- A message that waits after a step waited before or has been queued by it. -/
theorem mem_waiting_step {s t : Server} {e : Event} {o : List Effect} (hinv : FlowInv s)
    (h : Stepped s e t o) {hmg : HMessage} (hmem : hmg ∈ waiting t) :
    hmg ∈ waiting s ∨ hmg ∈ o.filterMap queuedMsg := by
  have hall : hmg ∈ o.filterMap dealtMsg ++ waiting t := List.mem_append_right _ hmem
  rwa [← waiting_step hinv h, List.mem_append] at hall

/-- Only a read completion queues a message, the one its session received. -/
theorem queued_of_stepped {s t : Server} {e : Event} {o : List Effect} (hinv : FlowInv s)
    (h : Stepped s e t o) :
    (∃ object error data junk session, e = .readDone object error data junk ∧
      s.network.reading.find? (fun c => c.object == object) = some session ∧
      o.filterMap queuedMsg = [MyZServerNetwork.receivedMsg session data junk]) ∨
    ((∀ object error data junk, e ≠ .readDone object error data junk) ∧
      o.filterMap queuedMsg = []) := by
  cases h with
  | read object error data junk session hreading hlen =>
    refine .inl ⟨object, error, data, junk, session, rfl, hreading, ?_⟩
    rw [List.filterMap_append, filterMap_erasedByRead queuedMsg fun _ _ _ => rfl]
    rfl
  | deal junk outcome i hmg hpc hmsg =>
    exact .inr ⟨by simp, (hinv.filterMap_dealStep hpc hmsg junk outcome).1⟩
  | _ => exact .inr ⟨by simp, rfl⟩

/-- A step keeps the invariant. -/
theorem flowInv_step {s t : Server} {e : Event} {o : List Effect} (hinv : FlowInv s)
    (h : Stepped s e t o) : FlowInv t := by
  have hempty : t.msgLogic.mapAllClient = ∅ := by
    cases h with
    | deal junk outcome i hmg hpc hmsg =>
      obtain ⟨net, halted, o, hdeal, heq⟩ := hinv.dealStep_eq hpc hmsg junk outcome
      rw [heq]
      exact hinv.emptyCopy
    | _ => exact hinv.emptyCopy
  refine ⟨hempty, fun hmg hmem => ?_⟩
  rcases mem_waiting_step hinv h hmem with hold | hnew
  · exact hinv.received hmg hold
  · rcases queued_of_stepped hinv h with ⟨_, _, data, junk, session, -, -, hqueued⟩ | ⟨-, hnone⟩
    · rw [hqueued, List.mem_singleton] at hnew
      exact ⟨session, data, junk, hnew⟩
    · rw [hnone] at hnew
      cases hnew

/-- So does a run. -/
theorem flowInv_of_runs {s t : Server} {h : List (Event × List Effect)} (hinv : FlowInv s)
    (hrun : Runs Server.step s h t) : FlowInv t :=
  hrun.invariant (fun _ s => FlowInv s) hinv
    fun _ hinv hstep => flowInv_step hinv (stepped_of_step hstep).2

/-- The invariant in every run from the start. -/
theorem flowInv_of_run {rand : UInt32} {h : List (Event × List Effect)} {s : Server}
    (hrun : ServerRun rand h s) : FlowInv s := flowInv_of_runs (flowInv_start rand) hrun

/-- From any state with the invariant on, the messages waiting are dealt with first, and
those queued meanwhile after them. -/
theorem waiting_run {s t : Server} {h : List (Event × List Effect)} (hinv : FlowInv s)
    (hrun : Runs Server.step s h t) :
    waiting s ++ (outputs h).filterMap queuedMsg =
      (outputs h).filterMap dealtMsg ++ waiting t :=
  hrun.conserved waiting queuedMsg dealtMsg fun hprefix hstep =>
    waiting_step (flowInv_of_runs hinv hprefix) (stepped_of_step hstep).2

/-- No message is lost, duplicated or overtaken between the read completion and
`DealMsg`. -/
theorem queued_eq_dealt_append_waiting {rand : UInt32} {h : List (Event × List Effect)}
    {s : Server} (hrun : ServerRun rand h s) :
    (outputs h).filterMap queuedMsg = (outputs h).filterMap dealtMsg ++ waiting s := by
  have hflow := waiting_run (flowInv_start rand) hrun
  rwa [show waiting (Server.start rand) = [] from rfl, List.nil_append] at hflow

/-! ## Failed reads -/

/-- The effect queues a message of this connection or arms a read on it. -/
def Busy (object : ℕ) : Effect → Prop
  | .armRead o => o = object
  | .enqueue o _ => o = object
  | _ => False

/-- From a failed read on, its connection queues no message and no read is armed on it. -/
def QuietAfterError (h : List (Event × List Effect)) : Prop :=
  ∀ h₁ object data junk o h₂, h = h₁ ++ (.readDone object true data junk, o) :: h₂ →
    ∀ eff ∈ o ++ outputs h₂, ¬ Busy object eff

/-- Every message that was ever queued was queued by a read that reported no error. -/
def QueuedOnSuccess (h : List (Event × List Effect)) : Prop :=
  ∀ e o, (e, o) ∈ h → ∀ object hmg, .enqueue object hmg ∈ o →
    ∃ data junk, e = .readDone object false data junk

/-- No read completion of the run reports an error. -/
def NoFailedRead (es : List Event) : Prop :=
  ∀ object data junk, Event.readDone object true data junk ∉ es

/-- Every read queues a message and arms the next read. -/
theorem busy_of_readDone {s t : Server} {object : ℕ} {error : Bool} {data : List UInt8}
    {junk : Junk} {o : List Effect} (h : Stepped s (.readDone object error data junk) t o) :
    (∃ hmg, .enqueue object hmg ∈ o) ∧ .armRead object ∈ o := by
  cases h with
  | read _ _ _ _ session hreading hlen =>
    have hobject : session.object = object := by simpa using List.find?_some hreading
    rw [hobject]
    exact ⟨⟨MyZServerNetwork.receivedMsg session data junk, by simp⟩, by simp⟩

/-- A message is queued by a read of its connection. -/
theorem readDone_of_enqueue {s t : Server} {e : Event} {o : List Effect} (hinv : FlowInv s)
    (h : Stepped s e t o) {object : ℕ} {hmg : HMessage} (hmem : .enqueue object hmg ∈ o) :
    ∃ error data junk, e = .readDone object error data junk := by
  cases h with
  | read object' error data junk session hreading hlen =>
    have hobject : session.object = object' := by simpa using List.find?_some hreading
    refine ⟨error, data, junk, ?_⟩
    simp only [List.mem_append, List.mem_cons, Effect.enqueue.injEq, reduceCtorEq,
      List.not_mem_nil, or_false] at hmem
    rcases hmem with herased | ⟨rfl, -⟩
    · obtain ⟨-, old, -, heq⟩ := mem_erasedByRead.mp herased
      cases heq
    · rw [hobject]
  | deal junk outcome i hmg' hpc hmsg =>
    obtain ⟨net, halted, o, hdeal, heq⟩ := hinv.dealStep_eq hpc hmsg junk outcome
    rw [heq] at hmem
    cases hdeal <;> simp at hmem
  | _ => simp at hmem

/-- After a failed read the connection is not left alone. -/
theorem not_quietAfterError {rand : UInt32} {h : List (Event × List Effect)} {s : Server}
    (hrun : ServerRun rand h s) {object : ℕ} {data : List UInt8} {junk : Junk}
    (hfailed : .readDone object true data junk ∈ inputs h) : ¬ QuietAfterError h := by
  obtain ⟨o, hmem⟩ := mem_inputs.mp hfailed
  obtain ⟨h₁, h₂, rfl⟩ := List.append_of_mem hmem
  obtain ⟨t, v, -, hstep, -⟩ := hrun.step_of_split
  intro hquiet
  have harm := (busy_of_readDone (stepped_of_step hstep).2).2
  exact hquiet h₁ object data junk o h₂ rfl _ (List.mem_append_left _ harm) rfl

/-- A failed read queues a message too. -/
theorem not_queuedOnSuccess {rand : UInt32} {h : List (Event × List Effect)} {s : Server}
    (hrun : ServerRun rand h s) {object : ℕ} {data : List UInt8} {junk : Junk}
    (hfailed : .readDone object true data junk ∈ inputs h) : ¬ QueuedOnSuccess h := by
  obtain ⟨o, hmem⟩ := mem_inputs.mp hfailed
  obtain ⟨k, t, v, -, hstep⟩ := hrun.step_of_mem hmem
  obtain ⟨hmg, hqueued⟩ := (busy_of_readDone (stepped_of_step hstep).2).1
  intro hsuccess
  obtain ⟨data', junk', heq⟩ := hsuccess _ o hmem object hmg hqueued
  cases heq

/-- A dead connection is quiet exactly in the runs in which no connection dies. -/
theorem quiet_after_error_iff {rand : UInt32} {h : List (Event × List Effect)} {s : Server}
    (hrun : ServerRun rand h s) :
    (QuietAfterError h ↔ NoFailedRead (inputs h)) ∧
      (QueuedOnSuccess h ↔ NoFailedRead (inputs h)) := by
  refine ⟨⟨fun hquiet object data junk hfailed => not_quietAfterError hrun hfailed hquiet, ?_⟩,
    ⟨fun hsuccess object data junk hfailed => not_queuedOnSuccess hrun hfailed hsuccess, ?_⟩⟩
  · rintro hnone h₁ object data junk o h₂ rfl
    exact absurd (by simp) (hnone object data junk)
  · intro hnone e o hmem object hmg hqueued
    obtain ⟨k, t, v, hreach, hstep⟩ := hrun.step_of_mem hmem
    obtain ⟨error, data, junk, rfl⟩ :=
      readDone_of_enqueue (flowInv_of_run hreach) (stepped_of_step hstep).2 hqueued
    cases error with
    | false => exact ⟨data, junk, rfl⟩
    | true => exact absurd (mem_inputs.mpr ⟨o, hmem⟩) (hnone object data junk)

/-- A client that connects and sends one byte. -/
theorem quiet_after_error_iff_connected :
    ∃ h s, ServerRun 7 h s ∧
      inputs h = [.acceptDone false 5, .readDone 0 false [1] zeroed] ∧
      QuietAfterError h ∧ QueuedOnSuccess h := by
  obtain ⟨h, s, hrun, hin⟩ := exists_serverRun 7
    [.acceptDone false 5, .readDone 0 false [1] zeroed] rfl
  have hnone : NoFailedRead (inputs h) := by
    rw [hin]
    intro object data junk
    simp
  have hiff := quiet_after_error_iff hrun
  exact ⟨h, s, hrun, hin, hiff.1.mpr hnone, hiff.2.mpr hnone⟩

/-- A client that connects and disconnects. -/
theorem disconnect_not_quiet :
    ∃ h s, ServerRun 7 h s ∧
      inputs h = [.acceptDone false 5, .readDone 0 true [] zeroed] ∧
      ¬ QuietAfterError h ∧ ¬ QueuedOnSuccess h := by
  obtain ⟨h, s, hrun, hin⟩ := exists_serverRun 7
    [.acceptDone false 5, .readDone 0 true [] zeroed] rfl
  have hfailed : Event.readDone 0 true [] zeroed ∈ inputs h := by
    rw [hin]
    simp
  exact ⟨h, s, hrun, hin, not_quietAfterError hrun hfailed, not_queuedOnSuccess hrun hfailed⟩

end ShootGame.Analysis
