import ShootGame.Analysis.Delivery

/-!
# What the other clients change

The frames that the server hands to a client's socket are, in every run, a first part of
the answers to what was read from that socket (`handed_answers`): the other clients and
the failures decide how far they get.  The two-run result follows, that what other clients
do changes nothing in the answers to a client, where the storage that its messages are built
over is the same.  Through that storage it can: a read that cuts a request short is answered
with what stood there before (`same_on_stale_bytes_iff`).
-/

set_option autoImplicit false

namespace ShootGame.Analysis

open ShootGame.Library ShootGame.Model

/-- The frame that an effect hands to the socket of `object`, taken whole or not. -/
def handedFrame (object : ℕ) : Effect → Option (List UInt8)
  | .write o frame _ => if o = object then some frame else none
  | _ => none

def handedTo (object : ℕ) (effects : List Effect) : List (List UInt8) :=
  effects.filterMap (handedFrame object)

/-- The answer to a read, which may depend on the storage behind the bytes. -/
def answerOfRead (read : List UInt8 × Junk) : Option (List UInt8) :=
  (decoded (read.2.byBuffer.store 0 read.1)).bind answerTo

/-- The answers to the reads on the socket of `object`. -/
def answersOn (object : ℕ) (es : List Event) : List (List UInt8) :=
  (readsOn object es).filterMap answerOfRead

/-- The frames handed to a client in two lists of effects. -/
@[simp] theorem handedTo_append (object : ℕ) (o₁ o₂ : List Effect) :
    handedTo object (o₁ ++ o₂) = handedTo object o₁ ++ handedTo object o₂ :=
  List.filterMap_append ..

/-- The answers to the messages of the session that were dealt with. -/
def answersDealt (object : ℕ) (effects : List Effect) : List (List UInt8) :=
  (messagesOf object (effects.filterMap dealtMsg)).filterMap answerOf

/-- The answers to a client's messages in two lists of effects. -/
theorem answersDealt_append (object : ℕ) (o₁ o₂ : List Effect) :
    answersDealt object (o₁ ++ o₂) = answersDealt object o₁ ++ answersDealt object o₂ := by
  unfold answersDealt
  rw [List.filterMap_append, messagesOf_append, List.filterMap_append]

/-! ## One run -/

/-- Dealing with a message hands its answer to its own session, or ends the process before
it does. -/
theorem handed_deal {es : List Event} {s : Server} (hflow : FlowInv s) (hinv : TableInv es s)
    (horigin : ∀ hmg ∈ waiting s, Origin es hmg) (hfew : accepts es < 999999999) {i : ℕ}
    {hmg : HMessage} (hpc : s.pc = .dealMsg i) (hmsg : s.msgLogic.vecAllClientMsg[i]? = some hmg)
    (junk : DealJunk) (outcome : WriteOutcome) {object : ℕ} (hobject : object < 999999999) :
    handedTo object (s.dealStep junk outcome i hmg).2 =
        answersDealt object (s.dealStep junk outcome i hmg).2 ∨
      handedTo object (s.dealStep junk outcome i hmg).2 = [] ∧
        (s.dealStep junk outcome i hmg).1.halted ≠ none := by
  obtain ⟨session, data, mjunk, hreceived, hlt, hnum⟩ :=
    horigin hmg (by rw [waiting_deal hpc hmsg]; simp)
  have hid : hmg.iSessionID.read = sessionId session.object := by
    rw [← hnum.iID, hreceived]
    rfl
  obtain ⟨net, halted, o, hdeal, heq⟩ := hflow.dealStep_eq hpc hmsg junk outcome
  rw [heq]
  cases hdeal with
  | silent hanswer =>
    left
    by_cases hof : sessionId session.object = sessionId object <;>
      simp [handedTo, handedFrame, answersDealt, dealtMsg, messagesOf, List.filterMap_cons, hid,
        hof, hanswer]
  | missing table frame hanswer hentry htable => exact .inr ⟨rfl, by simp⟩
  | written frame session' n hanswer hentry haccepts =>
    left
    obtain ⟨hlt', hnum', hkey⟩ := hinv.entries _ session' hentry
    have hto : session'.object = object ↔ sessionId session.object = sessionId object := by
      rw [← hid, ← hkey, hnum'.iID]
      exact ⟨fun h => by rw [h], sessionId_inj (by omega) hobject⟩
    by_cases hof : session'.object = object
    · simp [handedTo, handedFrame, answersDealt, dealtMsg, messagesOf, List.filterMap_cons, hid,
        hof, hto.mp hof, hanswer]
    · have hother : sessionId session.object ≠ sessionId object := fun h => hof (hto.mpr h)
      simp [handedTo, handedFrame, answersDealt, dealtMsg, messagesOf, List.filterMap_cons, hid,
        hof, hother]
  | threw frame session' hanswer hentry hthrows => exact .inr ⟨rfl, by simp⟩

/-- No other step hands a frame to a socket. -/
theorem handed_step {es : List Event} {s t : Server} {e : Event} {o : List Effect}
    (hflow : FlowInv s) (hinv : TableInv es s) (horigin : ∀ hmg ∈ waiting s, Origin es hmg)
    (hfew : accepts es < 999999999) (h : Stepped s e t o) {object : ℕ}
    (hobject : object < 999999999) :
    handedTo object o = answersDealt object o ∨ handedTo object o = [] ∧ t.halted ≠ none := by
  cases h with
  | read object' error data junk session hreading hlen =>
    left
    have hhanded := filterMap_erasedByRead (handedFrame object) (fun _ _ _ => rfl) session error
      s.network.mapAllClientSock
    have hdealt := filterMap_erasedByRead dealtMsg (fun _ _ _ => rfl) session error
      s.network.mapAllClientSock
    unfold handedTo answersDealt
    rw [List.filterMap_append, List.filterMap_append, hhanded, hdealt]
    rfl
  | deal junk outcome i hmg hpc hmsg =>
    exact handed_deal hflow hinv horigin hfew hpc hmsg junk outcome hobject
  | _ => exact .inl rfl

/-- Over a run nothing is handed out but the answers, in order, and while the process runs
all of them. -/
theorem handed_of_run {rand : UInt32} {h : List (Event × List Effect)} {s : Server}
    (hrun : ServerRun rand h s) (hfew : accepts (inputs h) < 999999999) {object : ℕ}
    (hobject : object < 999999999) :
    handedTo object (outputs h) <+: answersDealt object (outputs h) ∧
      (s.halted = none → handedTo object (outputs h) = answersDealt object (outputs h)) := by
  induction hrun with
  | start => exact ⟨List.prefix_rfl, fun _ => rfl⟩
  | @next h u v e o hbefore hstep ih =>
    rw [inputs_append, accepts_append] at hfew
    obtain ⟨hrunning, hstepped⟩ := stepped_of_step hstep
    have hall := (ih (by omega)).2 hrunning
    rw [outputs_append, outputs_cons, outputs_nil, List.append_nil, handedTo_append,
      answersDealt_append, hall]
    rcases handed_step (flowInv_of_run hbefore) (tableInv_of_run hbefore)
      (origin_of_waiting hbefore) (by omega) hstepped hobject with hsame | ⟨hnone, hhalted⟩
    · rw [hsame]
      exact ⟨List.prefix_rfl, fun _ => rfl⟩
    · rw [hnone, List.append_nil]
      exact ⟨List.prefix_append _ _, fun hrun => absurd hrun hhalted⟩

/-- With few accepts no two connections have one id. -/
theorem ownId_of_few {rand : UInt32} {h : List (Event × List Effect)} {s : Server}
    (hrun : ServerRun rand h s) (hfew : accepts (inputs h) < 999999999) {object : ℕ}
    (hobject : object < 999999999) : OwnId object (inputs h) := by
  intro o error data junk hmem hid
  obtain ⟨effects, hentry⟩ := mem_inputs.mp hmem
  obtain ⟨h₁, h₂, rfl⟩ := List.append_of_mem hentry
  obtain ⟨t, v, ht, hstep, -⟩ := hrun.step_of_split
  cases (stepped_of_step hstep).2 with
  | read _ _ _ _ session hreading hlen =>
    obtain ⟨-, hlt, -⟩ := (tableInv_of_run ht).of_find? hreading
    rw [inputs_append, accepts_append] at hfew
    exact sessionId_inj (by omega) hobject hid

/-- A message is answered as the read that it was received by. -/
theorem answerOf_of_receivedBy {object : ℕ} {read : List UInt8 × Junk} {hmg : HMessage}
    (h : ReceivedBy object read hmg) : answerOfRead read = answerOf hmg := by
  obtain ⟨session, -, rfl⟩ := h
  rfl

/-- Lists that correspond are filtered alike. -/
theorem filterMap_of_forall₂ {α β γ : Type} {R : α → β → Prop} {f : α → Option γ}
    {g : β → Option γ} {l : List α} {m : List β} (h : List.Forall₂ R l m)
    (hsame : ∀ a b, R a b → f a = g b) : l.filterMap f = m.filterMap g := by
  induction h with
  | nil => rfl
  | cons hab _ ih => rw [List.filterMap_cons, List.filterMap_cons, hsame _ _ hab, ih]

/-- What the server hands to a client is a first part of the answers to its reads. -/
theorem handed_answers {rand : UInt32} {h : List (Event × List Effect)} {s : Server}
    (hrun : ServerRun rand h s) (hfew : accepts (inputs h) < 999999999) {object : ℕ}
    (hobject : object < 999999999) :
    handedTo object (outputs h) <+: answersOn object (inputs h) := by
  have hqueued := queued_of_session hrun (ownId_of_few hrun hfew hobject)
  have hanswers : answersOn object (inputs h) =
      answersDealt object (outputs h) ++ (messagesOf object (waiting s)).filterMap answerOf := by
    unfold answersOn answersDealt
    rw [filterMap_of_forall₂ hqueued fun _ _ => answerOf_of_receivedBy,
      queued_eq_dealt_append_waiting hrun, messagesOf_append, List.filterMap_append]
  rw [hanswers]
  exact (handed_of_run hrun hfew hobject).1.trans (List.prefix_append _ _)

/-! ## Two runs -/

/-- In two runs in which the reads on one client's socket are the same, in their bytes and in
the storage behind them, as far as the shorter goes, the server hands the client the same, as
far as the shorter goes, whatever the other clients send, when they come and go, and what the
writes come to. -/
theorem clients_isolated {rand rand' : UInt32} {h h' : List (Event × List Effect)}
    {s s' : Server} (hrun : ServerRun rand h s) (hrun' : ServerRun rand' h' s')
    (hfew : accepts (inputs h) < 999999999) (hfew' : accepts (inputs h') < 999999999)
    {object : ℕ} (hobject : object < 999999999)
    (hreads : readsOn object (inputs h) <+: readsOn object (inputs h')) :
    handedTo object (outputs h) <+: handedTo object (outputs h') ∨
      handedTo object (outputs h') <+: handedTo object (outputs h) := by
  have hanswers : answersOn object (inputs h) <+: answersOn object (inputs h') :=
    hreads.filterMap answerOfRead
  exact List.prefix_or_prefix_of_prefix ((handed_answers hrun hfew hobject).trans hanswers)
    (handed_answers hrun' hfew' hobject)

/-- A login of account `AB` without a password. -/
def loginChunk : List UInt8 := [12, 0, 0x01, 0x20, 3, 0, 2, 0, 65, 66, 0, 0]

/-- The client alone with the server. -/
def aloneEvents : List Event :=
  [.acceptDone false 5, .readDone 0 false loginChunk zeroed, .mainStep zeroedDeal (.accepts 0),
    .mainStep zeroedDeal (.accepts 0), .mainStep zeroedDeal (.accepts 19)]

/-- Another client logs in before and is lost, so that its answer ends the process. -/
def crowdedEvents : List Event :=
  [.acceptDone false 5, .acceptDone false 6, .readDone 1 false loginChunk zeroed,
    .readDone 0 false loginChunk zeroed, .readDone 1 true [] zeroed,
    .mainStep zeroedDeal (.accepts 0), .mainStep zeroedDeal (.accepts 0),
    .mainStep zeroedDeal (.accepts 0)]

/-- The client alone and in company. -/
theorem clients_isolated_crowded :
    ∃ h s h' s', ServerRun 7 h s ∧ ServerRun 8 h' s' ∧ inputs h = aloneEvents ∧
      inputs h' = crowdedEvents ∧
      (handedTo 0 (outputs h) <+: handedTo 0 (outputs h') ∨
        handedTo 0 (outputs h') <+: handedTo 0 (outputs h)) := by
  obtain ⟨h, s, hrun, hin⟩ := exists_serverRun 7 aloneEvents rfl
  obtain ⟨h', s', hrun', hin'⟩ := exists_serverRun 8 crowdedEvents rfl
  have hreads : readsOn 0 (inputs h) <+: readsOn 0 (inputs h') := by
    rw [hin, hin']
    exact List.prefix_rfl
  refine ⟨h, s, h', s', hrun, hrun', hin, hin', ?_⟩
  apply clients_isolated hrun hrun' _ _ (by decide) hreads
  · rw [hin]
    decide
  · rw [hin']
    decide

end ShootGame.Analysis
