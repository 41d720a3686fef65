import ShootGame.Analysis.NeverRefused

/-!
# What stands in the client's storage

`DealMsg` of the client looks at the first ten bytes of a message, so where a message shows
that many it does not matter what else is in its buffer, and what the local objects held
before.  Every answer of the server is longer, and so a run of the system can be taken again
with any other contents, and with any other library that sends the same and returns the
frames that arrive whole (`client_storage_replaced`).
-/

set_option autoImplicit false

namespace ShootGame.Analysis

open ShootGame.Library ShootGame.Model

variable {δ : Type} {lib lib' : ProNetWork}

/-! ## The same frames -/

/-- Two batches of messages that show the same frames, each with its head. -/
theorem dealMsg_of_shows {frames : List (List UInt8)}
    (hheads : ∀ frame ∈ frames, 10 ≤ frame.length) {hmgs hmgs' : List HMessage}
    (h : List.Forall₂ Shows hmgs frames) (h' : List.Forall₂ Shows hmgs' frames)
    (junk junk' : RecvJunk) (logic : UProNetLogic δ) :
    (logic.dealMsg junk hmgs).map DealtMsg.events =
      (logic.dealMsg junk' hmgs').map DealtMsg.events := by
  unfold UProNetLogic.dealMsg
  induction h generalizing hmgs' with
  | nil =>
    cases h'
    rfl
  | cons hfirst hrest ih =>
    cases h' with
    | cons hfirst' hrest' =>
      rw [List.forall_mem_cons] at hheads
      simp only [List.map_cons, ih hheads.2 hrest',
        dealOne_of_shows hheads.1 hfirst hfirst' junk junk' logic]

/-! ## Other storage -/

/-- The same event, but for the storage that a `DealMsg` of the client finds. -/
inductive AlikeStored : SystemEvent δ → SystemEvent δ → Prop
  | same (e : SystemEvent δ) : AlikeStored e e
  | dealMsg (object n : ℕ) (junk junk' : RecvJunk) (storage storage' : ℕ → Junk) :
      AlikeStored (.dealMsg object n junk storage) (.dealMsg object n junk' storage')

/-- Two libraries that send the same make the same of every call of a client. -/
theorem stepClient_congr (hsend : lib'.sendMsgToServer = lib.sendMsgToServer) (s : System δ)
    (object n : ℕ) (call : ClientCall δ) :
    s.stepClient lib' object n call = s.stepClient lib object n call := by
  have hsent : sentMsg (δ := δ) lib' = sentMsg lib := by
    funext out
    cases out with
    | sendMsgToServer hMsg => exact congrFun hsend hMsg
    | event e => rfl
  unfold System.stepClient
  rw [hsent]

/-- Where only answers have arrived, a `DealMsg` does the same whatever the storage holds. -/
theorem dealMsg_alikeStored (hsend : lib'.sendMsgToServer = lib.sendMsgToServer)
    (hreturns : ReturnsFrames lib) (hreturns' : ReturnsFrames lib') {s : System δ} {object : ℕ}
    (hanswers : ∀ frame ∈ (s.connections object).downlink, IsAnswer frame) (n : ℕ)
    (junk junk' : RecvJunk) (storage storage' : ℕ → Junk) :
    s.step lib' (.dealMsg object n junk' storage') =
      s.step lib (.dealMsg object n junk storage) := by
  have harrived : ∀ frame ∈ (s.connections object).downlink.take n, IsAnswer frame :=
    fun frame hmem => hanswers frame (List.mem_of_mem_take hmem)
  have hannounces := fun frame hmem => (harrived frame hmem).announces
  have hevents := dealMsg_of_shows (fun frame hmem => (harrived frame hmem).length_ge)
    (hreturns' storage' _ hannounces) (hreturns storage _ hannounces) junk' junk
    (s.connections object).logic
  simp only [System.step, stepClient_congr hsend]
  simp only [System.stepClient, UProNetLogic.step, List.flatMap_def, hevents]

/-- Where only answers have arrived, a step is the same with the other library and storage. -/
theorem step_alikeStored (hsend : lib'.sendMsgToServer = lib.sendMsgToServer)
    (hreturns : ReturnsFrames lib) (hreturns' : ReturnsFrames lib') {s t : System δ}
    {e e' : SystemEvent δ} {o : List (SystemEffect δ)}
    (hanswers : ∀ object, ∀ frame ∈ (s.connections object).downlink, IsAnswer frame)
    (hstep : s.step lib e = some (t, o)) (halike : AlikeStored e e') :
    s.step lib' e' = some (t, o) := by
  rw [← hstep]
  cases halike with
  | same e =>
    cases e with
    | server e => rfl
    | dealMsg object n junk storage =>
      exact dealMsg_alikeStored hsend hreturns hreturns' (hanswers object) ..
    | onLogin | onRegister | gameLogicLogin | gameLogicRegister =>
      simp only [System.step, stepClient_congr hsend]
  | dealMsg object n junk junk' storage storage' =>
    exact dealMsg_alikeStored hsend hreturns hreturns' (hanswers object) ..

/-- What a client's message buffers and local objects held before never matters, where the
server's writes take whole frames: the run can be taken again with any other contents, and
with any other library that sends the same and returns whole frames, and it does the same
and ends in the same state. -/
theorem client_storage_replaced (hsend : lib'.sendMsgToServer = lib.sendMsgToServer)
    (hreturns : ReturnsFrames lib) (hreturns' : ReturnsFrames lib') {rand : UInt32}
    {h : List (SystemEvent δ × List (SystemEffect δ))} {s : System δ}
    (hrun : SystemRun lib rand h s) (hwrites : ∀ eff ∈ outputs (serverPart h), FullWrite eff)
    {es : List (SystemEvent δ)} (halike : List.Forall₂ AlikeStored (inputs h) es) :
    ∃ h', SystemRun lib' rand h' s ∧ inputs h' = es ∧ outputs h' = outputs h := by
  apply hrun.replayed AlikeStored _ halike
  intro k u v e o e' hinitial hbefore hstep halike
  apply step_alikeStored hsend hreturns hreturns' _ hstep halike
  apply downlink_isAnswer hbefore
  intro eff hmem
  apply hwrites
  obtain ⟨rest, hrest⟩ := hinitial
  rw [← hrest, serverPart, component_append, component_append, outputs_append, outputs_append]
  exact List.mem_append_left _ (List.mem_append_left _ hmem)

/-- A client logs in, and its answer is on the way to it. -/
def answeredLogin : List (SystemEvent ℕ) :=
  [.server (.acceptDone false 5), .onLogin 0 1, .gameLogicLogin 0 ⟨zeroed, 0⟩ [65] [66],
    .server (.readDone 0 false (encoding (.login [65] [66])) zeroed),
    .server (.mainStep zeroedDeal (.accepts 100)), .server (.mainStep zeroedDeal (.accepts 100)),
    .server (.mainStep zeroedDeal (.accepts 100))]

set_option maxRecDepth 10000 in
/-- The answer is received into other buffers. -/
theorem client_storage_replaced_login :
    ∃ (h h' : List (SystemEvent ℕ × List (SystemEffect ℕ))) (s : System ℕ),
      SystemRun framing 7 h s ∧ SystemRun framing 7 h' s ∧
      inputs h = answeredLogin ++ [.dealMsg 0 1 ⟨0, 0⟩ fun _ => zeroed] ∧
      inputs h' = answeredLogin ++ [.dealMsg 0 1 ⟨1, 2⟩ fun i => ⟨fun _ => 7, 5, i⟩] ∧
      executions 0 (outputs h') = [.onLogin (some 1) true] := by
  have hexec : (exec (System.step framing) (System.start (δ := ℕ) 7)
      (answeredLogin ++ [.dealMsg 0 1 ⟨0, 0⟩ fun _ => zeroed])).map (fun r =>
        ((outputs (serverPart r.2)).all fun eff => decide (FullWrite eff),
          executions 0 (outputs r.2))) = some (true, [.onLogin (some 1) true]) := rfl
  obtain ⟨h, s, hrun, hin, hwrites⟩ := exists_runs_of_exec_map
    (fun h => ((outputs (serverPart h)).all fun eff => decide (FullWrite eff),
      executions 0 (outputs h))) hexec
  rw [Prod.mk.injEq] at hwrites
  have halike : List.Forall₂ AlikeStored (inputs h)
      (answeredLogin ++ [.dealMsg 0 1 ⟨1, 2⟩ fun i => ⟨fun _ => 7, 5, i⟩]) := by
    rw [hin]
    exact List.rel_append (List.forall₂_same.mpr fun e _ => .same e) (.cons (.dealMsg ..) .nil)
  obtain ⟨h', hrun', hin', hout⟩ := client_storage_replaced rfl framing_returnsFrames
    framing_returnsFrames hrun (by simpa using hwrites.1) halike
  exact ⟨h, h', s, hrun, hrun', hin, hin', by rw [hout]; exact hwrites.2⟩

end ShootGame.Analysis
