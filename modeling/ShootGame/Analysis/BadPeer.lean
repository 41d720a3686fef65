import ShootGame.Analysis.MessageFlow

/-!
# A batch with a bad peer

`DealMsg` sends from inside its loop and catches nothing, so a socket that raises ends
the process with the rest of the batch undone, and so does a session that is gone.
`batch_served_iff` says that the batch is served exactly if neither happens to a message
that is answered.
-/

set_option autoImplicit false

namespace ShootGame.Analysis

open ShootGame.Library ShootGame.Model

section Batch

variable (table : Std.TreeMap Int (Option SessionClient)) (peers : ℕ → WriteOutcome)

/-- How the write that answers the message ends, where the peers are as given. -/
def outcomeFor (hmg : HMessage) : WriteOutcome :=
  match table[hmg.iSessionID.read]? with
  | some (some session) => peers session.object
  | _ => .throws

/-- The main steps of `DealMsg` from its `i`-th round on. -/
def batchSteps (junk : ℕ → DealJunk) : ℕ → List HMessage → List Event
  | i, [] => [.mainStep (junk i) .throws]
  | i, hmg :: rest =>
    .mainStep (junk i) (outcomeFor table peers hmg) :: batchSteps junk (i + 1) rest

/-- The reply owed to the message's session, unless its socket raises. -/
def owedReply (hmg : HMessage) : Option (ℕ × List UInt8) :=
  match answerOf hmg, table[hmg.iSessionID.read]? with
  | some frame, some (some session) =>
    if peers session.object = .throws then none else some (session.object, frame)
  | _, _ => none

/-- The message is not answered, or its session is listed and does not raise. -/
def Servable (hmg : HMessage) : Prop :=
  answerOf hmg ≠ none →
    ∃ session n, table[hmg.iSessionID.read]? = some (some session) ∧
      peers session.object = .accepts n

end Batch

def writtenReply : Effect → Option (ℕ × List UInt8)
  | .write object frame _ => some (object, frame)
  | _ => none

/-- The state in the middle of `DealMsg`, with `rest` still to deal with. -/
structure InBatch (table : Std.TreeMap Int (Option SessionClient)) (i : ℕ)
    (rest : List HMessage) (s : Server) : Prop where
  flow : FlowInv s
  running : s.halted = none
  pc : s.pc = .dealMsg i
  table : s.network.mapAllClientSock = table
  rest : s.msgLogic.vecAllClientMsg.drop i = rest

section Rounds

variable {table : Std.TreeMap Int (Option SessionClient)} {peers : ℕ → WriteOutcome}
  {i : ℕ} {hmg : HMessage} {rest : List HMessage} {s : Server}

/-- A listed session's write ends as its peer has it. -/
theorem outcomeFor_eq {session : SessionClient}
    (h : table[hmg.iSessionID.read]? = some (some session)) :
    outcomeFor table peers hmg = peers session.object := by
  unfold outcomeFor
  rw [h]

/-- The next message of the batch is the one that the loop looks at. -/
theorem InBatch.getElem? (h : InBatch table i (hmg :: rest) s) :
    s.msgLogic.vecAllClientMsg[i]? = some hmg := by
  rw [← List.head?_drop, h.rest]
  rfl

/-- A round on a servable message deals with it and writes what is owed. -/
theorem step_servable (h : InBatch table i (hmg :: rest) s)
    (hservable : Servable table peers hmg) (junk : DealJunk) :
    ∃ t o, Server.step s (.mainStep junk (outcomeFor table peers hmg)) = some (t, o) ∧
      InBatch table (i + 1) rest t ∧ o.filterMap dealtMsg = [hmg] ∧
      o.filterMap writtenReply = (owedReply table peers hmg).toList := by
  have hstep := step_deal h.running h.pc h.getElem? junk (outcomeFor table peers hmg)
  have hflow := flowInv_step h.flow (stepped_of_step hstep).2
  refine ⟨_, _, hstep, ?_⟩
  obtain ⟨net, halted, o, hdeal, heq⟩ :=
    h.flow.dealStep_eq h.pc h.getElem? junk (outcomeFor table peers hmg)
  rw [heq] at hflow ⊢
  have hrest : (s.msgLogic.vecAllClientMsg.set i (s.msgLogic.dealOne junk hmg).hmg).drop (i + 1) =
      rest := by
    rw [List.drop_set_of_lt (Nat.lt_succ_self i), ← List.tail_drop, h.rest, List.tail_cons]
  cases hdeal with
  | silent hanswer =>
    exact ⟨⟨hflow, h.running, rfl, h.table, hrest⟩, rfl, by rw [owedReply, hanswer]; rfl⟩
  | missing table' frame hanswer hentry =>
    obtain ⟨session, n, hfound, -⟩ := hservable (by rw [hanswer]; simp)
    exact absurd (h.table ▸ hfound) (hentry session)
  | written frame session n hanswer hentry houtcome =>
    rw [h.table] at hentry
    rw [outcomeFor_eq hentry] at houtcome
    refine ⟨⟨hflow, rfl, rfl, h.table, hrest⟩, rfl, ?_⟩
    rw [owedReply, hanswer, hentry]
    simp only [houtcome, reduceCtorEq, if_false]
    rfl
  | threw frame session hanswer hentry houtcome =>
    rw [h.table] at hentry
    rw [outcomeFor_eq hentry] at houtcome
    obtain ⟨session', n, hfound, hpeer⟩ := hservable (by rw [hanswer]; simp)
    rw [hentry, Option.some.injEq, Option.some.injEq] at hfound
    rw [hfound, hpeer] at houtcome
    cases houtcome

/-- A round on any other message ends the process. -/
theorem step_not_servable (h : InBatch table i (hmg :: rest) s)
    (hservable : ¬ Servable table peers hmg) (junk : DealJunk) :
    ∃ t o, Server.step s (.mainStep junk (outcomeFor table peers hmg)) = some (t, o) ∧
      t.halted ≠ none := by
  refine ⟨_, _, step_deal h.running h.pc h.getElem? junk (outcomeFor table peers hmg), ?_⟩
  obtain ⟨net, halted, o, hdeal, heq⟩ :=
    h.flow.dealStep_eq h.pc h.getElem? junk (outcomeFor table peers hmg)
  rw [heq]
  cases hdeal with
  | silent hanswer => exact absurd (fun hne => absurd hanswer hne) hservable
  | missing => simp
  | written frame session n hanswer hentry houtcome =>
    rw [h.table] at hentry
    refine absurd (fun _ => ⟨session, n, hentry, ?_⟩) hservable
    rw [← houtcome, outcomeFor_eq hentry]
  | threw => simp

/-- The last step of `DealMsg`. -/
theorem step_finish (h : InBatch table i [] s) (junk : DealJunk) (outcome : WriteOutcome) :
    Server.step s (.mainStep junk outcome) =
      some ({ s with msgLogic := { s.msgLogic with vecAllClientMsg := [] }, pc := .getAllMsg },
        []) := by
  have hdone : s.msgLogic.vecAllClientMsg[i]? = none := by
    rw [← List.head?_drop, h.rest]
    rfl
  simp only [Server.step, h.running, Server.mainStep, h.pc, hdone, Option.isSome_none,
    Bool.false_eq_true, if_false]

/-- `DealMsg` gets through: every message is dealt with once, each reply that can be sent
is sent, and the batch is left empty. -/
def Served (table : Std.TreeMap Int (Option SessionClient)) (peers : ℕ → WriteOutcome)
    (junk : ℕ → DealJunk) (i : ℕ) (batch : List HMessage) (s : Server) : Prop :=
  ∃ t h, exec Server.step s (batchSteps table peers junk i batch) = some (t, h) ∧
    (outputs h).filterMap dealtMsg = batch ∧
    (outputs h).filterMap writtenReply = batch.filterMap (owedReply table peers) ∧
    t.msgLogic.vecAllClientMsg = [] ∧ t.pc = .getAllMsg ∧ t.halted = none

/-- After the process has ended no step is possible. -/
theorem exec_of_halted {es : List Event} (hes : es ≠ []) (hhalted : s.halted ≠ none) :
    exec Server.step s es = none := by
  obtain ⟨e, es, rfl⟩ := List.exists_cons_of_ne_nil hes
  have hstep : Server.step s e = none := by
    unfold Server.step
    exact if_pos (Option.isSome_iff_ne_none.mpr hhalted)
  rw [exec, hstep]

/-- `DealMsg` takes at least the step that leaves it. -/
theorem batchSteps_ne_nil (junk : ℕ → DealJunk) (i : ℕ) (batch : List HMessage) :
    batchSteps table peers junk i batch ≠ [] := by
  cases batch <;> simp [batchSteps]

/-- The rest of a batch is served exactly if each of its messages is servable. -/
theorem served_iff (junk : ℕ → DealJunk) (h : InBatch table i rest s) :
    Served table peers junk i rest s ↔ ∀ hmg ∈ rest, Servable table peers hmg := by
  induction rest generalizing i s with
  | nil =>
    have hexec : exec Server.step s (batchSteps table peers junk i []) =
        some (_, [(.mainStep (junk i) .throws, [])]) :=
      exec_cons (step_finish h (junk i) .throws) rfl
    exact iff_of_true ⟨_, _, hexec, rfl, rfl, rfl, rfl, h.running⟩ (by simp)
  | cons hmg rest ih =>
    rw [List.forall_mem_cons]
    have howed : (hmg :: rest).filterMap (owedReply table peers) =
        (owedReply table peers hmg).toList ++ rest.filterMap (owedReply table peers) := by
      cases h : owedReply table peers hmg <;> simp [h]
    by_cases hservable : Servable table peers hmg
    · obtain ⟨u, o, hstep, hin, hdealt, hwritten⟩ := step_servable h hservable (junk i)
      rw [← ih hin, and_iff_right hservable]
      constructor
      · rintro ⟨t, k, hexec, hdealts, hwrittens, hend⟩
        obtain ⟨u', o', k', hstep', hexec', rfl⟩ := exec_cons_inv hexec
        rw [hstep, Option.some.injEq, Prod.mk.injEq] at hstep'
        obtain ⟨rfl, rfl⟩ := hstep'
        rw [outputs_cons, List.filterMap_append, hdealt] at hdealts
        rw [outputs_cons, List.filterMap_append, hwritten, howed] at hwrittens
        exact ⟨t, k', hexec', List.cons.inj hdealts |>.2, List.append_cancel_left hwrittens, hend⟩
      · rintro ⟨t, k, hexec, hdealts, hwrittens, hend⟩
        refine ⟨t, _, exec_cons hstep hexec, ?_, ?_, hend⟩
        · rw [outputs_cons, List.filterMap_append, hdealt, hdealts]
          rfl
        · rw [outputs_cons, List.filterMap_append, hwritten, hwrittens, howed]
    · obtain ⟨u, o, hstep, hhalted⟩ := step_not_servable h hservable (junk i)
      refine iff_of_false ?_ fun hall => hservable hall.1
      rintro ⟨t, k, hexec, -⟩
      obtain ⟨u', o', k', hstep', hexec', rfl⟩ := exec_cons_inv hexec
      rw [hstep, Option.some.injEq, Prod.mk.injEq] at hstep'
      obtain ⟨rfl, rfl⟩ := hstep'
      rw [exec_of_halted (batchSteps_ne_nil junk (i + 1) rest) hhalted] at hexec'
      cases hexec'

end Rounds

/-- A run that has come to `DealMsg` is at the beginning of its batch. -/
theorem inBatch_of_run {rand : UInt32} {h : List (Event × List Effect)} {s : Server}
    (hrun : ServerRun rand h s) (hrunning : s.halted = none) (hpc : s.pc = .dealMsg 0) :
    InBatch s.network.mapAllClientSock 0 s.msgLogic.vecAllClientMsg s :=
  ⟨flowInv_of_run hrun, hrunning, hpc, rfl, rfl⟩

/-- Whatever sockets raise, `DealMsg` serves its batch exactly if no message that is
answered belongs to a session that is gone or whose socket raises. -/
theorem batch_served_iff {rand : UInt32} {h : List (Event × List Effect)} {s : Server}
    (hrun : ServerRun rand h s) (hrunning : s.halted = none) (hpc : s.pc = .dealMsg 0)
    (peers : ℕ → WriteOutcome) (junk : ℕ → DealJunk) :
    Served s.network.mapAllClientSock peers junk 0 s.msgLogic.vecAllClientMsg s ↔
      ∀ hmg ∈ s.msgLogic.vecAllClientMsg, Servable s.network.mapAllClientSock peers hmg :=
  served_iff junk (inBatch_of_run hrun hrunning hpc)

/-! ## Two clients that log in -/

def loginData : List UInt8 := [12, 0, 0x01, 0x20, 0x03, 0x00, 1, 0, 65, 1, 0, 66]

/-- Two clients connect and log in, and the main loop hands both requests to
`DealMsg`. -/
def loginEvents : List Event :=
  [.acceptDone false 5, .acceptDone false 6, .readDone 0 false loginData zeroed,
    .readDone 1 false loginData zeroed, .mainStep zeroedDeal (.accepts 0),
    .mainStep zeroedDeal (.accepts 0)]

/-- The two logins make a run that has come to `DealMsg`. -/
theorem exists_run_loginEvents :
    ∃ h s, ServerRun 7 h s ∧ inputs h = loginEvents ∧ s.halted = none ∧ s.pc = .dealMsg 0 ∧
      s.msgLogic.vecAllClientMsg =
        [MyZServerNetwork.receivedMsg ⟨0, 1, .assigned 7⟩ loginData zeroed,
          MyZServerNetwork.receivedMsg ⟨1, 2, .unset 5⟩ loginData zeroed] ∧
      s.network.mapAllClientSock[(1 : Int)]? = some (some ⟨0, 1, .assigned 7⟩) := by
  obtain ⟨h, s, hexec, hrest⟩ : ∃ h s, exec Server.step (Server.start 7) loginEvents = some (s, h) ∧
      s.halted = none ∧ s.pc = .dealMsg 0 ∧
      s.msgLogic.vecAllClientMsg =
        [MyZServerNetwork.receivedMsg ⟨0, 1, .assigned 7⟩ loginData zeroed,
          MyZServerNetwork.receivedMsg ⟨1, 2, .unset 5⟩ loginData zeroed] ∧
      s.network.mapAllClientSock[(1 : Int)]? = some (some ⟨0, 1, .assigned 7⟩) :=
    ⟨_, _, rfl, rfl, rfl, rfl, rfl⟩
  obtain ⟨hrun, hin⟩ := runs_of_exec hexec
  exact ⟨h, s, hrun, hin, hrest⟩

/-- The batch of the two logins, with peers that take everything. -/
theorem batch_served_iff_two_logins :
    ∃ h s, ServerRun 7 h s ∧ inputs h = loginEvents ∧
      (Served s.network.mapAllClientSock (fun _ => .accepts 100) (fun _ => zeroedDeal) 0
          s.msgLogic.vecAllClientMsg s ↔
        ∀ hmg ∈ s.msgLogic.vecAllClientMsg,
          Servable s.network.mapAllClientSock (fun _ => .accepts 100) hmg) := by
  obtain ⟨h, s, hrun, hin, hrunning, hpc, -⟩ := exists_run_loginEvents
  exact ⟨h, s, hrun, hin, batch_served_iff hrun hrunning hpc _ _⟩

/-- The first client's socket raises, and the second client is never answered. -/
theorem not_served_bad_peer :
    ∃ h s, ServerRun 7 h s ∧ inputs h = loginEvents ∧
      ¬ Served s.network.mapAllClientSock
        (fun object => if object = 0 then .throws else .accepts 100)
        (fun _ => zeroedDeal) 0 s.msgLogic.vecAllClientMsg s := by
  obtain ⟨h, s, hrun, hin, hrunning, hpc, hbatch, hentry⟩ := exists_run_loginEvents
  refine ⟨h, s, hrun, hin, ?_⟩
  rw [served_iff _ (inBatch_of_run hrun hrunning hpc), hbatch]
  intro hall
  obtain ⟨session, n, hfound, hpeer⟩ := hall _ List.mem_cons_self (by decide)
  rw [show (MyZServerNetwork.receivedMsg ⟨0, 1, .assigned 7⟩ loginData zeroed).iSessionID.read = 1
    from rfl, hentry] at hfound
  cases hfound
  cases hpeer

end ShootGame.Analysis
