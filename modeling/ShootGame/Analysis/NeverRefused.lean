import ShootGame.Analysis.EndToEnd

/-!
# What a client can be told

`DealMsg` of the server has two answers, one to every login and one to every check of a
code, and each announces its length.  Whatever bytes the clients send, however they are
cut into reads and whichever connections fail, a client whose library returns the frames
that arrive whole can therefore only be told that a login has succeeded
(`executes_only_success`): its login delegate is never executed with `false`, and its
register delegate never at all.
-/

set_option autoImplicit false

namespace ShootGame.Analysis

open ShootGame.Library ShootGame.Model

/-- One of the frames the server answers with. -/
def IsAnswer (frame : List UInt8) : Prop := ∃ q, answerTo q = some frame

/-- An answer has room for its head. -/
theorem IsAnswer.length_ge {frame : List UInt8} (h : IsAnswer frame) : 10 ≤ frame.length := by
  obtain ⟨q, hq⟩ := h
  cases q with
  | registerAccount a p => cases hq
  | login a p =>
    obtain rfl := Option.some.inj hq
    decide
  | checkDynmicCode c s d =>
    obtain rfl := Option.some.inj hq
    simp [checkFrame, sized, body]

/-- An answer has its length in front. -/
theorem IsAnswer.announces {frame : List UInt8} (h : IsAnswer frame) : Announces frame := by
  refine ⟨h.length_ge.trans' (by decide), ?_⟩
  obtain ⟨q, hq⟩ := h
  cases q with
  | registerAccount a p => cases hq
  | login a p =>
    obtain rfl := Option.some.inj hq
    exact announces_loginFrame.2
  | checkDynmicCode c s d =>
    obtain rfl := Option.some.inj hq
    rw [checkFrame, sized, announced_leBytes, List.length_append, leBytes_length]
    simp [body]

/-- The frames a step writes are answers. -/
theorem isAnswer_of_write {s t : Server} {e : Event} {o : List Effect} (hflow : FlowInv s)
    (h : Stepped s e t o) {object accepted : ℕ} {frame : List UInt8}
    (hmem : .write object frame accepted ∈ o) : IsAnswer frame := by
  cases h with
  | deal junk outcome i hmg hpc hmsg =>
    obtain ⟨net, halted, o, hdeal, heq⟩ := hflow.dealStep_eq hpc hmsg junk outcome
    rw [heq] at hmem
    cases hdeal with
    | written frame' session n hanswer hentry houtcome =>
      simp only [List.mem_cons, Effect.write.injEq, reduceCtorEq, List.not_mem_nil, or_false,
        false_or] at hmem
      obtain ⟨-, rfl, -⟩ := hmem
      obtain ⟨q, -, hq⟩ := Option.bind_eq_some_iff.mp hanswer
      exact ⟨q, hq⟩
    | _ => simp at hmem
  | read object' error data junk session hreading hlen => simp [mem_erasedByRead] at hmem
  | _ => simp at hmem

section Client

variable {δ : Type} {lib : ProNetWork}

/-- The client looks at the first protocol number of the answer to a check, and at no more
of it. -/
theorem calls_checkFrame (junk : RecvJunk) (logic : UProNetLogic δ) {hmg : HMessage}
    {isOK : ErrorCode} {d : UInt32} (h : Shows hmg (checkFrame isOK d)) :
    calls (logic.dealOne junk hmg) = [] := by
  let bs := beBytes isOK.code ++ beBytes d ++ [10]
  have hlen : 10 ≤ (checkFrame isOK d).length := by simp [checkFrame, sized, body]
  have hword : (zeroed.byBuffer.store 0 (checkFrame isOK d)).wordAt 2 =
      MainProtocol.fmQRoundMessage.code := by
    apply Memory.wordAt_of_load
    have hslice := Memory.load_store_slice zeroed.byBuffer
      (leBytes (UInt16.ofNat ((body .fmQRoundMessage .zs2dsACheckDynmicCode bs).length + 2)))
      (leBytes MainProtocol.fmQRoundMessage.code)
      (leBytes SubProtocol.zs2dsACheckDynmicCode.code ++ bs) (q := 2) (n := 2) rfl rfl
    simpa [checkFrame, sized, body, bs] using hslice
  have hother : MainProtocol.fmQRoundMessage.code ≠ GameHMsg.mainCode .fmZdqLogin := by decide
  rw [calls, dealOne_of_shows hlen h (shows_ofData zeroed _) junk junk logic,
    dealOne_eventsOfHead junk logic rfl, show (HMessage.ofData zeroed _).byBuffer.wordAt 2 = _
    from hword, eventsOfHead, if_neg hother]
  rfl

/-- A message that shows an answer executes no delegate but the one for logins. -/
theorem calls_answer (junk : RecvJunk) (logic : UProNetLogic δ) {hmg : HMessage}
    {frame : List UInt8} (hshows : Shows hmg frame) (h : IsAnswer frame) :
    ∀ ev ∈ calls (logic.dealOne junk hmg), ∃ delegate, ev = .onLogin delegate true := by
  obtain ⟨q, hq⟩ := h
  cases q with
  | registerAccount a p => cases hq
  | login a p =>
    obtain rfl := Option.some.inj hq
    rw [calls_loginFrame junk logic hshows]
    simp
  | checkDynmicCode c s d =>
    obtain rfl := Option.some.inj hq
    rw [calls_checkFrame junk logic hshows]
    simp

/-- Where only answers have arrived, a step of the system executes no delegate but the one
for logins, with success. -/
theorem executions_of_answers (hreturns : ReturnsFrames lib) {s t : System δ}
    {e : SystemEvent δ} {o : List (SystemEffect δ)} (h : s.step lib e = some (t, o)) {object : ℕ}
    (hanswers : ∀ frame ∈ (s.connections object).downlink, IsAnswer frame) :
    ∀ ev ∈ executions object o, ∃ delegate, ev = .onLogin delegate true := by
  intro ev hmem
  obtain ⟨eff, heff, hev⟩ := List.mem_filterMap.mp hmem
  unfold System.step at h
  cases e with
  | server e =>
    obtain ⟨-, u, out, -, rfl, -⟩ := stepServer_eq h
    obtain ⟨x, -, rfl⟩ := List.mem_map.mp heff
    cases hev
  | dealMsg owner n junk storage =>
    obtain ⟨logic, out, hout, rfl, -⟩ := stepClient_eq h
    simp only [UProNetLogic.step, Option.some.injEq, Prod.mk.injEq] at hout
    obtain ⟨-, rfl⟩ := hout
    obtain ⟨x, hx, rfl⟩ := List.mem_map.mp heff
    obtain ⟨y, hy, rfl⟩ := List.mem_map.mp hx
    obtain ⟨dealt, hdealt, hin⟩ := List.mem_flatMap.mp hy
    simp only [executionBy] at hev
    split_ifs at hev with hsame
    subst hsame
    obtain ⟨hmg, hhmg, rfl⟩ := List.mem_map.mp hdealt
    have harrived : ∀ frame ∈ (s.connections owner).downlink.take n, IsAnswer frame :=
      fun frame hmem => hanswers frame (List.mem_of_mem_take hmem)
    obtain ⟨hlength, hshows⟩ := List.forall₂_iff_get.mp
      (hreturns storage _ fun frame hmem => (harrived frame hmem).announces)
    obtain ⟨i, rfl⟩ := List.mem_iff_get.mp hhmg
    apply calls_answer junk _ (hshows i i.isLt (hlength ▸ i.isLt)) (harrived _ (List.get_mem _ _))
    rw [← filterMap_execution]
    exact List.mem_filterMap.mpr ⟨y, hin, hev⟩
  | gameLogicLogin owner | gameLogicRegister owner =>
    obtain ⟨logic, out, hout, rfl, -⟩ := stepClient_eq h
    simp only [UProNetLogic.step, Option.some.injEq, Prod.mk.injEq] at hout
    obtain ⟨-, rfl⟩ := hout
    obtain ⟨x, hx, rfl⟩ := List.mem_map.mp heff
    obtain ⟨y, -, rfl⟩ := List.mem_map.mp hx
    cases hev
  | onLogin owner | onRegister owner =>
    obtain ⟨logic, out, hout, rfl, -⟩ := stepClient_eq h
    simp only [UProNetLogic.step, Option.some.injEq, Prod.mk.injEq] at hout
    obtain ⟨-, rfl⟩ := hout
    cases heff

/-- Only answers are ever on their way to a client. -/
theorem downlink_isAnswer {rand : UInt32} {h : List (SystemEvent δ × List (SystemEffect δ))}
    {s : System δ} (hrun : SystemRun lib rand h s)
    (hwrites : ∀ eff ∈ outputs (serverPart h), FullWrite eff) (object : ℕ) :
    ∀ frame ∈ (s.connections object).downlink, IsAnswer frame := by
  induction hrun with
  | start => simp [System.start]
  | @next h u v e o hrun hstep ih =>
    rw [serverPart, ((hrun.next hstep).component stepsComponent_server).2, outputs_append,
      List.filterMap_append, ← (hrun.component stepsComponent_server).2,
      List.forall_mem_append] at hwrites
    obtain ⟨-, -, hdownlink⟩ := connectionStep_of_step hstep object
    intro frame hmem
    rw [hdownlink, List.mem_append] at hmem
    rcases hmem with hold | hnew
    · exact ih hwrites.1 frame (List.mem_of_mem_drop hold)
    · obtain ⟨eff, heff, hto⟩ := List.mem_filterMap.mp hnew
      have hfull := hwrites.2 eff (by simpa using heff)
      cases eff with
      | write owner frame' accepted =>
        simp only [frameTo] at hto
        split_ifs at hto
        obtain rfl := Option.some.inj hto
        obtain rfl : accepted = frame'.length := hfull
        rw [List.take_length]
        cases hin : serverEvent e with
        | none =>
          rw [(stepsComponent_server.outside hstep hin).2] at heff
          cases heff
        | some k =>
          have hserver := stepsComponent_server.inside hstep hin
          exact isAnswer_of_write (flowInv_of_run (serverRun_of_system hrun))
            (stepped_of_step hserver).2 heff
      | _ => cases hto

/-- Where the server's writes take whole frames, no client ever executes a delegate with
anything but a successful login: whatever it and the others send, and whichever reads and
connections fail. -/
theorem executes_only_success (hreturns : ReturnsFrames lib) {rand : UInt32}
    {h : List (SystemEvent δ × List (SystemEffect δ))} {s : System δ}
    (hrun : SystemRun lib rand h s)
    (hwrites : ∀ eff ∈ outputs (serverPart h), FullWrite eff) (object : ℕ) :
    ∀ ev ∈ executions object (outputs h), ∃ delegate, ev = .onLogin delegate true := by
  induction hrun with
  | start => simp [executions]
  | @next h u v e o hrun hstep ih =>
    have hbefore := hwrites
    rw [serverPart, component_append, outputs_append, List.forall_mem_append] at hbefore
    rw [outputs_append, outputs_cons, outputs_nil, List.append_nil, executions_append,
      List.forall_mem_append]
    exact ⟨ih hbefore.1,
      executions_of_answers hreturns hstep (downlink_isAnswer hrun hbefore.1 object)⟩

end Client

set_option maxRecDepth 10000 in
/-- A client registers and receives whatever there is to receive. -/
theorem executes_only_success_registration :
    ∃ (h : List (SystemEvent ℕ × List (SystemEffect ℕ))) (s : System ℕ), SystemRun framing 7 h s ∧
      asked 0 (inputs h) = [.registerAccount [65] [66]] ∧
      ∀ ev ∈ executions 0 (outputs h), ∃ delegate, ev = .onLogin delegate true := by
  have hexec : (exec (System.step framing) (System.start (δ := ℕ) 7)
      [.server (.acceptDone false 5), .gameLogicRegister 0 ⟨zeroed, 0⟩ [65] [66],
        .server (.readDone 0 false (encoding (.registerAccount [65] [66])) zeroed),
        .server (.mainStep zeroedDeal (.accepts 100)),
        .server (.mainStep zeroedDeal (.accepts 100)),
        .server (.mainStep zeroedDeal (.accepts 100)),
        .dealMsg 0 1 ⟨0, 0⟩ fun _ => zeroed]).map (fun r =>
        (outputs (serverPart r.2)).all fun eff => decide (FullWrite eff)) = some true := rfl
  obtain ⟨h, s, hrun, hin, hwrites⟩ := exists_runs_of_exec_map
    (fun h => (outputs (serverPart h)).all fun eff => decide (FullWrite eff)) hexec
  exact ⟨h, s, hrun, by rw [hin]; rfl, executes_only_success framing_returnsFrames
    hrun (by simpa using hwrites) 0⟩

end ShootGame.Analysis
