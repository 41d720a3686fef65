import ShootGame.Analysis.SessionTable

/-!
# Where replies go

`DealMsg` looks the session of a message up when it answers it, which may be long after
the message was queued.  The lookup finds the session exactly as long as no read drops
or has dropped a session that has an answer coming (`replies_addressed_iff`).

`exists_drain` lets the main loop run on alone until nothing is left to deal with, or
until it misses a session.
-/

set_option autoImplicit false

namespace ShootGame.Analysis

open ShootGame.Library ShootGame.Model

/-! ## Missing sessions -/

/-- Every lookup of a session to reply to found one. -/
def Addressed (effects : List Effect) : Prop :=
  ∀ id entry frame, .lookup id entry frame ∈ effects → ∃ session, entry = some session

/-- Every message under way that will be answered is of a listed session. -/
def AnswersListed (s : Server) : Prop :=
  ∀ hmg ∈ waiting s, answerOf hmg ≠ none → Listed s hmg.iSessionID.read

/-- A failed read comes when its session has no answer coming, and brings no message to
be answered; a message to be answered comes from a listed session. -/
def KeepsListed (s : Server) : Event → Prop
  | .readDone object error data junk =>
    ∀ session, s.network.reading.find? (fun c => c.object == object) = some session →
      if error then
        answerOf (MyZServerNetwork.receivedMsg session data junk) = none ∧
          ∀ old ∈ waiting s, answerOf old ≠ none → old.iSessionID.read ≠ session.iID
      else
        answerOf (MyZServerNetwork.receivedMsg session data junk) ≠ none → Listed s session.iID
  | _ => True

/-- Two histories are addressed if both are. -/
theorem addressed_append {o₁ o₂ : List Effect} :
    Addressed (o₁ ++ o₂) ↔ Addressed o₁ ∧ Addressed o₂ := by
  simp only [Addressed, List.mem_append, or_imp, forall_and]

/-- Such a step finds every session it looks up, and leaves nothing to be answered
without one. -/
theorem answersListed_step {s t : Server} {e : Event} {o : List Effect} (hflow : FlowInv s)
    (hlisted : AnswersListed s) (hkeeps : KeepsListed s e) (h : Stepped s e t o) :
    AnswersListed t ∧ Addressed o := by
  have hwaited : ∀ hmg ∈ waiting t, hmg ∈ waiting s ∨ hmg ∈ o.filterMap queuedMsg :=
    fun _ => mem_waiting_step hflow h
  -- a step that queues nothing and leaves the table alone
  have hquiet : o.filterMap queuedMsg = [] → (∀ id, Listed s id → Listed t id) →
      AnswersListed t := by
    intro hnone hkept hmg hmem hanswer
    rcases hwaited hmg hmem with hold | hnew
    · exact hkept _ (hlisted hmg hold hanswer)
    · rw [hnone] at hnew
      cases hnew
  cases h with
  | accept error junk session rest haccepting =>
    refine ⟨hquiet rfl fun id ⟨old, hentry⟩ => ?_, by simp [Addressed]⟩
    simp only [Listed, Std.TreeMap.getElem?_insert]
    split_ifs
    · exact ⟨session, rfl⟩
    · exact ⟨old, hentry⟩
  | read object error data junk session hreading hlen =>
    refine ⟨fun hmg hmem hanswer => ?_, by simp [Addressed, mem_erasedByRead]⟩
    have hkeep := hkeeps session hreading
    have hold : hmg ∈ waiting s ∨ hmg = MyZServerNetwork.receivedMsg session data junk := by
      rw [waiting_network (s := s) _ (by rfl)] at hmem
      simpa using hmem
    simp only [Listed, getElem?_tableAfterRead]
    cases error with
    | false =>
      simp only [Bool.false_eq_true, false_and, if_false]
      rcases hold with hold | rfl
      · exact hlisted hmg hold hanswer
      · exact hkeep hanswer
    | true =>
      rcases hold with hold | rfl
      · rw [if_neg fun h => hkeep.2 hmg hold hanswer h.2.symm]
        exact hlisted hmg hold hanswer
      · exact absurd hkeep.1 hanswer
  | deal junk outcome i hmg hpc hmsg =>
    obtain ⟨net, halted, o, hdeal, heq⟩ := hflow.dealStep_eq hpc hmsg junk outcome
    rw [heq] at hquiet ⊢
    cases hdeal with
    | missing table frame hanswer hentry htable =>
      obtain ⟨session, hfound⟩ :=
        hlisted hmg (by rw [waiting_deal hpc hmsg]; simp) (by rw [hanswer]; simp)
      exact absurd hfound (hentry session)
    | silent => exact ⟨hquiet rfl fun _ h => h, by simp [Addressed]⟩
    | written frame session n | threw frame session =>
      refine ⟨hquiet rfl fun _ h => h, fun id entry frame hmem => ⟨session, ?_⟩⟩
      simp only [List.mem_cons, Effect.lookup.injEq, reduceCtorEq, List.not_mem_nil, or_false,
        false_or] at hmem
      exact hmem.2.1
  | _ => exact ⟨hquiet rfl fun _ h => h, by simp [Addressed]⟩

/-- From a state in which the sessions with answers coming are listed, a run that keeps them so
finds every session it looks up. -/
theorem addressed_run {s t : Server} {h : List (Event × List Effect)} (hflow : FlowInv s)
    (hlisted : AnswersListed s) (hrun : Runs Server.step s h t)
    (hkeeps : ∀ h₁ e o h₂ s₁, h = h₁ ++ (e, o) :: h₂ → Runs Server.step s h₁ s₁ →
      KeepsListed s₁ e) : AnswersListed t ∧ Addressed (outputs h) := by
  induction hrun with
  | start => exact ⟨hlisted, by simp [Addressed]⟩
  | @next h u v e o hprefix hstep ih =>
    obtain ⟨hlisted', haddressed⟩ := ih fun h₁ e' o' h₂ s₁ heq hrun₁ =>
      hkeeps h₁ e' o' (h₂ ++ [(e, o)]) s₁ (by rw [heq]; simp) hrun₁
    have hlast := answersListed_step (flowInv_of_runs hflow hprefix) hlisted'
      (hkeeps h e o [] u rfl hprefix) (stepped_of_step hstep).2
    rw [outputs_append, outputs_cons, outputs_nil, List.append_nil, addressed_append]
    exact ⟨hlast.1, haddressed, hlast.2⟩

/-! ## Draining -/

def MainOnly (es : List Event) : Prop := ∀ e ∈ es, ∃ junk outcome, e = .mainStep junk outcome

/-- How far the main loop is from the next message it deals with, if one is waiting. -/
def stage (s : Server) : ℕ :=
  match s.pc with
  | .getAllMsg => 2
  | .getvecMsg [] => 4
  | .getvecMsg (_ :: _) => 1
  | .dealMsg i => if i < s.msgLogic.vecAllClientMsg.length then 0 else 3

/-- The main loop is at most four steps from the next message. -/
theorem stage_le (s : Server) : stage s ≤ 4 := by
  unfold stage
  split <;> try split_ifs
  all_goals omega

/-- While messages wait, the main loop gets on: it misses a session, or comes closer to
the end of the queue. -/
theorem main_progress {s : Server} (hflow : FlowInv s) (hrunning : s.halted = none)
    (hwaiting : waiting s ≠ []) (junk : DealJunk) :
    ∃ t o, Server.step s (.mainStep junk (.accepts 0)) = some (t, o) ∧
      ((∃ id frame, .lookup id none frame ∈ o) ∨
        (t.halted = none ∧ t.network.mapAllClientSock = s.network.mapAllClientSock ∧
          5 * (waiting t).length + stage t < 5 * (waiting s).length + stage s ∧
          ∀ hmg ∈ waiting s, hmg ∈ waiting t ∨
            (answerOf hmg ≠ none → Listed s hmg.iSessionID.read))) := by
  obtain ⟨t, o, hstep⟩ : ∃ t o, Server.step s (.mainStep junk (.accepts 0)) = some (t, o) :=
    ⟨_, _, by simp only [Server.step, hrunning]; rfl⟩
  refine ⟨t, o, hstep, ?_⟩
  have hstepped := (stepped_of_step hstep).2
  have hconserved := waiting_step hflow hstepped
  cases hstepped with
  | fetch _ _ hpc =>
    have hsame : waiting s = waiting { s with
        network := { s.network with vecAllClientMsg := [] }
        pc := .getvecMsg s.network.vecAllClientMsg } := by simpa using hconserved
    refine .inr ⟨hrunning, rfl, ?_, fun hmg hmem => .inl (hsame ▸ hmem)⟩
    rw [← hsame]
    have hqueue : s.network.vecAllClientMsg ≠ [] := by simpa [waiting, hpc] using hwaiting
    obtain ⟨first, rest, hcons⟩ := List.exists_cons_of_ne_nil hqueue
    simp [stage, hpc, hcons]
  | hand _ _ vecTmpMsgList hpc =>
    have hsame : waiting s = waiting { s with
        msgLogic := { s.msgLogic with vecAllClientMsg := vecTmpMsgList }
        pc := .dealMsg 0 } := by simpa using hconserved
    refine .inr ⟨hrunning, rfl, ?_, fun hmg hmem => .inl (hsame ▸ hmem)⟩
    rw [← hsame]
    cases vecTmpMsgList <;> simp [stage, hpc]
  | finish _ _ i hpc hdone =>
    have hsame : waiting s = waiting { s with
        msgLogic := { s.msgLogic with vecAllClientMsg := [] }
        pc := .getAllMsg } := by simpa using hconserved
    refine .inr ⟨hrunning, rfl, ?_, fun hmg hmem => .inl (hsame ▸ hmem)⟩
    rw [← hsame]
    have hle := List.getElem?_eq_none_iff.mp hdone
    simp [stage, hpc, Nat.not_lt.mpr hle]
  | deal _ _ i hmg hpc hmsg =>
    have hlt := (List.getElem?_eq_some_iff.mp hmsg).1
    have hstage : stage s = 0 := by simp [stage, hpc, hlt]
    have hcons := hflow.waiting_dealStep hpc hmsg junk (.accepts 0)
    have hless : 5 * (waiting (s.dealStep junk (.accepts 0) i hmg).1).length +
        stage (s.dealStep junk (.accepts 0) i hmg).1 < 5 * (waiting s).length + stage s := by
      have hle := stage_le (s.dealStep junk (.accepts 0) i hmg).1
      rw [hcons, List.length_cons]
      omega
    have hothers : (answerOf hmg ≠ none → Listed s hmg.iSessionID.read) →
        ∀ hmg' ∈ waiting s, hmg' ∈ waiting (s.dealStep junk (.accepts 0) i hmg).1 ∨
          (answerOf hmg' ≠ none → Listed s hmg'.iSessionID.read) := by
      intro hfirst hmg' hmem
      rw [hcons, List.mem_cons] at hmem
      rcases hmem with rfl | hmem
      · exact .inr hfirst
      · exact .inl hmem
    obtain ⟨net, halted, o, hdeal, heq⟩ := hflow.dealStep_eq hpc hmsg junk (.accepts 0)
    rw [heq] at hless hothers ⊢
    cases hdeal with
    | silent hanswer => exact .inr ⟨hrunning, rfl, hless, hothers fun h => absurd hanswer h⟩
    | missing table frame => exact .inl ⟨hmg.iSessionID.read, frame, by simp⟩
    | written frame session n hanswer hentry =>
      exact .inr ⟨rfl, rfl, hless, hothers fun _ => ⟨session, hentry⟩⟩
    | threw frame session hanswer hentry houtcome => cases houtcome

/-- The main loop alone deals with all that waits, unless it misses a session. -/
theorem exists_drain {s : Server} (hflow : FlowInv s) (hrunning : s.halted = none)
    (junk : DealJunk) :
    ∃ k t, Runs Server.step s k t ∧ MainOnly (inputs k) ∧
      ((∃ id frame, .lookup id none frame ∈ outputs k) ∨
        (waiting t = [] ∧ AnswersListed s)) := by
  induction hn : 5 * (waiting s).length + stage s using Nat.strong_induction_on
    generalizing s with
  | _ n ih =>
    subst hn
    by_cases hwaiting : waiting s = []
    · exact ⟨[], s, .start, by simp [MainOnly], .inr ⟨hwaiting, by simp [AnswersListed, hwaiting]⟩⟩
    · obtain ⟨t, o, hstep, hprogress⟩ := main_progress hflow hrunning hwaiting junk
      have hmain : MainOnly [.mainStep junk (.accepts 0)] := by simp [MainOnly]
      rcases hprogress with ⟨id, frame, hmiss⟩ | ⟨hrunning', htable, hless, hleft⟩
      · exact ⟨_, t, .single hstep, hmain, .inl ⟨id, frame, by simpa using hmiss⟩⟩
      · have hflow' := flowInv_step hflow (stepped_of_step hstep).2
        obtain ⟨k, u, hrun, hmain', hend⟩ := ih _ hless hflow' hrunning' rfl
        refine ⟨_, u, (Runs.single hstep).trans hrun, ?_, ?_⟩
        · intro e hmem
          rw [inputs_append, List.mem_append] at hmem
          exact hmem.elim (hmain e) (hmain' e)
        · rcases hend with ⟨id, frame, hmiss⟩ | ⟨hempty, hlisted⟩
          · exact .inl ⟨id, frame, by simp [hmiss]⟩
          · refine .inr ⟨hempty, fun hmg hmem hanswer => ?_⟩
            rcases hleft hmg hmem with hlater | hnow
            · obtain ⟨session, hentry⟩ := hlisted hmg hlater hanswer
              exact ⟨session, htable ▸ hentry⟩
            · exact hnow hanswer

/-! ## Addressed replies -/

/-- In the run, and in whatever the main loop alone makes of its states, every session
looked up is found. -/
def RepliesAddressed (rand : UInt32) (h : List (Event × List Effect)) : Prop :=
  ∀ h₁ h₂ k t, h = h₁ ++ h₂ → MainOnly (inputs k) → ServerRun rand (h₁ ++ k) t →
    Addressed (outputs (h₁ ++ k))

/-- Every step of the run keeps a session listed as long as it has an answer coming. -/
def ListedKept (rand : UInt32) (h : List (Event × List Effect)) : Prop :=
  ∀ h₁ e o h₂ s₁, h = h₁ ++ (e, o) :: h₂ → ServerRun rand h₁ s₁ → KeepsListed s₁ e

/-- At the start no answer is coming. -/
theorem answersListed_start (rand : UInt32) : AnswersListed (Server.start rand) := by
  intro hmg hmem
  rw [show waiting (Server.start rand) = [] from rfl] at hmem
  cases hmem

/-- Where every step keeps the sessions listed, every reply has one to go to. -/
theorem addressed_of_listedKept {rand : UInt32} {h : List (Event × List Effect)}
    (hkept : ListedKept rand h) : RepliesAddressed rand h := by
  rintro h₁ h₂ k t rfl hmain hrun
  refine (addressed_run (flowInv_start rand) (answersListed_start rand) hrun ?_).2
  intro g₁ e o g₂ s₁ heq hrun₁
  rcases List.append_eq_append_iff.mp heq with ⟨m, rfl, hk⟩ | ⟨m, rfl, hm⟩
  · -- the step is one of the main loop's
    obtain ⟨junk, outcome, rfl⟩ := hmain e (by rw [hk]; simp)
    trivial
  · cases m with
    | nil =>
      obtain ⟨junk, outcome, rfl⟩ := hmain e (by rw [← List.nil_append k, ← hm]; simp)
      trivial
    | cons x m =>
      obtain ⟨rfl, rfl⟩ := List.cons.inj hm
      exact hkept g₁ e o (m ++ h₂) s₁ (by simp) hrun₁

/-- A read that breaks the condition leaves an answer coming for a session that is gone. -/
theorem not_answersListed_of_read {s t : Server} {e : Event} {o : List Effect}
    (h : Stepped s e t o) (hnot : ¬ KeepsListed s e) :
    t.halted = s.halted ∧ ¬ AnswersListed t := by
  cases h with
  | read object error data junk session hreading hlen =>
    refine ⟨rfl, fun hlisted => hnot fun session' hfind => ?_⟩
    obtain rfl : session = session' := Option.some.inj (hreading.symm.trans hfind)
    rw [AnswersListed, waiting_network (s := s) _ (by rfl)] at hlisted
    simp only [Listed, getElem?_tableAfterRead] at hlisted
    cases error with
    | false =>
      intro hanswer
      obtain ⟨other, hentry⟩ :=
        hlisted (MyZServerNetwork.receivedMsg session data junk) (by simp) hanswer
      rw [if_neg (by simp)] at hentry
      exact ⟨other, hentry⟩
    | true =>
      refine ⟨?_, fun old hold hanswer hid => ?_⟩
      · by_contra hanswer
        obtain ⟨other, hentry⟩ :=
          hlisted (MyZServerNetwork.receivedMsg session data junk) (by simp) hanswer
        rw [if_pos ⟨rfl, rfl⟩] at hentry
        cases hentry
      · obtain ⟨other, hentry⟩ := hlisted old (by simp [hold]) hanswer
        rw [if_pos ⟨rfl, hid.symm⟩] at hentry
        cases hentry
  | _ => exact absurd trivial hnot

/-- Replies find their sessions exactly in the runs whose reads keep every session
listed that has an answer coming. -/
theorem replies_addressed_iff {rand : UInt32} {h : List (Event × List Effect)} {s : Server}
    (hrun : ServerRun rand h s) : RepliesAddressed rand h ↔ ListedKept rand h := by
  refine ⟨fun haddressed h₁ e o h₂ s₁ heq hrun₁ => ?_, addressed_of_listedKept⟩
  subst heq
  by_contra hnot
  obtain ⟨t, v, ht, hstep, -⟩ := hrun.step_of_split
  obtain rfl := ht.state_unique hrun₁
  obtain ⟨hrunning, hstepped⟩ := stepped_of_step hstep
  obtain ⟨hsame, hunlisted⟩ := not_answersListed_of_read hstepped hnot
  have hv : ServerRun rand (h₁ ++ [(e, o)]) v := hrun₁.next hstep
  obtain ⟨k, u, hk, hmain, hend⟩ :=
    exists_drain (flowInv_of_run hv) (hsame.trans hrunning) zeroedDeal
  rcases hend with ⟨id, frame, hmiss⟩ | ⟨-, hlisted⟩
  · obtain ⟨session, hsession⟩ := haddressed (h₁ ++ [(e, o)]) h₂ k u (by simp) hmain (hv.trans hk)
      id none frame (by rw [outputs_append]; exact List.mem_append_right _ hmiss)
    cases hsession
  · exact hunlisted hlisted

/-- A client connects and sends a byte that is not answered. -/
theorem replies_addressed_iff_one_byte :
    ∃ h s, ServerRun 7 h s ∧
      inputs h = [.acceptDone false 5, .readDone 0 false [1] zeroed] ∧
      RepliesAddressed 7 h := by
  obtain ⟨h, s, hrun, hin⟩ := exists_serverRun 7
    [.acceptDone false 5, .readDone 0 false [1] zeroed] rfl
  refine ⟨h, s, hrun, hin, (replies_addressed_iff hrun).mpr ?_⟩
  rintro h₁ e o h₂ s₁ rfl hrun₁
  have hmem : e ∈ inputs (h₁ ++ (e, o) :: h₂) := by simp
  rw [hin] at hmem
  simp only [List.mem_cons, List.not_mem_nil, or_false] at hmem
  rcases hmem with rfl | rfl
  · trivial
  · have hnone : decoded (zeroed.byBuffer.store 0 [1]) = none := by decide
    exact fun session _ hanswer => absurd (congrArg (Option.bind · answerTo) hnone) hanswer

def loginThenDisconnect : List Event :=
  [.acceptDone false 5,
    .readDone 0 false [12, 0, 0x01, 0x20, 0x03, 0x00, 1, 0, 65, 1, 0, 66] zeroed,
    .readDone 0 true [] zeroed,
    .mainStep zeroedDeal (.accepts 0),
    .mainStep zeroedDeal (.accepts 0)]

/-- The client that logged in is lost, and the reply to it finds no session. -/
theorem login_then_disconnect_unaddressed :
    ∃ h s, ServerRun 7 h s ∧
      inputs h = loginThenDisconnect ++ [.mainStep zeroedDeal (.accepts 0)] ∧
      ¬ Addressed (outputs h) := by
  obtain ⟨h, s, hexec, hpc, hrunning, hmsg, hentry⟩ : ∃ h s,
      exec Server.step (Server.start 7) loginThenDisconnect = some (s, h) ∧
        s.pc = .dealMsg 0 ∧ s.halted = none ∧
        s.msgLogic.vecAllClientMsg[0]? = some (MyZServerNetwork.receivedMsg ⟨0, 1, .assigned 7⟩
          [12, 0, 0x01, 0x20, 0x03, 0x00, 1, 0, 65, 1, 0, 66] zeroed) ∧
        s.network.mapAllClientSock[(1 : Int)]? = none :=
    ⟨_, _, rfl, rfl, rfl, rfl, rfl⟩
  obtain ⟨hrun, hin⟩ := runs_of_exec hexec
  have hstep := step_deal hrunning hpc hmsg zeroedDeal (.accepts 0)
  refine ⟨_, _, hrun.next hstep, by rw [inputs_append, hin]; rfl, fun haddressed => ?_⟩
  rw [outputs_append, addressed_append] at haddressed
  have hlookup : .lookup 1 none loginFrame ∈ (s.dealStep zeroedDeal (.accepts 0) 0 _).2 :=
    ((flowInv_of_run hrun).mem_lookup_iff hpc hmsg zeroedDeal (.accepts 0)).mpr
      ⟨rfl, (congrArg Option.join hentry).symm, rfl⟩
  obtain ⟨session, hsession⟩ := haddressed.2 1 none loginFrame (by simpa using hlookup)
  cases hsession

end ShootGame.Analysis
