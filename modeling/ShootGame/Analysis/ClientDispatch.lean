import ShootGame.Model.ClientCalls

/-!
# What the client does with a message

The two protocol numbers of a message select one effect, and messages of the login main
protocol have a second one: the block of `case FM_ZDQ_LOGIN` runs on into the outer
`default`.  `dealOne_events` states both, and the two results on batches and on orders of
calls are read off it.
-/

set_option autoImplicit false

namespace ShootGame.Analysis

open ShootGame.Library ShootGame.Model

/-! ## One message -/

/-- The protocol numbers `BaseMessage::get` reads from a message. -/
def mainOf (hmg : HMessage) : UInt16 := (GameHMsg.BaseMessage.get hmg).1.iMainProtocol

def subOf (hmg : HMessage) : UInt16 := (GameHMsg.BaseMessage.get hmg).1.iSubProtocol

/-- The message is an answer to a registration, by its protocol numbers. -/
def IsRegisterAnswer (hmg : HMessage) : Prop :=
  mainOf hmg = GameHMsg.mainCode .fmZdqLogin ∧ subOf hmg = GameHMsg.otherSubCode .zs2cARegister

def IsLoginAnswer (hmg : HMessage) : Prop :=
  mainOf hmg = GameHMsg.mainCode .fmZdqLogin ∧ subOf hmg = GameHMsg.subCode .zs2cALogin

/-- An answer to a login: the header with its size, then the error code. -/
def loginAnswer : HMessage :=
  HMessage.ofData ⟨fun _ => 0, 0, 0⟩ [18, 0, 0x01, 0x20, 4, 0, 0, 0, 0, 3, 0, 0, 0, 0, 0, 0, 0, 0]

/-- The bytes are those of a login answer. -/
theorem isLoginAnswer_loginAnswer : IsLoginAnswer loginAnswer := by
  unfold IsLoginAnswer
  decide

section Message

variable {δ : Type}

/-- The effect that the protocol numbers of a message select. -/
inductive EffectOf (logic : UProNetLogic δ) (hmg : HMessage) : ClientEvent δ → Prop
  | register (registOK : Bool) (h : IsRegisterAnswer hmg) :
      EffectOf logic hmg (.onRegist logic.onRegistDelegate registOK)
  | login (loginOK : Bool) (h : IsLoginAnswer hmg) :
      EffectOf logic hmg (.onLogin logic.onLoginDelegate loginOK)
  | unknownSub (hmain : mainOf hmg = GameHMsg.mainCode .fmZdqLogin)
      (hregister : subOf hmg ≠ GameHMsg.otherSubCode .zs2cARegister)
      (hlogin : subOf hmg ≠ GameHMsg.subCode .zs2cALogin) :
      EffectOf logic hmg (.log "Unknow MSG(Sub)")
  | unknownMain (hmain : mainOf hmg ≠ GameHMsg.mainCode .fmZdqLogin) :
      EffectOf logic hmg (.log "Unknow MSG(Main)")

/-- What runs on into the outer `default`. -/
def fallThrough (hmg : HMessage) : List (ClientEvent δ) :=
  if mainOf hmg = GameHMsg.mainCode .fmZdqLogin then [.log "Unknow MSG(Main)"] else []

/-- The inner `switch` has the effect that the sub protocol selects. -/
theorem dealLogin_events (junk : RecvJunk) (logic : UProNetLogic δ) {hmg : HMessage}
    (hmain : mainOf hmg = GameHMsg.mainCode .fmZdqLogin) (hmg' : HMessage) :
    ∃ e, EffectOf logic hmg e ∧ (logic.dealLogin junk (subOf hmg) hmg').events = [e] := by
  unfold UProNetLogic.dealLogin
  by_cases hregister : subOf hmg = GameHMsg.otherSubCode .zs2cARegister
  · rw [if_pos hregister]
    dsimp only
    split
    · exact ⟨_, .register true ⟨hmain, hregister⟩, rfl⟩
    · exact ⟨_, .register false ⟨hmain, hregister⟩, rfl⟩
  · rw [if_neg hregister]
    by_cases hlogin : subOf hmg = GameHMsg.subCode .zs2cALogin
    · rw [if_pos hlogin]
      dsimp only
      split
      · exact ⟨_, .login true ⟨hmain, hlogin⟩, rfl⟩
      · exact ⟨_, .login false ⟨hmain, hlogin⟩, rfl⟩
    · rw [if_neg hlogin]
      exact ⟨_, .unknownSub hmain hregister hlogin, rfl⟩

/-- The effects of a message: the selected one first. -/
theorem dealOne_events (junk : RecvJunk) (logic : UProNetLogic δ) (hmg : HMessage) :
    ∃ e, EffectOf logic hmg e ∧ (logic.dealOne junk hmg).events = e :: fallThrough hmg := by
  unfold UProNetLogic.dealOne fallThrough
  by_cases hmain : mainOf hmg = GameHMsg.mainCode .fmZdqLogin
  · obtain ⟨e, heffect, hevents⟩ :=
      dealLogin_events junk logic hmain (GameHMsg.BaseMessage.get hmg).2
    refine ⟨e, heffect, ?_⟩
    rw [if_pos hmain]
    have hinner : (GameHMsg.BaseMessage.get hmg).1.iMainProtocol =
        GameHMsg.mainCode .fmZdqLogin := hmain
    dsimp only
    rw [if_pos hinner]
    exact congrArg (· ++ [.log "Unknow MSG(Main)"]) hevents
  · refine ⟨_, .unknownMain hmain, ?_⟩
    rw [if_neg hmain]
    have hinner : (GameHMsg.BaseMessage.get hmg).1.iMainProtocol ≠
        GameHMsg.mainCode .fmZdqLogin := hmain
    dsimp only
    rw [if_neg hinner]

/-! ## Batches -/

/-- The message has the effect that its protocol numbers select, and no other. -/
def OneEffect (logic : UProNetLogic δ) (hmg : HMessage) (dealt : DealtMsg δ) : Prop :=
  ∃ e, EffectOf logic hmg e ∧ dealt.events = [e]

/-- The selected effect, and the report of an unknown main protocol behind it. -/
def TwoEffects (logic : UProNetLogic δ) (hmg : HMessage) (dealt : DealtMsg δ) : Prop :=
  ∃ e, EffectOf logic hmg e ∧ dealt.events = [e, .log "Unknow MSG(Main)"]

/-- A message has its one effect exactly if it is no login message. -/
theorem oneEffect_dealOne_iff (junk : RecvJunk) (logic : UProNetLogic δ) (hmg : HMessage) :
    OneEffect logic hmg (logic.dealOne junk hmg) ↔
      mainOf hmg ≠ GameHMsg.mainCode .fmZdqLogin := by
  obtain ⟨e, heffect, hevents⟩ := dealOne_events junk logic hmg
  unfold OneEffect
  rw [hevents]
  unfold fallThrough
  constructor
  · rintro ⟨e', -, hone⟩ hmain
    rw [if_pos hmain] at hone
    cases hone
  · intro hmain
    rw [if_neg hmain]
    exact ⟨e, heffect, rfl⟩

/-- A login message is reported as unknown after its effect. -/
theorem twoEffects_dealOne (junk : RecvJunk) (logic : UProNetLogic δ) {hmg : HMessage}
    (hmain : mainOf hmg = GameHMsg.mainCode .fmZdqLogin) :
    TwoEffects logic hmg (logic.dealOne junk hmg) := by
  obtain ⟨e, heffect, hevents⟩ := dealOne_events junk logic hmg
  rw [fallThrough, if_pos hmain] at hevents
  exact ⟨e, heffect, hevents⟩

/-- With both delegates bound, each message of a batch has exactly its one effect, in
order, if and only if none is of the login main protocol; those have the report of an
unknown main protocol besides. -/
theorem one_effect_iff (junk : RecvJunk) (onlogin onregister : δ) (unbound : UProNetLogic δ)
    (vecRecvMsg : List HMessage) :
    let logic := (unbound.onLogin onlogin).onRegister onregister
    (List.Forall₂ (OneEffect logic) vecRecvMsg (logic.dealMsg junk vecRecvMsg) ↔
        ∀ hmg ∈ vecRecvMsg, mainOf hmg ≠ GameHMsg.mainCode .fmZdqLogin) ∧
      List.Forall₂ (fun hmg dealt =>
          if mainOf hmg = GameHMsg.mainCode .fmZdqLogin then TwoEffects logic hmg dealt
          else OneEffect logic hmg dealt)
        vecRecvMsg (logic.dealMsg junk vecRecvMsg) := by
  intro logic
  unfold UProNetLogic.dealMsg
  rw [List.forall₂_map_right_iff, List.forall₂_map_right_iff, List.forall₂_same,
    List.forall₂_same]
  constructor
  · simp only [oneEffect_dealOne_iff]
  · intro hmg _
    split
    · rename_i hmain
      exact twoEffects_dealOne junk logic hmain
    · rename_i hmain
      exact (oneEffect_dealOne_iff junk logic hmg).mpr hmain

/-- A login answer makes `DealMsg` report an unknown main protocol as well. -/
theorem not_one_effect :
    ¬ ∀ (junk : RecvJunk) (onlogin onregister : ℕ) (unbound : UProNetLogic ℕ)
      (vecRecvMsg : List HMessage),
      List.Forall₂ (OneEffect ((unbound.onLogin onlogin).onRegister onregister)) vecRecvMsg
        (((unbound.onLogin onlogin).onRegister onregister).dealMsg junk vecRecvMsg) := by
  intro hclaim
  have hone := hclaim ⟨0, 0⟩ 1 2 UProNetLogic.newObject [loginAnswer]
  unfold UProNetLogic.dealMsg at hone
  rw [List.forall₂_map_right_iff, List.forall₂_same] at hone
  have hmain := (oneEffect_dealOne_iff _ _ _).mp (hone loginAnswer (by simp))
  exact hmain isLoginAnswer_loginAnswer.1

/-! ## Orders of calls -/

/-- `Execute` of a delegate that is not bound. -/
def UnboundExecute : ClientEvent δ → Prop
  | .onRegist delegate _ => delegate = none
  | .onLogin delegate _ => delegate = none
  | .log _ => False

/-- The output is not the execution of an unbound delegate. -/
def ExecutesBound (o : ClientOutput δ) : Prop := ∀ e, o = .event e → ¬ UnboundExecute e

/-- The report executes no delegate. -/
theorem not_unbound_fallThrough (hmg : HMessage) :
    ∀ e ∈ (fallThrough hmg : List (ClientEvent δ)), ¬ UnboundExecute e := by
  intro e he
  unfold fallThrough at he
  split at he
  · rw [List.mem_singleton] at he
    subst he
    exact id
  · cases he

/-- A selected effect executes an unbound delegate only if the message is an answer for
that delegate. -/
theorem EffectOf.not_unbound_iff {logic : UProNetLogic δ} {hmg : HMessage} {e : ClientEvent δ}
    (heffect : EffectOf logic hmg e) :
    ¬ UnboundExecute e ↔
      (IsRegisterAnswer hmg → logic.onRegistDelegate ≠ none) ∧
        (IsLoginAnswer hmg → logic.onLoginDelegate ≠ none) := by
  have hcodes : GameHMsg.otherSubCode .zs2cARegister ≠ GameHMsg.subCode .zs2cALogin := by decide
  cases heffect with
  | register registOK h =>
    have hother : ¬ IsLoginAnswer hmg := fun hlogin => hcodes (h.2.symm.trans hlogin.2)
    simp [UnboundExecute, h, hother]
  | login loginOK h =>
    have hother : ¬ IsRegisterAnswer hmg := fun hregister => hcodes (hregister.2.symm.trans h.2)
    simp [UnboundExecute, h, hother]
  | unknownSub hmain hregister hlogin =>
    simp [UnboundExecute, IsRegisterAnswer, IsLoginAnswer, hregister, hlogin]
  | unknownMain hmain => simp [UnboundExecute, IsRegisterAnswer, IsLoginAnswer, hmain]

/-- A message executes bound delegates only, if the one that it asks for is bound. -/
theorem dealOne_bound_iff (junk : RecvJunk) (logic : UProNetLogic δ) (hmg : HMessage) :
    (∀ e ∈ (logic.dealOne junk hmg).events, ¬ UnboundExecute e) ↔
      (IsRegisterAnswer hmg → logic.onRegistDelegate ≠ none) ∧
        (IsLoginAnswer hmg → logic.onLoginDelegate ≠ none) := by
  obtain ⟨e, heffect, hevents⟩ := dealOne_events junk logic hmg
  rw [hevents, List.forall_mem_cons, heffect.not_unbound_iff]
  exact and_iff_left (not_unbound_fallThrough hmg)

/-- What a batch asks of the delegates. -/
def NeedsOf (logic : UProNetLogic δ) (vecRecvMsg : List HMessage) : Prop :=
  ((∃ hmg ∈ vecRecvMsg, IsRegisterAnswer hmg) → logic.onRegistDelegate ≠ none) ∧
    ((∃ hmg ∈ vecRecvMsg, IsLoginAnswer hmg) → logic.onLoginDelegate ≠ none)

/-- So does a batch, if all that its messages ask for are bound. -/
theorem dealMsg_bound_iff (junk : RecvJunk) (logic : UProNetLogic δ)
    (vecRecvMsg : List HMessage) :
    (∀ o ∈ (((logic.dealMsg junk vecRecvMsg).flatMap DealtMsg.events).map
        ClientOutput.event : List (ClientOutput δ)), ExecutesBound o) ↔
      NeedsOf logic vecRecvMsg := by
  unfold UProNetLogic.dealMsg NeedsOf ExecutesBound
  rw [List.forall_mem_map, List.flatMap_map]
  simp only [ClientOutput.event.injEq, forall_eq', List.forall_mem_flatMap]
  constructor
  · intro h
    constructor
    · rintro ⟨hmg, hmem, hanswer⟩
      exact ((dealOne_bound_iff junk logic hmg).mp (h hmg hmem)).1 hanswer
    · rintro ⟨hmg, hmem, hanswer⟩
      exact ((dealOne_bound_iff junk logic hmg).mp (h hmg hmem)).2 hanswer
  · rintro ⟨hregister, hlogin⟩ hmg hmem
    rw [dealOne_bound_iff]
    exact ⟨fun hanswer => hregister ⟨hmg, hmem, hanswer⟩,
      fun hanswer => hlogin ⟨hmg, hmem, hanswer⟩⟩

/-- The calls that were made say which delegates are bound. -/
structure BoundBy (before : List (ClientCall δ)) (logic : UProNetLogic δ) : Prop where
  onLogin : logic.onLoginDelegate ≠ none ↔ ∃ onlogin, .onLogin onlogin ∈ before
  onRegister : logic.onRegistDelegate ≠ none ↔ ∃ onregister, .onRegister onregister ∈ before

/-- A batch with an answer for a delegate comes after the call that binds it. -/
def AnswersExpected (before : List (ClientCall δ)) : ClientCall δ → Prop
  | .dealMsg _ vecRecvMsg =>
    ((∃ hmg ∈ vecRecvMsg, IsRegisterAnswer hmg) → ∃ onregister, .onRegister onregister ∈ before) ∧
      ((∃ hmg ∈ vecRecvMsg, IsLoginAnswer hmg) → ∃ onlogin, .onLogin onlogin ∈ before)
  | _ => True

section Runs

variable {before : List (ClientCall δ)} {logic logic' : UProNetLogic δ} {call : ClientCall δ}
  {o : List (ClientOutput δ)}

/-- Only the two binding calls change the object, each its own delegate. -/
theorem BoundBy.step (h : BoundBy before logic)
    (hstep : UProNetLogic.step logic call = some (logic', o)) :
    BoundBy (before ++ [call]) logic' := by
  cases call <;>
    (simp only [UProNetLogic.step, Option.some.injEq, Prod.mk.injEq] at hstep
     obtain ⟨rfl, -⟩ := hstep
     constructor)
  case onLogin.onLogin onlogin => simp [UProNetLogic.onLogin]
  case onLogin.onRegister onlogin => simp [UProNetLogic.onLogin, h.onRegister]
  case onRegister.onLogin onregister => simp [UProNetLogic.onRegister, h.onLogin]
  case onRegister.onRegister onregister => simp [UProNetLogic.onRegister]
  all_goals simp [h.onLogin, h.onRegister]

/-- One call executes only bound delegates exactly if it was expected. -/
theorem step_bound_iff (h : BoundBy before logic)
    (hstep : UProNetLogic.step logic call = some (logic', o)) :
    (∀ x ∈ o, ExecutesBound x) ↔ AnswersExpected before call := by
  cases call with
  | dealMsg junk vecRecvMsg =>
    simp only [UProNetLogic.step, Option.some.injEq, Prod.mk.injEq] at hstep
    obtain ⟨-, rfl⟩ := hstep
    rw [dealMsg_bound_iff, NeedsOf, h.onLogin, h.onRegister]
    rfl
  | _ =>
    simp only [UProNetLogic.step, Option.some.injEq, Prod.mk.injEq] at hstep
    obtain ⟨-, rfl⟩ := hstep
    refine iff_of_true ?_ trivial
    intro x hx e hevent
    subst hevent
    simp at hx

end Runs

/-- The object between calls, on a run from the new object. -/
theorem boundBy_run {h : List (ClientCall δ × List (ClientOutput δ))} {logic : UProNetLogic δ}
    (hr : Runs UProNetLogic.step UProNetLogic.newObject h logic) : BoundBy (inputs h) logic := by
  refine hr.invariant (fun h logic => BoundBy (inputs h) logic) ?_ ?_
  · constructor <;> simp [UProNetLogic.newObject]
  · intro h u call v o _ hbound hstep
    rw [inputs_append]
    exact hbound.step hstep

/-- In every order of the calls, `DealMsg` executes only delegates that are bound exactly if
each batch with an answer for a delegate is dealt with after the delegate was bound. -/
theorem callbacks_bound_iff {h : List (ClientCall δ × List (ClientOutput δ))}
    {logic : UProNetLogic δ} (hr : Runs UProNetLogic.step UProNetLogic.newObject h logic) :
    (∀ o ∈ outputs h, ExecutesBound o) ↔ AtEach AnswersExpected (inputs h) := by
  refine hr.invariant
    (fun h _ => (∀ o ∈ outputs h, ExecutesBound o) ↔ AtEach AnswersExpected (inputs h)) ?_ ?_
  · simp
  · intro h u call v o hr hiff hstep
    rw [outputs_append, List.forall_mem_append, inputs_append, hiff, inputs_cons, inputs_nil,
      atEach_concat, outputs_cons, outputs_nil, List.append_nil]
    apply and_congr_right
    intro _
    exact step_bound_iff (boundBy_run hr) hstep

end Message

/-- A login that is answered after `OnLogin`. -/
theorem callbacks_bound_login :
    ∃ h : List (ClientCall ℕ × List (ClientOutput ℕ)),
      inputs h = [.onLogin 1, .gameLogicLogin ⟨⟨fun _ => 0, 0, 0⟩, 0⟩ [65] [66],
        .dealMsg ⟨0, 0⟩ [loginAnswer]] ∧
      ((∀ o ∈ outputs h, ExecutesBound o) ↔ AtEach AnswersExpected (inputs h)) := by
  have hexec : (exec UProNetLogic.step (UProNetLogic.newObject : UProNetLogic ℕ)
      [.onLogin 1, .gameLogicLogin ⟨⟨fun _ => 0, 0, 0⟩, 0⟩ [65] [66],
        .dealMsg ⟨0, 0⟩ [loginAnswer]]).isSome = true := rfl
  obtain ⟨h, _, hr, hin⟩ := exists_runs_of_exec hexec
  exact ⟨h, hin, callbacks_bound_iff hr⟩

/-- A login answer that arrives before anything was bound. -/
theorem not_callbacks_bound :
    ¬ ∀ (h : List (ClientCall ℕ × List (ClientOutput ℕ))) (logic : UProNetLogic ℕ),
      Runs UProNetLogic.step UProNetLogic.newObject h logic →
        ∀ o ∈ outputs h, ExecutesBound o := by
  intro hclaim
  let logic : UProNetLogic ℕ := UProNetLogic.newObject
  have hstep : logic.step (.dealMsg ⟨0, 0⟩ [loginAnswer]) = some (logic, _) := rfl
  have hbound := hclaim _ _ (Runs.single hstep)
  have hneeds := (dealMsg_bound_iff ⟨0, 0⟩ logic [loginAnswer]).mp
    (by simpa [outputs] using hbound)
  exact hneeds.2 ⟨loginAnswer, by simp, isLoginAnswer_loginAnswer⟩ rfl

end ShootGame.Analysis
