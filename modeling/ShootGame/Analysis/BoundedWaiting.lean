import ShootGame.Analysis.MessageFlow
import ShootGame.Library.Progress

/-!
# How long a message waits

The main loop takes the whole queue at once, so a message that waits is in the batch that
is being dealt with, or will be in the next one.  `turns` counts the steps of the loop
that this takes; the steps of the network thread in between, and the messages they queue,
make no difference (`dealt_iff_turns`).
-/

set_option autoImplicit false

namespace ShootGame.Analysis

open ShootGame.Library ShootGame.Model

/-- The steps of the main loop that deal with the next `n` messages. -/
def turns (s : Server) (n : ℕ) : ℕ :=
  if n = 0 then 0
  else
    match s.pc with
    | .getAllMsg => n + 2
    | .getvecMsg vecTmpMsgList => if n ≤ vecTmpMsgList.length then n + 1 else n + 4
    | .dealMsg i => if n ≤ s.msgLogic.vecAllClientMsg.length - i then n else n + 3

def isMainStep : Event → Bool
  | .mainStep _ _ => true
  | _ => false

def isDealt : Effect → Bool
  | .dealt _ _ => true
  | _ => false

/-- A message is dealt with in a step of its own. -/
theorem turns_bounds (s : Server) (n : ℕ) : n ≤ turns s n ∧ turns s n ≤ n + 4 := by
  unfold turns
  split_ifs with hn
  · omega
  · split <;> try split_ifs
    all_goals omega

/-- Only for no message no step is needed. -/
theorem turns_eq_zero_iff (s : Server) (n : ℕ) : turns s n = 0 ↔ n = 0 := by
  constructor
  · intro hzero
    have hle := (turns_bounds s n).1
    omega
  · intro hzero
    exact if_pos hzero

/-- As many effects deal with a message as there are messages dealt with. -/
theorem countP_isDealt (o : List Effect) : o.countP isDealt = (o.filterMap dealtMsg).length := by
  rw [List.length_filterMap_eq_countP]
  congr 1
  funext eff
  cases eff <;> rfl

/-- A main step takes one off the steps that are needed, for the messages left after it; another
step takes none. -/
theorem turns_step {s t : Server} {e : Event} {o : List Effect} (hflow : FlowInv s)
    (h : Stepped s e t o) {n : ℕ} (hpos : 0 < n) (hn : n ≤ (waiting s).length) :
    turns s n = turns t (n - (o.filterMap dealtMsg).length) + if isMainStep e then 1 else 0 := by
  cases h with
  -- the network thread does not move the main loop
  | accept error junk session rest haccepting =>
    rfl
  | read object error data junk session hreading hlen =>
    rw [List.filterMap_append, filterMap_erasedByRead dealtMsg fun _ _ _ => rfl]
    rfl
  | fetch junk outcome hpc =>
    -- the queue holds all that waits
    have hqueue : n ≤ s.network.vecAllClientMsg.length := by simpa [waiting, hpc] using hn
    simp [turns, hpc, hpos.ne', isMainStep, hqueue]
  | hand junk outcome vecTmpMsgList hpc =>
    by_cases hle : n ≤ vecTmpMsgList.length
    · simp [turns, hpc, hpos.ne', isMainStep, hle]
    · simp [turns, hpc, hpos.ne', isMainStep, hle]
  | finish junk outcome i hpc hdone =>
    have hend := List.getElem?_eq_none_iff.mp hdone
    have hleft : ¬ n ≤ s.msgLogic.vecAllClientMsg.length - i := by omega
    simp [turns, hpc, hpos.ne', isMainStep, hleft]
  | deal junk outcome i hmg hpc hmsg =>
    have hlt := (List.getElem?_eq_some_iff.mp hmsg).1
    obtain ⟨-, hdealt⟩ := hflow.filterMap_dealStep hpc hmsg junk outcome
    obtain ⟨net, halted, o, hdeal, heq⟩ := hflow.dealStep_eq hpc hmsg junk outcome
    rw [hdealt, heq, List.length_singleton]
    simp only [turns, hpc, List.length_set, isMainStep, if_true]
    split_ifs <;> omega

/-- The main loop works off what waits. -/
theorem worksOff_server : WorksOff Server.step FlowInv (fun s => (waiting s).length) turns
    isMainStep isDealt where
  inv hflow hstep := flowInv_step hflow (stepped_of_step hstep).2
  free := turns_eq_zero_iff
  left {s t e o} hflow hstep := by
    have hconserved := congrArg List.length (waiting_step hflow (stepped_of_step hstep).2)
    rw [List.length_append, List.length_append] at hconserved
    rw [countP_isDealt]
    omega
  next hflow hstep hpos hn := by
    rw [countP_isDealt]
    exact turns_step hflow (stepped_of_step hstep).2 hpos hn

/-- Whatever the network thread does meanwhile, the first `n` messages that wait have been
dealt with, in their order, exactly when the main loop has taken `turns s n` steps, which
are at least as many as messages and at most four more. -/
theorem dealt_iff_turns {rand : UInt32} {h₀ h : List (Event × List Effect)} {s t : Server}
    (hreach : ServerRun rand h₀ s) (hrun : Runs Server.step s h t) {n : ℕ}
    (hn : n ≤ (waiting s).length) :
    ((waiting s).take n <+: (outputs h).filterMap dealtMsg ↔
        turns s n ≤ (inputs h).countP isMainStep) ∧
      n ≤ turns s n ∧ turns s n ≤ n + 4 := by
  have hflow := flowInv_of_run hreach
  have hdone := worksOff_server.done_iff hrun hflow hn
  rw [countP_isDealt] at hdone
  refine ⟨?_, turns_bounds s n⟩
  rw [← hdone]
  -- what is dealt with comes off the front of what waits and is queued
  rw [take_prefix_iff (waiting_run hflow hrun) hn]

/-- A client sends a byte, and the main loop takes three steps. -/
theorem dealt_iff_turns_one_byte :
    ∃ h₀ s h t, ServerRun 7 h₀ s ∧
      inputs h₀ = [.acceptDone false 5, .readDone 0 false [1] zeroed] ∧
      Runs Server.step s h t ∧
      inputs h = List.replicate 3 (.mainStep zeroedDeal (.accepts 0)) ∧
      ((waiting s).take 1 <+: (outputs h).filterMap dealtMsg ↔
        turns s 1 ≤ (inputs h).countP isMainStep) ∧
      1 ≤ turns s 1 ∧ turns s 1 ≤ 1 + 4 := by
  obtain ⟨h₀, s, hexec, hlen, hmore⟩ : ∃ h₀ s,
      exec Server.step (Server.start 7)
        [.acceptDone false 5, .readDone 0 false [1] zeroed] = some (s, h₀) ∧
      1 ≤ (waiting s).length ∧
      (exec Server.step s
        (List.replicate 3 (.mainStep zeroedDeal (.accepts 0)))).isSome = true :=
    ⟨_, _, rfl, le_rfl, rfl⟩
  obtain ⟨hreach, hin₀⟩ := runs_of_exec hexec
  obtain ⟨h, t, hrun, hin⟩ := exists_runs_of_exec hmore
  exact ⟨h₀, s, h, t, hreach, hin₀, hrun, hin, dealt_iff_turns hreach hrun hlen⟩

end ShootGame.Analysis
