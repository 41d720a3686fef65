import ShootGame.Model.ClientConnection

/-!
# Connections that outlive their object

At most one object lives at a time, and `m_pNetLogic` is never left pointing to one that
does not.  The destructor does not disconnect, though, and a new object does not know that
it should: `connections_accounted` says where every connection that was opened has gone.
-/

set_option autoImplicit false

namespace ShootGame.Analysis

open ShootGame.Library ShootGame.Model

/-- A connection was opened. -/
def opensConnection : NetLogicEffect → Bool
  | .connect _ _ ok => ok
  | _ => false

def closesConnection : NetLogicEffect → Bool
  | .disConnect => true
  | _ => false

/-- An object was destroyed that had a connection. -/
def abandonsConnection : NetLogicEffect → Bool
  | .destroyed _ isConneted => isConneted
  | _ => false

/-- The connections that the objects that live know of. -/
def connectedLive (s : NetLogicObjects) : ℕ := s.live.countP s.isConneted

/-- What holds in every state that is reached. -/
structure LifeInv (effects : List NetLogicEffect) (s : NetLogicObjects) : Prop where
  live : s.live = s.pNetLogic.toList
  fresh : ∀ object ∈ s.live, object < s.created
  accounted : effects.countP opensConnection =
    effects.countP closesConnection + effects.countP abandonsConnection + connectedLive s

namespace LifeInv

variable {effects : List NetLogicEffect} {s : NetLogicObjects}

/-- `GetInstance` adds at most an object that is alive. -/
theorem getInstance (h : LifeInv effects s) :
    LifeInv (effects ++ s.getInstance.2) s.getInstance.1 := by
  have hlive := h.live
  have haccounted := h.accounted
  unfold NetLogicObjects.getInstance
  cases hp : s.pNetLogic with
  | some object =>
    refine ⟨hlive, h.fresh, ?_⟩
    simpa [opensConnection, closesConnection, abandonsConnection] using haccounted
  | none =>
    rw [hp, Option.toList_none] at hlive
    refine ⟨?_, ?_, ?_⟩
    · simp [NetLogicObjects.setConneted, hlive]
    · simp [NetLogicObjects.setConneted, hlive]
    · rw [connectedLive, hlive] at haccounted
      simpa [opensConnection, closesConnection, abandonsConnection, connectedLive,
        NetLogicObjects.setConneted, hlive] using haccounted

/-- The one object that lives. -/
theorem eq_singleton (h : LifeInv effects s) {object : ℕ} (hmem : object ∈ s.live) :
    s.live = [object] ∧ s.pNetLogic = some object := by
  have hlive := h.live
  cases hp : s.pNetLogic with
  | none =>
    rw [hlive, hp] at hmem
    cases hmem
  | some other =>
    rw [hp, Option.toList_some] at hlive
    rw [hlive, List.mem_singleton] at hmem
    exact ⟨by rw [hlive, hmem], by rw [hmem]⟩

/-- `Connect` on a live object adds a call of the library and a connection. -/
theorem connect (h : LifeInv effects s) {object : ℕ} (hmem : object ∈ s.live) (ini : IpConfig)
    (junk : Int) (ok : Bool) :
    LifeInv (effects ++ (s.connect object ini junk ok).2) (s.connect object ini junk ok).1 := by
  obtain ⟨hlive, -⟩ := h.eq_singleton hmem
  refine ⟨h.live, h.fresh, ?_⟩
  have haccounted := h.accounted
  rw [connectedLive, hlive] at haccounted
  unfold NetLogicObjects.connect connectedLive
  -- what was held is closed, and what is opened is held
  cases hconnected : s.isConneted object <;> cases ok <;>
    simp [hconnected, hlive, NetLogicObjects.setConneted, opensConnection, closesConnection,
      abandonsConnection, List.countP_cons] at haccounted ⊢ <;> omega

/-- The destructor of a live object disconnects. -/
theorem destroy (h : LifeInv effects s) {object : ℕ} (hmem : object ∈ s.live) :
    LifeInv (effects ++ (s.destroy object).2) (s.destroy object).1 := by
  obtain ⟨hlive, -⟩ := h.eq_singleton hmem
  have haccounted := h.accounted
  rw [connectedLive, hlive] at haccounted
  unfold NetLogicObjects.destroy
  refine ⟨?_, ?_, ?_⟩
  · simp [hlive]
  · simp [hlive]
  · cases hconnected : s.isConneted object <;>
      simp [hconnected, hlive, connectedLive, opensConnection, closesConnection,
        abandonsConnection] at haccounted ⊢ <;> omega

end LifeInv

/-- The invariant in every run. -/
theorem lifeInv_of_run {h : List (NetLogicCall × List NetLogicEffect)} {s : NetLogicObjects}
    (hrun : NetLogicRun h s) : LifeInv (outputs h) s := by
  apply hrun.invariant fun h s => LifeInv (outputs h) s
  · exact ⟨rfl, by simp [NetLogicObjects.start], rfl⟩
  · intro h u call v o _ hinv hstep
    rw [outputs_append, outputs_cons, outputs_nil, List.append_nil]
    cases call with
    | getInstance =>
      obtain ⟨rfl, rfl⟩ := Prod.mk.inj (Option.some.inj hstep)
      exact hinv.getInstance
    | connect object ip port ini junk ok =>
      simp only [NetLogicObjects.step] at hstep
      split_ifs at hstep with hmem
      obtain ⟨rfl, rfl⟩ := Prod.mk.inj (Option.some.inj hstep)
      exact hinv.connect hmem ini junk ok
    | destroy object =>
      simp only [NetLogicObjects.step] at hstep
      split_ifs at hstep with hmem
      obtain ⟨rfl, rfl⟩ := Prod.mk.inj (Option.some.inj hstep)
      exact hinv.destroy hmem

/-- Over every run the pointer stands for the one live object, if there is one, and the
connections opened are those closed, those whose object was destroyed before it closed them,
and the one that the live object holds; so none is left behind exactly if no object was
destroyed with a connection. -/
theorem connections_accounted {h : List (NetLogicCall × List NetLogicEffect)}
    {s : NetLogicObjects} (hrun : NetLogicRun h s) :
    s.live = s.pNetLogic.toList ∧
      (outputs h).countP opensConnection = (outputs h).countP closesConnection +
        (outputs h).countP abandonsConnection + connectedLive s ∧
      ((outputs h).countP opensConnection = (outputs h).countP closesConnection + connectedLive s ↔
        ∀ object, .destroyed object true ∉ outputs h) := by
  have hinv := lifeInv_of_run hrun
  have haccounted := hinv.accounted
  have hnone : (outputs h).countP abandonsConnection = 0 ↔
      ∀ object, .destroyed object true ∉ outputs h := by
    rw [List.countP_eq_zero]
    constructor
    · intro hnone object hmem
      exact hnone _ hmem rfl
    · intro hnone eff hmem habandons
      cases eff with
      | destroyed object isConneted =>
        obtain rfl : isConneted = true := habandons
        exact hnone object hmem
      | returned object => cases habandons
      | disConnect => cases habandons
      | connect ip port ok => cases habandons
  refine ⟨hinv.live, haccounted, ?_⟩
  rw [← hnone]
  omega

/-- A connected object is collected, and the next one connects too. -/
theorem connections_accounted_collected :
    ∃ h s, NetLogicRun h s ∧
      inputs h = [.getInstance, .connect 0 [] 80 ⟨some [49], some 2300⟩ 0 true, .destroy 0,
        .getInstance, .connect 1 [] 80 ⟨some [49], none⟩ 7 true] ∧
      s.live = s.pNetLogic.toList ∧
      (outputs h).countP opensConnection = (outputs h).countP closesConnection +
        (outputs h).countP abandonsConnection + connectedLive s ∧
      ((outputs h).countP opensConnection = (outputs h).countP closesConnection + connectedLive s ↔
        ∀ object, .destroyed object true ∉ outputs h) := by
  have hexec : (exec NetLogicObjects.step NetLogicObjects.start
      [.getInstance, .connect 0 [] 80 ⟨some [49], some 2300⟩ 0 true, .destroy 0,
        .getInstance, .connect 1 [] 80 ⟨some [49], none⟩ 7 true]).isSome = true := rfl
  obtain ⟨h, s, hrun, hin⟩ := exists_runs_of_exec hexec
  exact ⟨h, s, hrun, hin, connections_accounted hrun⟩

end ShootGame.Analysis
