import ShootGame.Model.MessageObjects

/-!
# Whose buffer a message object uses

`OwnBuffers` says that the pointer of every live object designates the object's own
array.  The constructors establish it and the member functions keep it; a copy takes the
pointer of its source, so it breaks it unless an object is assigned to itself
(`ownBuffers_step_iff`).

While it holds the objects are plain values: `ObjectOp.valueStep` has no pointer, and
answers the same (`simulated_by_values`).

This is about the copies and the member functions as far as they keep to the arrays.  A put
that writes behind `m_byBuffer` overwrites the pointer itself; which puts do is said where
the encoder of the client is looked at (`client_writes_inside_iff`).
-/

set_option autoImplicit false

namespace ShootGame.Analysis

open ShootGame.Library ShootGame.Model

/-! ## Messages as values -/

/-- The operations on messages without a pointer: a copy has the bytes of its source as
they are at that time, and a member function and `GetData` see the same bytes. -/
def valueStep (m : ℕ → Option HMessage) :
    ObjectOp → Option ((ℕ → Option HMessage) × List ObjectResult)
  | .new self junk =>
    match m self with
    | none => some (Function.update m self (some (HMessage.new junk)), [])
    | some _ => none
  | .ofData self junk data =>
    match m self with
    | none => some (Function.update m self (some (HMessage.ofData junk data)), [])
    | some _ => none
  | .copyOf self source junk =>
    match m self, m source with
    | none, some hmg =>
      some (Function.update m self (some (GameHMsg.copyFrom hmg (HMessage.new junk))), [])
    | _, _ => none
  | .assign self source =>
    match m self, m source with
    | some target, some hmg =>
      some (Function.update m self (some (GameHMsg.copyFrom hmg target)), [])
    | _, _ => none
  | .call self op =>
    match m self with
    | some hmg =>
      some (Function.update m self (some (op.gameRun hmg).2), [.result (op.gameRun hmg).1])
    | none => none
  | .getData self iLen =>
    match m self with
    | some hmg => some (m, [.bytes (hmg.byBuffer.load 0 iLen)])
    | none => none
  | .destroy self =>
    match m self with
    | some _ => some (Function.update m self none, [])
    | none => none

/-! ## One step -/

/-- Every live object's `m_pData` designates its own `m_byBuffer`. -/
def OwnBuffers (objects : MsgObjects) : Prop :=
  ∀ a, objects.live a = true → (objects.place a).pData = a

/-- The operation copies one object to another. -/
def Copies : ObjectOp → Prop
  | .copyOf _ _ _ => True
  | .assign self source => self ≠ source
  | _ => False

namespace OwnBuffers

variable {objects : MsgObjects} {self : ℕ}

/-- An object built in a place is all that decides. -/
theorem build_iff (h : OwnBuffers objects) (object : MsgObject) :
    OwnBuffers (objects.build self object) ↔ object.pData = self := by
  constructor
  · intro hbuilt
    have hself := hbuilt self (by simp [MsgObjects.build])
    simpa [MsgObjects.build] using hself
  · intro hown a hlive
    by_cases ha : a = self
    · subst ha
      simpa [MsgObjects.build] using hown
    · simp only [MsgObjects.build, Function.update_of_ne ha] at hlive ⊢
      exact h a hlive

/-- A member function moves no pointer. -/
theorem writeThrough (h : OwnBuffers objects) (hmg : HMessage) :
    OwnBuffers (objects.writeThrough self hmg) := h

/-- An object that is gone needs no buffer. -/
theorem destroy (h : OwnBuffers objects) :
    OwnBuffers { objects with live := Function.update objects.live self false } := by
  intro a hlive
  by_cases ha : a = self
  · subst ha
    simp at hlive
  · simp only [Function.update_of_ne ha] at hlive
    exact h a hlive

/-- A member function of an object with its own buffer sees its own members. -/
theorem through_eq (h : OwnBuffers objects) (hlive : objects.live self = true) :
    objects.through self = (objects.place self).hmg := by
  unfold MsgObjects.through
  dsimp only
  rw [h self hlive]

/-- It changes no other object. -/
theorem writeThrough_hmg (h : OwnBuffers objects) (hlive : objects.live self = true)
    (hmg : HMessage) (a : ℕ) :
    ((objects.writeThrough self hmg).place a).hmg =
      if a = self then hmg else (objects.place a).hmg := by
  unfold MsgObjects.writeThrough
  dsimp only
  rw [h self hlive]
  split_ifs <;> rfl

end OwnBuffers

/-- A member function of an assigned object sees the bytes and the cursor of its source,
unless these bytes stood in its own array. -/
theorem through_assign {objects objects' : MsgObjects} {self source : ℕ}
    {o : List ObjectResult} (hother : (objects.place source).pData ≠ self)
    (hstep : ObjectOp.step objects (.assign self source) = some (objects', o)) :
    (objects'.through self).byBuffer = (objects.through source).byBuffer ∧
      (objects'.through self).iPos = (objects.through source).iPos := by
  obtain ⟨-, heffect⟩ := ObjectOp.step_eq_some_iff.mp hstep
  obtain ⟨rfl, rfl⟩ := Prod.mk.inj heffect
  simp [MsgObjects.through, MsgObjects.build, GameHMsg.copyFrom, Function.update_of_ne hother]

/-- Where every pointer designates its own buffer, a step keeps that exactly if it does
not copy one object to another. -/
theorem ownBuffers_step_iff {objects objects' : MsgObjects} {op : ObjectOp}
    {o : List ObjectResult} (h : OwnBuffers objects)
    (hstep : ObjectOp.step objects op = some (objects', o)) :
    OwnBuffers objects' ↔ ¬ Copies op := by
  obtain ⟨henabled, heffect⟩ := ObjectOp.step_eq_some_iff.mp hstep
  cases op with
  | new self junk =>
    obtain ⟨rfl, rfl⟩ := Prod.mk.inj heffect
    simp [h.build_iff, Copies]
  | ofData self junk data =>
    obtain ⟨rfl, rfl⟩ := Prod.mk.inj heffect
    simp [h.build_iff, Copies]
  | copyOf self source junk =>
    obtain ⟨rfl, rfl⟩ := Prod.mk.inj heffect
    -- the source is alive and the copy is not yet, so they differ
    have hne : source ≠ self := by
      rintro rfl
      exact absurd (henabled.1.symm.trans henabled.2) (by simp)
    rw [h.build_iff, h source henabled.2]
    exact iff_of_false hne (by simp [Copies])
  | assign self source =>
    obtain ⟨rfl, rfl⟩ := Prod.mk.inj heffect
    rw [h.build_iff, h source henabled.2]
    unfold Copies
    rw [not_ne_iff, eq_comm]
  | call self op =>
    obtain ⟨rfl, rfl⟩ := Prod.mk.inj heffect
    exact iff_of_true (h.writeThrough _) (by simp [Copies])
  | getData self iLen =>
    obtain ⟨rfl, rfl⟩ := Prod.mk.inj heffect
    exact iff_of_true h (by simp [Copies])
  | destroy self =>
    obtain ⟨rfl, rfl⟩ := Prod.mk.inj heffect
    exact iff_of_true h.destroy (by simp [Copies])

/-! ## Runs -/

/-- Every state of the run has the property. -/
def InEachState (P : MsgObjects → Prop) (place : ℕ → MsgObject)
    (h : List (ObjectOp × List ObjectResult)) : Prop :=
  ∀ h₁ h₂ objects, h = h₁ ++ h₂ → ObjectRun place h₁ objects → P objects

/-- Where no object is alive every one has its own buffer. -/
theorem ownBuffers_empty (place : ℕ → MsgObject) : OwnBuffers (MsgObjects.empty place) := by
  intro a hlive
  cases hlive

/-- A copy is what decides at each step, so it decides for the whole run. -/
theorem ownBuffers_inEachState_iff {place : ℕ → MsgObject}
    {h : List (ObjectOp × List ObjectResult)} {objects : MsgObjects}
    (hrun : ObjectRun place h objects) :
    InEachState OwnBuffers place h ↔ ∀ op ∈ inputs h, ¬ Copies op := by
  change Throughout ObjectOp.step OwnBuffers (MsgObjects.empty place) h ↔ _
  rw [← hrun.atEachStep_inputs_iff fun op => ¬ Copies op]
  apply hrun.throughout_iff OwnBuffers _ (fun _ => True) (ownBuffers_empty place)
  · intro op _
    trivial
  · intro u v op o hu _ hstep
    exact ownBuffers_step_iff hu hstep

/-! ## The objects as values -/

/-- The message that each live object is. -/
structure Values (objects : MsgObjects) (m : ℕ → Option HMessage) : Prop where
  own : OwnBuffers objects
  value : ∀ a, m a = if objects.live a = true then some (objects.place a).hmg else none

namespace Values

variable {objects : MsgObjects} {m : ℕ → Option HMessage} {self : ℕ}

/-- A live object has its members for a value. -/
theorem of_live (h : Values objects m) (hlive : objects.live self = true) :
    m self = some (objects.place self).hmg := by
  rw [h.value, if_pos hlive]

/-- A place without an object has no value. -/
theorem of_not_live (h : Values objects m) (hlive : objects.live self = false) :
    m self = none := by
  rw [h.value, if_neg (by simp [hlive])]

/-- An object that is built with its own buffer is a value. -/
theorem build (h : Values objects m) {object : MsgObject} (hown : object.pData = self) :
    Values (objects.build self object) (Function.update m self (some object.hmg)) where
  own := (h.own.build_iff object).mpr hown
  value a := by
    by_cases ha : a = self
    · subst ha
      simp [MsgObjects.build]
    · simp [MsgObjects.build, ha, h.value a]

/-- A member function changes the value of its object. -/
theorem writeThrough (h : Values objects m) (hlive : objects.live self = true) (hmg : HMessage) :
    Values (objects.writeThrough self hmg) (Function.update m self (some hmg)) where
  own := h.own.writeThrough hmg
  value a := by
    rw [h.own.writeThrough_hmg hlive]
    change _ = if objects.live a = true then _ else _
    by_cases ha : a = self
    · subst ha
      simp [hlive]
    · simp [ha, h.value a]

/-- An object that is gone has no value. -/
theorem destroy (h : Values objects m) :
    Values { objects with live := Function.update objects.live self false }
      (Function.update m self none) where
  own := h.own.destroy
  value a := by
    by_cases ha : a = self
    · subst ha
      simp
    · simp [ha, h.value a]

/-- A step without a copy is the step on values, with the same answer. -/
theorem step (h : Values objects m) {objects' : MsgObjects} {op : ObjectOp}
    {o : List ObjectResult} (hcopies : ¬ Copies op)
    (hstep : ObjectOp.step objects op = some (objects', o)) :
    ∃ m', valueStep m op = some (m', o) ∧ Values objects' m' := by
  obtain ⟨henabled, heffect⟩ := ObjectOp.step_eq_some_iff.mp hstep
  cases op with
  | new self junk =>
    obtain ⟨rfl, rfl⟩ := Prod.mk.inj heffect
    exact ⟨_, by simp only [valueStep, h.of_not_live henabled], h.build rfl⟩
  | ofData self junk data =>
    obtain ⟨rfl, rfl⟩ := Prod.mk.inj heffect
    exact ⟨_, by simp only [valueStep, h.of_not_live henabled], h.build rfl⟩
  | copyOf self source junk => exact absurd trivial hcopies
  | assign self source =>
    obtain ⟨rfl, rfl⟩ := Prod.mk.inj heffect
    obtain rfl : self = source := not_ne_iff.mp hcopies
    exact ⟨_, by simp only [valueStep, h.of_live henabled.1], h.build (h.own self henabled.1)⟩
  | call self op =>
    obtain ⟨rfl, rfl⟩ := Prod.mk.inj heffect
    rw [h.own.through_eq henabled]
    exact ⟨_, by simp only [valueStep, h.of_live henabled], h.writeThrough henabled _⟩
  | getData self iLen =>
    obtain ⟨rfl, rfl⟩ := Prod.mk.inj heffect
    exact ⟨m, by simp only [valueStep, h.of_live henabled], h⟩
  | destroy self =>
    obtain ⟨rfl, rfl⟩ := Prod.mk.inj heffect
    exact ⟨_, by simp only [valueStep, h.of_live henabled], h.destroy⟩

end Values

/-- Without copies the objects answer as values do. -/
theorem simulated_by_values {place : ℕ → MsgObject} {h : List (ObjectOp × List ObjectResult)}
    {objects : MsgObjects} (hrun : ObjectRun place h objects)
    (hcopies : ∀ op ∈ inputs h, ¬ Copies op) : ∃ m, Runs valueStep (fun _ => none) h m := by
  have hstart : Values (MsgObjects.empty place) fun _ => none :=
    ⟨ownBuffers_empty place, fun a => by simp [MsgObjects.empty]⟩
  obtain ⟨m, hm, -⟩ := hrun.simulated Values (fun op => ¬ Copies op) hstart hcopies
    fun hrel hadmitted hstep => hrel.step hadmitted hstep
  exact ⟨m, hm⟩

/-- Every live object uses its own buffer in every state of a run exactly if the run
never copies one object to another, and then the objects answer as values do. -/
theorem own_buffers_iff {place : ℕ → MsgObject} {h : List (ObjectOp × List ObjectResult)}
    {objects : MsgObjects} (hrun : ObjectRun place h objects) :
    (InEachState OwnBuffers place h ↔ ∀ op ∈ inputs h, ¬ Copies op) ∧
      ((∀ op ∈ inputs h, ¬ Copies op) → ∃ m, Runs valueStep (fun _ => none) h m) :=
  ⟨ownBuffers_inEachState_iff hrun, simulated_by_values hrun⟩

/-- Two messages, one of them assigned to itself and one built again in its place. -/
theorem own_buffers_two :
    ∃ h objects, ObjectRun (fun _ => ⟨HMessage.new ⟨fun _ => 0, 0, 0⟩, 0⟩) h objects ∧
      inputs h = [.new 0 ⟨fun _ => 0, 0, 0⟩, .ofData 1 ⟨fun _ => 0, 0, 0⟩ [65],
        .call 0 (.put (.string [66])), .assign 1 1, .getData 0 3, .destroy 0,
        .new 0 ⟨fun _ => 0, 0, 0⟩, .call 1 .getByte] ∧
      (InEachState OwnBuffers (fun _ => ⟨HMessage.new ⟨fun _ => 0, 0, 0⟩, 0⟩) h ↔
        ∀ op ∈ inputs h, ¬ Copies op) ∧
      ((∀ op ∈ inputs h, ¬ Copies op) → ∃ m, Runs valueStep (fun _ => none) h m) := by
  have hexec : (exec ObjectOp.step
      (MsgObjects.empty fun _ => ⟨HMessage.new ⟨fun _ => 0, 0, 0⟩, 0⟩)
      [.new 0 ⟨fun _ => 0, 0, 0⟩, .ofData 1 ⟨fun _ => 0, 0, 0⟩ [65],
        .call 0 (.put (.string [66])), .assign 1 1, .getData 0 3, .destroy 0,
        .new 0 ⟨fun _ => 0, 0, 0⟩, .call 1 .getByte]).isSome = true := rfl
  obtain ⟨h, objects, hrun, hin⟩ := exists_runs_of_exec hexec
  exact ⟨h, objects, hrun, hin, own_buffers_iff hrun⟩

/-- A copy has the bytes of the array it was made from. -/
theorem copyFrom_byBuffer (source target : HMessage) {i : Int} (hlo : 0 ≤ i)
    (hhi : i < GameHMsg.bufferSize) :
    (GameHMsg.copyFrom source target).byBuffer i = source.byBuffer i := by
  have hload := Memory.load_getElem? source.byBuffer 0 GameHMsg.bufferSize i.toNat (by omega)
  change target.byBuffer.store 0 (source.byBuffer.load 0 GameHMsg.bufferSize) i = _
  rw [Memory.store_apply_inside _ hlo (by simpa using hhi), List.getD_eq_getElem?_getD, sub_zero,
    hload, Option.getD_some, zero_add, Int.toNat_of_nonneg hlo]

/-- A copy has the cursor of its source. -/
theorem copyFrom_iPos (source target : HMessage) :
    (GameHMsg.copyFrom source target).iPos = source.iPos := rfl

/-- A received message is copied and destroyed, and the next one is built in its place. -/
def reusedBuffer : List (ObjectOp × List ObjectResult) :=
  [(.ofData 1 ⟨fun _ => 0, 0, 0⟩ [65], []), (.new 0 ⟨fun _ => 0, 0, 0⟩, []), (.assign 0 1, []),
    (.destroy 1, []), (.ofData 1 ⟨fun _ => 0, 0, 0⟩ [66], [])]

/-- The pointer of the copy is not its own, and the copy reads the bytes of the next
message. -/
theorem not_own_buffers :
    (¬ ∀ place h objects, ObjectRun place h objects → InEachState OwnBuffers place h) ∧
      ¬ ∀ place h objects, ObjectRun place h objects →
        ∃ m, Runs valueStep (fun _ => none) h m := by
  have hexec : (exec ObjectOp.step
      (MsgObjects.empty fun _ => ⟨HMessage.new ⟨fun _ => 0, 0, 0⟩, 0⟩)
      (inputs reusedBuffer ++ [.call 0 .getByte])).map Prod.snd =
        some (reusedBuffer ++ [(.call 0 .getByte, [.result (.byte 66)])]) := rfl
  obtain ⟨_, objects, hrun, -, rfl⟩ := exists_runs_of_exec_map id hexec
  constructor
  · intro hclaim
    have hcopies := (ownBuffers_inEachState_iff hrun).mp (hclaim _ _ _ hrun)
    exact hcopies (.assign 0 1) (by simp [reusedBuffer]) (by simp [Copies])
  · intro hclaim
    obtain ⟨m, hm⟩ := hclaim _ _ _ hrun
    obtain ⟨t, ht, hread⟩ := hm.last
    have hcopy : some (some (GameHMsg.copyFrom (HMessage.ofData ⟨fun _ => 0, 0, 0⟩ [65])
        (HMessage.new ⟨fun _ => 0, 0, 0⟩))) = some (t 0) :=
      congrArg (Option.map fun r : (ℕ → Option HMessage) × _ => r.1 0) ht.exec_eq
    rw [Option.some.injEq] at hcopy
    simp only [valueStep, ← hcopy, MsgOp.gameRun, GameHMsg.getByte, Option.some.injEq,
      Prod.mk.injEq, List.cons.injEq, and_true, ObjectResult.result.injEq,
      MsgResult.byte.injEq] at hread
    have hbyte := hread.2
    rw [copyFrom_iPos, copyFrom_byBuffer _ _ (by decide) (by decide)] at hbyte
    exact absurd hbyte (by decide)

end ShootGame.Analysis
