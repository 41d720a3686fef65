import Mathlib.Data.List.Basic
import Mathlib.Data.List.Induction

/-!
# Runs of a machine that takes inputs and emits outputs

A machine is a partial step function: from a state and an input to the next state
and the outputs of that step, or to nothing where the input is not enabled.  A
*history* lists every input taken together with the outputs it caused, oldest
first; `Runs step s h t` says that the machine can go from `s` to `t` with history
`h`.

Invariants are proved by induction on `Runs`, which adds one step at the end.
`exec` computes a run from its inputs, and is how a concrete run is exhibited.
`Runs.throughout_iff` is the exact form of this: what decides whether a step keeps a
property decides whether the property holds all along a run.  `Runs.simulated` carries a
history over to another machine, and `Runs.conserved` is the law of a queue: what went in
is what came out and what is still inside.  `AtEach` states a property of every position
of a list in terms of what stands before it.
-/

set_option autoImplicit false

namespace ShootGame.Library

section Machine

variable {σ ι ο : Type*}

def inputs (h : List (ι × List ο)) : List ι := h.map Prod.fst

def outputs (h : List (ι × List ο)) : List ο := h.flatMap Prod.snd

/-- The inputs of the empty history. -/
@[simp] theorem inputs_nil : inputs ([] : List (ι × List ο)) = [] := rfl

/-- The outputs of the empty history. -/
@[simp] theorem outputs_nil : outputs ([] : List (ι × List ο)) = [] := rfl

/-- The inputs of two histories, one behind the other. -/
@[simp] theorem inputs_append (h k : List (ι × List ο)) :
    inputs (h ++ k) = inputs h ++ inputs k := List.map_append

/-- The outputs of two histories, one behind the other. -/
@[simp] theorem outputs_append (h k : List (ι × List ο)) :
    outputs (h ++ k) = outputs h ++ outputs k := List.flatMap_append

/-- The first step's input comes first. -/
@[simp] theorem inputs_cons (i : ι) (o : List ο) (h : List (ι × List ο)) :
    inputs ((i, o) :: h) = i :: inputs h := rfl

/-- The first step's outputs come first. -/
@[simp] theorem outputs_cons (i : ι) (o : List ο) (h : List (ι × List ο)) :
    outputs ((i, o) :: h) = o ++ outputs h := List.flatMap_cons

/-- Every input belongs to a step. -/
theorem mem_inputs {h : List (ι × List ο)} {i : ι} : i ∈ inputs h ↔ ∃ o, (i, o) ∈ h := by
  simp [inputs]

/-- Every output belongs to a step. -/
theorem mem_outputs {h : List (ι × List ο)} {x : ο} :
    x ∈ outputs h ↔ ∃ i o, (i, o) ∈ h ∧ x ∈ o := by
  simp [outputs]

variable (step : σ → ι → Option (σ × List ο))

/-- The machine goes from `s` to the indexed state, with the indexed history. -/
inductive Runs (s : σ) : List (ι × List ο) → σ → Prop
  | start : Runs s [] s
  | next {h : List (ι × List ο)} {t u : σ} {i : ι} {o : List ο} :
      Runs s h t → step t i = some (u, o) → Runs s (h ++ [(i, o)]) u

/-- Take the inputs one after the other and collect the history. -/
def exec (s : σ) : List ι → Option (σ × List (ι × List ο))
  | [] => some (s, [])
  | i :: is =>
    match step s i with
    | none => none
    | some (t, o) => (exec t is).map fun r => (r.1, (i, o) :: r.2)

variable {step}

/-- A step is a run. -/
theorem Runs.single {s t : σ} {i : ι} {o : List ο} (h : step s i = some (t, o)) :
    Runs step s [(i, o)] t :=
  Runs.next (h := []) .start h

/-- A run without steps stays where it is. -/
theorem Runs.eq_of_nil {s t : σ} (h : Runs step s [] t) : t = s := by
  generalize hk : ([] : List (ι × List ο)) = k at h
  cases h with
  | start => rfl
  | next => simp at hk

/-- A run that starts where another ends continues it. -/
theorem Runs.trans {s t u : σ} {h k : List (ι × List ο)}
    (hst : Runs step s h t) (htu : Runs step t k u) : Runs step s (h ++ k) u := by
  induction htu with
  | start => simpa using hst
  | next _ hstep ih =>
      rw [← List.append_assoc]
      exact ih.next hstep

/-- The last step of a run, and the run before it. -/
theorem Runs.last {s u : σ} {h : List (ι × List ο)} {i : ι} {o : List ο}
    (hr : Runs step s (h ++ [(i, o)]) u) :
    ∃ t, Runs step s h t ∧ step t i = some (u, o) := by
  generalize hk : h ++ [(i, o)] = k at hr
  cases hr with
  | start => simp at hk
  | next hr hstep =>
      obtain ⟨rfl, hlast⟩ := List.append_inj' hk rfl
      simp only [List.cons.injEq, Prod.mk.injEq, and_true] at hlast
      obtain ⟨rfl, rfl⟩ := hlast
      exact ⟨_, hr, hstep⟩

/-- A run can be cut anywhere. -/
theorem Runs.split {s u : σ} {h k : List (ι × List ο)} (hr : Runs step s (h ++ k) u) :
    ∃ t, Runs step s h t ∧ Runs step t k u := by
  induction k using List.reverseRecOn generalizing u with
  | nil => exact ⟨u, by simpa using hr, .start⟩
  | append_singleton k x ih =>
      rw [← List.append_assoc] at hr
      obtain ⟨v, hv, hstep⟩ := hr.last
      obtain ⟨t, ht, hk⟩ := ih hv
      exact ⟨t, ht, hk.next hstep⟩

/-- The first step of a run, and the run behind it. -/
theorem Runs.first {s u : σ} {h : List (ι × List ο)} {i : ι} {o : List ο}
    (hr : Runs step s ((i, o) :: h) u) :
    ∃ t, step s i = some (t, o) ∧ Runs step t h u := by
  obtain ⟨t, h₁, h₂⟩ := Runs.split (h := [(i, o)]) hr
  obtain ⟨v, hv, hstep⟩ := Runs.last (h := []) h₁
  rw [hv.eq_of_nil] at hstep
  exact ⟨t, hstep, h₂⟩

/-- The history determines the state. -/
theorem Runs.state_unique {s t u : σ} {h : List (ι × List ο)} (ht : Runs step s h t)
    (hu : Runs step s h u) : t = u := by
  induction ht generalizing u with
  | start => exact hu.eq_of_nil.symm
  | next _ hstep ih =>
      obtain ⟨v, hv, hstep'⟩ := hu.last
      rw [ih hv, hstep'] at hstep
      simp only [Option.some.injEq, Prod.mk.injEq, and_true] at hstep
      exact hstep.symm

/-- Each entry of a history is a step taken from a state reached before. -/
theorem Runs.step_of_split {s u : σ} {h k : List (ι × List ο)} {i : ι} {o : List ο}
    (hr : Runs step s (h ++ (i, o) :: k) u) :
    ∃ t v, Runs step s h t ∧ step t i = some (v, o) ∧ Runs step v k u := by
  obtain ⟨t, ht, hrest⟩ := hr.split
  obtain ⟨v, hv, hk⟩ := hrest.first
  exact ⟨t, v, ht, hv, hk⟩

/-- Every entry of a history is a step from a state of the run. -/
theorem Runs.step_of_mem {s u : σ} {h : List (ι × List ο)} {i : ι} {o : List ο}
    (hr : Runs step s h u) (hmem : (i, o) ∈ h) :
    ∃ k t v, Runs step s k t ∧ step t i = some (v, o) := by
  obtain ⟨h₁, h₂, rfl⟩ := List.append_of_mem hmem
  obtain ⟨t, v, ht, hv, -⟩ := hr.step_of_split
  exact ⟨h₁, t, v, ht, hv⟩

/-- A run can be cut around any of its inputs. -/
theorem Runs.step_of_inputs {s u : σ} {h : List (ι × List ο)} {is js : List ι} {i : ι}
    (hr : Runs step s h u) (hin : inputs h = is ++ i :: js) :
    ∃ h₁ o h₂ t v, h = h₁ ++ (i, o) :: h₂ ∧ inputs h₁ = is ∧ inputs h₂ = js ∧
      Runs step s h₁ t ∧ step t i = some (v, o) ∧ Runs step v h₂ u := by
  unfold inputs at hin
  rw [List.map_eq_append_iff] at hin
  obtain ⟨h₁, hrest, rfl, hin₁, hrest'⟩ := hin
  rw [List.map_eq_cons_iff] at hrest'
  obtain ⟨⟨j, o⟩, h₂, rfl, hj, hin₂⟩ := hrest'
  obtain rfl : j = i := hj
  obtain ⟨t, v, ht, hstep, hv⟩ := hr.step_of_split
  exact ⟨h₁, o, h₂, t, v, rfl, hin₁, hin₂, ht, hstep, hv⟩

/-- A run on an input and more starts with that input. -/
theorem Runs.first_of_inputs {s u : σ} {h : List (ι × List ο)} {is : List ι} {i : ι}
    (hr : Runs step s h u) (hin : inputs h = i :: is) :
    ∃ o k t, h = (i, o) :: k ∧ inputs k = is ∧ step s i = some (t, o) ∧ Runs step t k u := by
  obtain ⟨⟨j, o⟩, k, rfl, hj, hk⟩ := List.map_eq_cons_iff.mp hin
  obtain rfl : j = i := hj
  obtain ⟨t, hstep, htail⟩ := hr.first
  exact ⟨o, k, t, rfl, hk, hstep, htail⟩

/-- A run without inputs stays where it is. -/
theorem Runs.eq_of_inputs_nil {s u : σ} {h : List (ι × List ο)} (hr : Runs step s h u)
    (hin : inputs h = []) : u = s := by
  obtain rfl := List.map_eq_nil_iff.mp hin
  exact hr.eq_of_nil

/-- Execution takes the first step and goes on from there. -/
theorem exec_cons {s t u : σ} {i : ι} {is : List ι} {o : List ο} {h : List (ι × List ο)}
    (hstep : step s i = some (t, o)) (hexec : exec step t is = some (u, h)) :
    exec step s (i :: is) = some (u, (i, o) :: h) := by
  rw [exec, hstep]
  simp only [hexec, Option.map_some]

/-- A run on an input and more starts with a step. -/
theorem exec_cons_inv {s u : σ} {i : ι} {is : List ι} {h : List (ι × List ο)}
    (hexec : exec step s (i :: is) = some (u, h)) :
    ∃ t o k, step s i = some (t, o) ∧ exec step t is = some (u, k) ∧ h = (i, o) :: k := by
  cases hstep : step s i with
  | none => simp [exec, hstep] at hexec
  | some r =>
      obtain ⟨t, o⟩ := r
      simp only [exec, hstep, Option.map_eq_some_iff, Prod.mk.injEq] at hexec
      obtain ⟨⟨v, k⟩, hk, rfl, rfl⟩ := hexec
      exact ⟨t, o, k, rfl, hk, rfl⟩

/-- What `exec` computes is a run on the given inputs. -/
theorem runs_of_exec {s t : σ} {is : List ι} {h : List (ι × List ο)}
    (he : exec step s is = some (t, h)) : Runs step s h t ∧ inputs h = is := by
  induction is generalizing s h with
  | nil =>
      simp only [exec, Option.some.injEq, Prod.mk.injEq] at he
      obtain ⟨rfl, rfl⟩ := he
      exact ⟨.start, rfl⟩
  | cons i is ih =>
      obtain ⟨v, o, k, hs, hw, rfl⟩ := exec_cons_inv he
      obtain ⟨hrun, hin⟩ := ih hw
      exact ⟨(Runs.single hs).trans hrun, by rw [inputs_cons, hin]⟩

/-- A run is what `exec` computes on its inputs. -/
theorem Runs.exec_eq {s t : σ} {h : List (ι × List ο)} (hr : Runs step s h t) :
    exec step s (inputs h) = some (t, h) := by
  induction h generalizing s with
  | nil =>
      rw [hr.eq_of_nil]
      rfl
  | cons x h ih =>
      obtain ⟨i, o⟩ := x
      obtain ⟨u, hstep, htail⟩ := hr.first
      exact exec_cons hstep (ih htail)

/-- What can be executed is a run on these inputs. -/
theorem exists_runs_of_exec {s : σ} {is : List ι} (he : (exec step s is).isSome = true) :
    ∃ h t, Runs step s h t ∧ inputs h = is := by
  obtain ⟨⟨t, h⟩, hexec⟩ := Option.isSome_iff_exists.mp he
  exact ⟨h, t, runs_of_exec hexec⟩

/-- A run whose history has a property that `exec` computes. -/
theorem exists_runs_of_exec_map {β : Type*} {s : σ} {is : List ι}
    (f : List (ι × List ο) → β) {b : β} (he : (exec step s is).map (fun r => f r.2) = some b) :
    ∃ h t, Runs step s h t ∧ inputs h = is ∧ f h = b := by
  rw [Option.map_eq_some_iff] at he
  obtain ⟨⟨t, h⟩, hexec, hf⟩ := he
  obtain ⟨hrun, hin⟩ := runs_of_exec hexec
  exact ⟨h, t, hrun, hin, hf⟩

/-- An invariant that holds at the start and is kept by each step holds at the end. -/
theorem Runs.invariant {s t : σ} {h : List (ι × List ο)} (hr : Runs step s h t)
    (Inv : List (ι × List ο) → σ → Prop) (hstart : Inv [] s)
    (hstep : ∀ {h u i v o}, Runs step s h u → Inv h u → step u i = some (v, o) →
      Inv (h ++ [(i, o)]) v) :
    Inv h t := by
  induction hr with
  | start => exact hstart
  | next hr hs ih => exact hstep hr ih hs

/-- The property holds in every state that the history leads through. -/
def Throughout (step : σ → ι → Option (σ × List ο)) (P : σ → Prop) (s : σ)
    (h : List (ι × List ο)) : Prop :=
  ∀ h₁ h₂ t, h = h₁ ++ h₂ → Runs step s h₁ t → P t

/-- Every input of the history has the property in the state it is taken in. -/
def AtEachStep (step : σ → ι → Option (σ × List ο)) (Q : σ → ι → Prop) (s : σ)
    (h : List (ι × List ο)) : Prop :=
  ∀ h₁ i o h₂ t, h = h₁ ++ (i, o) :: h₂ → Runs step s h₁ t → Q t i

/-- What is required at each step of a run holds in its first part. -/
theorem AtEachStep.initial {Q : σ → ι → Prop} {s : σ} {h k : List (ι × List ο)}
    (heach : AtEachStep step Q s (h ++ k)) : AtEachStep step Q s h := by
  intro h₁ i o h₂ t hsplit ht
  refine heach h₁ i o (h₂ ++ k) t ?_ ht
  rw [hsplit, List.append_assoc, List.cons_append]

/-- A requirement on the inputs alone is one on all of them. -/
theorem Runs.atEachStep_inputs_iff {s t : σ} {h : List (ι × List ο)} (hr : Runs step s h t)
    (Q : ι → Prop) : AtEachStep step (fun _ i => Q i) s h ↔ ∀ i ∈ inputs h, Q i := by
  constructor
  · intro heach i hi
    obtain ⟨o, hmem⟩ := mem_inputs.mp hi
    obtain ⟨h₁, h₂, rfl⟩ := List.append_of_mem hmem
    obtain ⟨u, -, hu, -⟩ := hr.step_of_split
    exact heach h₁ i o h₂ u rfl hu
  · rintro hall h₁ i o h₂ u rfl hu
    apply hall
    simp

/-- If what decides whether a step on an admitted input keeps `P` is `Q`, then `P` holds
throughout a run exactly if `Q` holds at each of its steps. -/
theorem Runs.throughout_iff {s t : σ} {h : List (ι × List ο)} (hr : Runs step s h t)
    (P : σ → Prop) (Q : σ → ι → Prop) (Admitted : ι → Prop) (hstart : P s)
    (hin : ∀ i ∈ inputs h, Admitted i)
    (hstep : ∀ {u v i o}, P u → Admitted i → step u i = some (v, o) → (P v ↔ Q u i)) :
    Throughout step P s h ↔ AtEachStep step Q s h := by
  constructor
  · rintro hall h₁ i o h₂ u rfl hu
    obtain ⟨u', v, hu', hs, -⟩ := hr.step_of_split
    obtain rfl := hu'.state_unique hu
    rw [← hstep (hall h₁ _ u' rfl hu) (hin i (by simp)) hs]
    exact hall (h₁ ++ [(i, o)]) h₂ v (by simp) (hu.next hs)
  · rintro heach h₁ h₂ u rfl hu
    rw [inputs_append, List.forall_mem_append] at hin
    have hrun := hu.invariant (fun k t => (∀ i ∈ inputs k, Admitted i) →
      AtEachStep step Q s k → P t) (fun _ _ => hstart) ?_
    · exact hrun hin.1 heach.initial
    · intro k u i v o hk ih hs hadmitted heach'
      rw [inputs_append, List.forall_mem_append] at hadmitted
      rw [hstep (ih hadmitted.1 heach'.initial) (hadmitted.2 i (by simp)) hs]
      exact heach' k i o [] u rfl hk

/-- A relation that every step on an admitted input keeps, with the same outputs, makes
each history of one machine a history of the other. -/
theorem Runs.simulated {τ : Type*} {step' : τ → ι → Option (τ × List ο)} {s s' : σ} {t : τ}
    {h : List (ι × List ο)} (R : σ → τ → Prop) (Admitted : ι → Prop)
    (hr : Runs step s h s') (hstart : R s t) (hin : ∀ i ∈ inputs h, Admitted i)
    (hstep : ∀ {u u' v i o}, R u v → Admitted i → step u i = some (u', o) →
      ∃ v', step' v i = some (v', o) ∧ R u' v') :
    ∃ t', Runs step' t h t' ∧ R s' t' := by
  induction hr with
  | start => exact ⟨t, .start, hstart⟩
  | next _ hs ih =>
      rw [inputs_append] at hin
      obtain ⟨v, hv, hrel⟩ := ih fun i hi => hin i (List.mem_append_left _ hi)
      obtain ⟨v', hv', hrel'⟩ := hstep hrel (hin _ (by simp)) hs
      exact ⟨v', hv.next hv', hrel'⟩

/-- A queue that each step extends at its end by what the step puts in and shortens at
its front by what it takes out does so over a run. -/
theorem Runs.conserved {β : Type*} {s t : σ} {h : List (ι × List ο)} (inside : σ → List β)
    (putIn takenOut : ο → Option β) (hr : Runs step s h t)
    (hstep : ∀ {h u i v o}, Runs step s h u → step u i = some (v, o) →
      inside u ++ o.filterMap putIn = o.filterMap takenOut ++ inside v) :
    inside s ++ (outputs h).filterMap putIn = (outputs h).filterMap takenOut ++ inside t := by
  induction hr with
  | start => simp
  | next hr hs ih =>
      rw [outputs_append, outputs_cons, outputs_nil, List.append_nil, List.filterMap_append,
        List.filterMap_append, ← List.append_assoc, ih, List.append_assoc, hstep hr hs,
        List.append_assoc]

end Machine

section AtEach

variable {α : Type*}

/-- Every element of the list has the property, given the elements before it. -/
def AtEach (P : List α → α → Prop) (l : List α) : Prop :=
  ∀ l₁ x l₂, l = l₁ ++ x :: l₂ → P l₁ x

/-- Of no elements nothing is required. -/
@[simp] theorem atEach_nil (P : List α → α → Prop) : AtEach P [] := by
  intro l₁ x l₂ h
  simp at h

/-- The last element is looked at behind all the others. -/
theorem atEach_concat (P : List α → α → Prop) (l : List α) (y : α) :
    AtEach P (l ++ [y]) ↔ AtEach P l ∧ P l y := by
  constructor
  · intro h
    constructor
    · rintro l₁ x l₂ rfl
      exact h l₁ x (l₂ ++ [y]) (by simp)
    · exact h l y [] rfl
  · rintro ⟨hl, hy⟩ l₁ x l₂ heq
    rcases List.eq_nil_or_concat l₂ with rfl | ⟨l₃, z, rfl⟩
    · obtain ⟨rfl, hlast⟩ := List.append_inj' heq rfl
      cases hlast
      exact hy
    · rw [List.concat_eq_append, ← List.cons_append, ← List.append_assoc] at heq
      obtain ⟨rfl, _⟩ := List.append_inj' heq rfl
      exact hl l₁ x l₃ rfl

end AtEach

end ShootGame.Library
