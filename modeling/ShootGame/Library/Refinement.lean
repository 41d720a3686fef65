import Mathlib.Data.List.Forall2
import ShootGame.Library.Machine

/-!
# Runs of one machine as runs of another

`Runs.component` is for a machine that has another one as a part: a run of the whole is
a run of the part on the inputs that concern it.  `Runs.refined` is for two machines
whose steps correspond one to one, where an input of the first says more than the input
of the second that it stands for, and `Runs.matched` for a step that takes the other
machine several steps or none.  `Runs.replayed` is for two machines on the same states
that do the same on inputs which differ in something neither looks at.
-/

set_option autoImplicit false

namespace ShootGame.Library

variable {σ ι ο : Type*} {step : σ → ι → Option (σ × List ο)}

section Component

variable {τ κ π : Type*} {step' : τ → κ → Option (τ × List π)}

/-- The part of a history that concerns a component. -/
def component (input : ι → Option κ) (output : ο → Option π) (h : List (ι × List ο)) :
    List (κ × List π) :=
  h.filterMap fun x => (input x.1).map fun k => (k, x.2.filterMap output)

/-- The component's part of two histories, one behind the other. -/
theorem component_append (input : ι → Option κ) (output : ο → Option π)
    (h k : List (ι × List ο)) :
    component input output (h ++ k) = component input output h ++ component input output k :=
  List.filterMap_append ..

/-- A step that concerns the component. -/
theorem component_single_some {input : ι → Option κ} (output : ο → Option π) {i : ι} {k : κ}
    (h : input i = some k) (o : List ο) :
    component input output [(i, o)] = [(k, o.filterMap output)] := by
  simp [component, h]

/-- A step that does not. -/
theorem component_single_none {input : ι → Option κ} (output : ο → Option π) {i : ι}
    (h : input i = none) (o : List ο) : component input output [(i, o)] = [] := by
  simp [component, h]

/-- A step of the whole is a step of the component, or leaves it alone. -/
structure StepsComponent (step : σ → ι → Option (σ × List ο))
    (step' : τ → κ → Option (τ × List π)) (part : σ → τ) (input : ι → Option κ)
    (output : ο → Option π) : Prop where
  inside : ∀ {s t i o k}, step s i = some (t, o) → input i = some k →
    step' (part s) k = some (part t, o.filterMap output)
  outside : ∀ {s t i o}, step s i = some (t, o) → input i = none →
    part t = part s ∧ o.filterMap output = []

variable {part : σ → τ} {input : ι → Option κ} {output : ο → Option π}

/-- The component makes a run of its own, with the outputs that are its own. -/
theorem Runs.component (hsteps : StepsComponent step step' part input output) {s t : σ}
    {h : List (ι × List ο)} (hr : Runs step s h t) :
    Runs step' (part s) (component input output h) (part t) ∧
      outputs (Library.component input output h) = (outputs h).filterMap output := by
  induction hr with
  | start => exact ⟨.start, rfl⟩
  | @next h u v i o hr hstep ih =>
    obtain ⟨hrun, hout⟩ := ih
    rw [component_append, outputs_append, outputs_append, List.filterMap_append, hout,
      outputs_cons, outputs_nil, List.append_nil]
    cases hi : input i with
    | none =>
      obtain ⟨hsame, hquiet⟩ := hsteps.outside hstep hi
      rw [component_single_none output hi, List.append_nil, hsame, hquiet]
      exact ⟨hrun, rfl⟩
    | some k =>
      rw [component_single_some output hi]
      refine ⟨hrun.next (hsteps.inside hstep hi), ?_⟩
      rw [outputs_cons, outputs_nil, List.append_nil]

end Component

section Refined

variable {τ κ π : Type*} {step' : τ → κ → Option (τ × List π)}

/-- What is seen of a run is a run of the other machine, if it is so for each step; what is
known of the runs of either machine may be used there. -/
theorem Runs.refined (view : σ → τ) (seen : ο → Option π) (Abstracts : ι → κ → Prop) {s t : σ}
    {h : List (ι × List ο)} (hr : Runs step s h t)
    (hstep : ∀ {h h' u v i o}, Runs step s h u → Runs step' (view s) h' (view u) →
      step u i = some (v, o) →
        ∃ k, Abstracts i k ∧ step' (view u) k = some (view v, o.filterMap seen)) :
    ∃ h', Runs step' (view s) h' (view t) ∧ outputs h' = (outputs h).filterMap seen ∧
      List.Forall₂ Abstracts (inputs h) (inputs h') := by
  induction hr with
  | start => exact ⟨[], .start, rfl, .nil⟩
  | @next h u v i o hr hs ih =>
    obtain ⟨h', hrun, hout, hin⟩ := ih
    obtain ⟨k, habstracts, hs'⟩ := hstep hr hrun hs
    refine ⟨_, hrun.next hs', ?_, ?_⟩
    · simp [hout]
    · rw [inputs_append, inputs_append]
      exact List.rel_append hin (.cons habstracts .nil)

end Refined

section Matched

variable {τ κ ζ : Type*} {step' : τ → κ → Option (τ × List ο)}

/-- Where each step of one machine is matched by steps of another one, or by none, with the
same outputs and the same inputs of the kind that both have, so is each run. -/
theorem Runs.matched (R : σ → τ → Prop) (common : ι → Option ζ) (common' : κ → Option ζ)
    {s s' : σ} {t : τ} {h : List (ι × List ο)} (hr : Runs step s h s') (hstart : R s t)
    (hstep : ∀ {u u' v i o}, R u v → step u i = some (u', o) →
      ∃ k v', Runs step' v k v' ∧ (inputs k).filterMap common' = (common i).toList ∧
        outputs k = o ∧ R u' v') :
    ∃ k t', Runs step' t k t' ∧
      (inputs k).filterMap common' = (inputs h).filterMap common ∧
      outputs k = outputs h ∧ R s' t' := by
  induction hr with
  | start => exact ⟨[], t, .start, rfl, rfl, hstart⟩
  | @next h u u' i o hr hs ih =>
    obtain ⟨k, v, hrun, hin, hout, hrel⟩ := ih
    obtain ⟨k', v', hrun', hin', hout', hrel'⟩ := hstep hrel hs
    refine ⟨k ++ k', v', hrun.trans hrun', ?_, ?_, hrel'⟩
    · rw [inputs_append, inputs_append, List.filterMap_append, List.filterMap_append, hin, hin']
      cases hi : common i <;> simp [hi]
    · rw [outputs_append, outputs_append, hout, hout']
      simp

end Matched

section Replayed

variable {κ : Type*} {step' : σ → κ → Option (σ × List ο)}

/-- Where another machine does the same as every step of a run, on an input that stands in
for the one the step took, it can make the run on such inputs. -/
theorem Runs.replayed (Alike : ι → κ → Prop) {s t : σ} {h : List (ι × List ο)}
    (hr : Runs step s h t)
    (hstep : ∀ {k u v i o i'}, k ++ [(i, o)] <+: h → Runs step s k u → step u i = some (v, o) →
      Alike i i' → step' u i' = some (v, o))
    {is : List κ} (halike : List.Forall₂ Alike (inputs h) is) :
    ∃ h', Runs step' s h' t ∧ inputs h' = is ∧ outputs h' = outputs h := by
  induction hr generalizing is with
  | start =>
    cases halike
    exact ⟨[], .start, rfl, rfl⟩
  | @next h u v i o hr hs ih =>
    rw [inputs_append] at halike
    have hfirst := List.forall₂_take_append _ _ _ halike.flip
    have hlast := List.forall₂_drop_append _ _ _ halike.flip
    obtain ⟨i', hi', hdrop⟩ : ∃ i', Alike i i' ∧ is.drop (inputs h).length = [i'] := by
      generalize is.drop (inputs h).length = rest at hlast
      cases hlast with
      | cons hi hnil =>
        cases hnil
        exact ⟨_, hi, rfl⟩
    obtain ⟨h', hrun, hin, hout⟩ := ih
      (fun hinitial => hstep (hinitial.trans (List.prefix_append _ _))) hfirst.flip
    refine ⟨h' ++ [(i', o)], hrun.next (hstep List.prefix_rfl hr hs hi'), ?_, ?_⟩
    · rw [inputs_append, hin, inputs_cons, inputs_nil, ← hdrop, List.take_append_drop]
    · rw [outputs_append, outputs_append, hout, outputs_cons, outputs_cons, outputs_nil,
        outputs_nil]

end Replayed

end ShootGame.Library
