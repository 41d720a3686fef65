import ShootGame.Library.Machine

/-!
# Machines that work off a backlog

Some inputs of a machine are *ticks* and some of its outputs are units of *work*.  Where
the state says how many ticks the next units take, and no step of any kind makes that
number wrong, a run has done so many units exactly if it has had so many ticks
(`WorksOff.done_iff`).  What other inputs come in between does not matter.  A step may do
many units, also more than were asked about.
-/

set_option autoImplicit false

namespace ShootGame.Library

section Progress

variable {σ ι ο : Type*} {step : σ → ι → Option (σ × List ο)}

variable (step) in
/-- `cost s n` ticks do the next `n` units of the backlog of `s`. -/
structure WorksOff (Inv : σ → Prop) (backlog : σ → ℕ) (cost : σ → ℕ → ℕ) (tick : ι → Bool)
    (work : ο → Bool) : Prop where
  inv : ∀ {s t i o}, Inv s → step s i = some (t, o) → Inv t
  free : ∀ s n, cost s n = 0 ↔ n = 0
  left : ∀ {s t i o}, Inv s → step s i = some (t, o) → backlog s ≤ o.countP work + backlog t
  next : ∀ {s t i o n}, Inv s → step s i = some (t, o) → 0 < n → n ≤ backlog s →
    cost s n = cost t (n - o.countP work) + if tick i then 1 else 0

/-- By induction on the run, from its first step on. -/
theorem WorksOff.done_iff {Inv : σ → Prop} {backlog : σ → ℕ} {cost : σ → ℕ → ℕ}
    {tick : ι → Bool} {work : ο → Bool} (hworks : WorksOff step Inv backlog cost tick work)
    {s t : σ} {h : List (ι × List ο)} (hr : Runs step s h t) (hinv : Inv s) {n : ℕ}
    (hn : n ≤ backlog s) :
    n ≤ (outputs h).countP work ↔ cost s n ≤ (inputs h).countP tick := by
  induction h generalizing s n with
  | nil =>
    rw [outputs_nil, inputs_nil, List.countP_nil, List.countP_nil, Nat.le_zero, Nat.le_zero,
      hworks.free]
  | cons x h ih =>
    obtain ⟨i, o⟩ := x
    obtain ⟨u, hstep, htail⟩ := hr.first
    rw [outputs_cons, inputs_cons, List.countP_append, List.countP_cons]
    rcases Nat.eq_zero_or_pos n with rfl | hpos
    · rw [(hworks.free s 0).mpr rfl]
      exact iff_of_true (Nat.zero_le _) (Nat.zero_le _)
    · have hcost := hworks.next hinv hstep hpos hn
      have hleft := hworks.left hinv hstep
      have hrest := ih htail (hworks.inv hinv hstep) (n := n - o.countP work) (by omega)
      omega

/-- What is worked off in order has reached the first `n` units exactly if it is that many. -/
theorem take_prefix_iff {α : Type*} {backlog added done left : List α}
    (h : backlog ++ added = done ++ left) {n : ℕ} (hn : n ≤ backlog.length) :
    backlog.take n <+: done ↔ n ≤ done.length := by
  have hlen : (backlog.take n).length = n := List.length_take_of_le hn
  have htake : backlog.take n <+: done ++ left := by
    rw [← h]
    exact (List.take_prefix n _).trans (List.prefix_append _ _)
  constructor
  · intro hfirst
    rw [← hlen]
    exact hfirst.length_le
  · intro hle
    rw [← hlen] at hle
    exact List.prefix_of_prefix_length_le htake (List.prefix_append _ _) hle

end Progress

end ShootGame.Library
