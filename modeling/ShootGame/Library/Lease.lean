import Mathlib.Logic.Function.Basic
import ShootGame.Library.Machine

/-!
# Keys on lease

Every owner has a key, and several owners may have the same one.  An owner takes its
key and drops it again; a table is updated blindly, `take` writing the owner over what
the table held and `drop` clearing the key whoever holds it.

`Undisturbed` says that no operation ever changed the entry of another owner, and
`Exclusive` is a condition on the order of the operations alone: a key is taken only
while nobody who has it is live, and dropped only by the one who is.  The two agree
(`undisturbed_iff_exclusive`), and under them the table holds the live owners
(`leased_eq_some_iff`).
-/

set_option autoImplicit false

namespace ShootGame.Library

inductive LeaseOp (ω : Type*) where
  | take (owner : ω)
  | drop (owner : ω)

section Lease

variable {ω κ : Type*} [DecidableEq κ] (key : ω → κ)

/-- The blind update of a table. -/
def LeaseOp.apply (table : κ → Option ω) : LeaseOp ω → κ → Option ω
  | take owner => Function.update table (key owner) (some owner)
  | drop owner => Function.update table (key owner) none

/-- The table after some operations, from the empty one. -/
def leased (ops : List (LeaseOp ω)) : κ → Option ω :=
  ops.foldl (LeaseOp.apply key) fun _ => none

/-- The owner has taken its key and not dropped it since. -/
def Live (ops : List (LeaseOp ω)) (owner : ω) : Prop :=
  ∃ l₁ l₂, ops = l₁ ++ .take owner :: l₂ ∧ LeaseOp.drop owner ∉ l₂

/-- No operation finds the entry of another owner, and no `take` finds an entry. -/
def Undisturbed (ops : List (LeaseOp ω)) : Prop :=
  AtEach (fun before op =>
    match op with
    | .take owner => leased key before (key owner) = none
    | .drop owner => ∀ other, leased key before (key owner) = some other → other = owner) ops

/-- A key is taken while nobody with that key is live, and dropped while nobody else
with that key is. -/
def Exclusive (ops : List (LeaseOp ω)) : Prop :=
  AtEach (fun before op =>
    match op with
    | .take owner => ∀ other, Live before other → key other ≠ key owner
    | .drop owner => ∀ other, Live before other → key other = key owner → other = owner) ops

/-- What the last operation has to meet: a key taken is free, and one dropped is the owner's. -/
theorem undisturbed_concat (ops : List (LeaseOp ω)) (op : LeaseOp ω) :
    Undisturbed key (ops ++ [op]) ↔ Undisturbed key ops ∧
      match op with
      | .take owner => leased key ops (key owner) = none
      | .drop owner => ∀ other, leased key ops (key owner) = some other → other = owner :=
  atEach_concat _ _ _

omit [DecidableEq κ] in
/-- What the last operation has to meet, in terms of the owners that are live. -/
theorem exclusive_concat (ops : List (LeaseOp ω)) (op : LeaseOp ω) :
    Exclusive key (ops ++ [op]) ↔ Exclusive key ops ∧
      match op with
      | .take owner => ∀ other, Live ops other → key other ≠ key owner
      | .drop owner => ∀ other, Live ops other → key other = key owner → other = owner :=
  atEach_concat _ _ _

/-- At first no key is leased. -/
@[simp] theorem leased_nil (k : κ) : leased key [] k = none := rfl

/-- The last operation changes the leases. -/
@[simp] theorem leased_concat (ops : List (LeaseOp ω)) (op : LeaseOp ω) :
    leased key (ops ++ [op]) = op.apply key (leased key ops) := by
  simp [leased]

/-- At first nobody is live. -/
@[simp] theorem not_live_nil (owner : ω) : ¬ Live [] owner := by
  rintro ⟨l₁, l₂, h, -⟩
  simp at h

/-- An owner is live from when it takes until it drops. -/
theorem live_concat (ops : List (LeaseOp ω)) (op : LeaseOp ω) (owner : ω) :
    Live (ops ++ [op]) owner ↔ op = .take owner ∨ (Live ops owner ∧ op ≠ .drop owner) := by
  constructor
  · rintro ⟨l₁, l₂, heq, hnot⟩
    rcases List.eq_nil_or_concat l₂ with rfl | ⟨l₃, x, rfl⟩
    · left
      obtain ⟨-, hlast⟩ := List.append_inj' heq rfl
      simpa using hlast
    · right
      rw [List.concat_eq_append, ← List.cons_append, ← List.append_assoc] at heq
      obtain ⟨rfl, hlast⟩ := List.append_inj' heq rfl
      simp only [List.cons.injEq, and_true] at hlast
      simp only [List.concat_eq_append, List.mem_append, List.mem_singleton, not_or] at hnot
      exact ⟨⟨l₁, l₃, rfl, hnot.1⟩, fun h => hnot.2 (by rw [← hlast, h])⟩
  · rintro (rfl | ⟨⟨l₁, l₂, rfl, hnot⟩, hne⟩)
    · exact ⟨ops, [], rfl, by simp⟩
    · exact ⟨l₁, l₂ ++ [op], by simp, by simp [hnot, Ne.symm hne]⟩

/-- Where keys are held exclusively, the table holds the live owners. -/
theorem leased_eq_some_iff {ops : List (LeaseOp ω)} (h : Exclusive key ops) (k : κ) (owner : ω) :
    leased key ops k = some owner ↔ Live ops owner ∧ key owner = k := by
  induction ops using List.reverseRecOn with
  | nil => simp
  | append_singleton ops op ih =>
      obtain ⟨hops, hlast⟩ := (exclusive_concat key ops op).mp h
      have hih := ih hops
      rw [leased_concat, live_concat]
      cases op with
      | take new =>
          by_cases hk : k = key new
          · subst hk
            simp only [LeaseOp.apply, Function.update_self, Option.some.injEq,
              LeaseOp.take.injEq, ne_eq, reduceCtorEq, not_false_eq_true, and_true]
            constructor
            · rintro rfl
              exact ⟨.inl rfl, rfl⟩
            · rintro ⟨hnew | hlive, hkey⟩
              · exact hnew
              · exact absurd hkey (hlast owner hlive)
          · simp only [LeaseOp.apply, Function.update_of_ne hk, hih, LeaseOp.take.injEq, ne_eq,
              reduceCtorEq, not_false_eq_true, and_true]
            constructor
            · rintro ⟨hlive, hkey⟩
              exact ⟨.inr hlive, hkey⟩
            · rintro ⟨rfl | hlive, hkey⟩
              · exact absurd hkey.symm hk
              · exact ⟨hlive, hkey⟩
      | drop old =>
          by_cases hk : k = key old
          · subst hk
            simp only [LeaseOp.apply, Function.update_self, reduceCtorEq, false_or, false_iff]
            rintro ⟨⟨hlive, hne⟩, hkey⟩
            exact hne (by rw [hlast owner hlive hkey])
          · simp only [LeaseOp.apply, Function.update_of_ne hk, hih, reduceCtorEq, false_or]
            constructor
            · rintro ⟨hlive, rfl⟩
              refine ⟨⟨hlive, ?_⟩, rfl⟩
              rintro heq
              cases heq
              exact hk rfl
            · rintro ⟨⟨hlive, -⟩, hkey⟩
              exact ⟨hlive, hkey⟩

/-- No entry is disturbed exactly where keys are held exclusively. -/
theorem undisturbed_iff_exclusive (ops : List (LeaseOp ω)) :
    Undisturbed key ops ↔ Exclusive key ops := by
  induction ops using List.reverseRecOn with
  | nil => simp [Undisturbed, Exclusive]
  | append_singleton ops op ih =>
      rw [undisturbed_concat, exclusive_concat, ih]
      refine and_congr_right fun hops => ?_
      have htable := leased_eq_some_iff key hops
      cases op with
      | take owner =>
          simp only [Option.eq_none_iff_forall_ne_some, ne_eq, htable, not_and]
      | drop owner =>
          simp only [htable, and_imp]

end Lease

end ShootGame.Library
