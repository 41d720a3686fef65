import Mathlib.Data.Finset.Basic

/-!
# Handles that are opened and closed

A resource is reached through handles: a call opens one, uses one, or closes one.  What a
sequence of calls leaves open is a function of the calls, and `WellUsed` says that each
of them was given a handle that was open at that time.
-/

set_option autoImplicit false

namespace ShootGame.Library

/-- What a call does with a handle; a call may be given none. -/
inductive HandleUse (κ : Type) where
  | opens (handle : κ)
  | uses (handle : Option κ)
  | closes (handle : Option κ)
deriving DecidableEq, Repr

section Handles

variable {κ : Type} [DecidableEq κ]

/-- The handles that are open after a call. -/
def HandleUse.after (opened : Finset κ) : HandleUse κ → Finset κ
  | opens handle => insert handle opened
  | uses _ => opened
  | closes none => opened
  | closes (some handle) => opened.erase handle

/-- A handle is opened once, and used and closed while it is open. -/
def HandleUse.Right (opened : Finset κ) : HandleUse κ → Prop
  | opens handle => handle ∉ opened
  | uses handle => ∃ k ∈ opened, handle = some k
  | closes handle => ∃ k ∈ opened, handle = some k

def openAfter (opened : Finset κ) (calls : List (HandleUse κ)) : Finset κ :=
  calls.foldl HandleUse.after opened

/-- Every call is right where it is made. -/
def WellUsed : Finset κ → List (HandleUse κ) → Prop
  | _, [] => True
  | opened, call :: calls => call.Right opened ∧ WellUsed (call.after opened) calls

/-- Without calls nothing is opened or closed. -/
@[simp] theorem openAfter_nil (opened : Finset κ) : openAfter opened [] = opened := rfl

/-- The handles open after the first call are those the others start from. -/
@[simp] theorem openAfter_cons (opened : Finset κ) (call : HandleUse κ)
    (calls : List (HandleUse κ)) :
    openAfter opened (call :: calls) = openAfter (call.after opened) calls := rfl

/-- Two lists of calls, one behind the other. -/
@[simp] theorem openAfter_append (opened : Finset κ) (calls calls' : List (HandleUse κ)) :
    openAfter opened (calls ++ calls') = openAfter (openAfter opened calls) calls' :=
  List.foldl_append

/-- No calls are well used. -/
@[simp] theorem wellUsed_nil (opened : Finset κ) : WellUsed opened [] := trivial

/-- The first call is right, and so are the others behind it. -/
@[simp] theorem wellUsed_cons (opened : Finset κ) (call : HandleUse κ)
    (calls : List (HandleUse κ)) :
    WellUsed opened (call :: calls) ↔ call.Right opened ∧ WellUsed (call.after opened) calls :=
  Iff.rfl

/-- Two lists of calls are well used if the second is behind the first. -/
@[simp] theorem wellUsed_append (opened : Finset κ) (calls calls' : List (HandleUse κ)) :
    WellUsed opened (calls ++ calls') ↔
      WellUsed opened calls ∧ WellUsed (openAfter opened calls) calls' := by
  induction calls generalizing opened with
  | nil => simp
  | cons call calls ih =>
    rw [List.cons_append, wellUsed_cons, wellUsed_cons, ih, openAfter_cons, and_assoc]

/-- Calls that only use one open handle. -/
theorem uses_only {opened : Finset κ} {k : κ} (hk : k ∈ opened) {calls : List (HandleUse κ)}
    (h : ∀ call ∈ calls, call = .uses (some k)) :
    WellUsed opened calls ∧ openAfter opened calls = opened := by
  induction calls with
  | nil => exact ⟨trivial, rfl⟩
  | cons call calls ih =>
    rw [List.forall_mem_cons] at h
    obtain ⟨rfl, hrest⟩ := h
    obtain ⟨hused, hopen⟩ := ih hrest
    exact ⟨⟨⟨k, hk, rfl⟩, hused⟩, hopen⟩

/-- Such calls are right exactly if the handle is open or there are none of them. -/
theorem uses_only_iff {opened : Finset κ} {k : κ} {calls : List (HandleUse κ)}
    (h : ∀ call ∈ calls, call = .uses (some k)) :
    openAfter opened calls = opened ∧ (WellUsed opened calls ↔ (calls ≠ [] → k ∈ opened)) := by
  induction calls with
  | nil => simp
  | cons call calls ih =>
    rw [List.forall_mem_cons] at h
    obtain ⟨rfl, hrest⟩ := h
    obtain ⟨hopen, hused⟩ := ih hrest
    have hright : (HandleUse.uses (some k)).Right opened ↔ k ∈ opened := by
      simp [HandleUse.Right]
    rw [openAfter_cons, wellUsed_cons, hright]
    refine ⟨hopen, ?_⟩
    simp only [HandleUse.after, hused]
    tauto

end Handles

end ShootGame.Library
