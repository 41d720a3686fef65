import Mathlib.InformationTheory.Coding.UniquelyDecodable

/-!
# Codes without prefixes

A code in which no word is a proper prefix of another can be taken apart again however
its words are written one behind the other.  Words that tell their own length, whatever
stands behind them, form such a code.
-/

set_option autoImplicit false

namespace ShootGame.Library

open InformationTheory

variable {α : Type*} {S : Set (List α)}

/-- No word of the code is a proper prefix of another. -/
def PrefixFree (S : Set (List α)) : Prop := ∀ a ∈ S, ∀ b ∈ S, a <+: b → a = b

/-- Where no word is a prefix of another, the first word of a text is determined. -/
theorem PrefixFree.eq_of_append_eq (h : PrefixFree S) {a b r s : List α} (ha : a ∈ S) (hb : b ∈ S)
    (heq : a ++ r = b ++ s) : a = b ∧ r = s := by
  have hword : a = b := by
    have hfirst : a <+: b ++ s := ⟨r, heq⟩
    rcases List.prefix_or_prefix_of_prefix hfirst (List.prefix_append b s) with hab | hba
    · exact h a ha b hb hab
    · exact (h b hb a ha hba).symm
  subst hword
  exact ⟨rfl, List.append_cancel_left heq⟩

/-- By induction on the first list; the empty word is the only one that could be left over. -/
theorem PrefixFree.uniquelyDecodable (h : PrefixFree S) (hempty : [] ∉ S) :
    UniquelyDecodable S := by
  intro L₁
  induction L₁ with
  | nil =>
    intro L₂ _ hL₂ hflat
    cases L₂ with
    | nil => rfl
    | cons b L₂ =>
      have hnil : b = [] := by
        rw [List.flatten_cons] at hflat
        exact (List.append_eq_nil_iff.mp hflat.symm).1
      rw [List.forall_mem_cons, hnil] at hL₂
      exact absurd hL₂.1 hempty
  | cons a L₁ ih =>
    intro L₂ hL₁ hL₂ hflat
    rw [List.forall_mem_cons] at hL₁
    cases L₂ with
    | nil =>
      have hnil : a = [] := by
        rw [List.flatten_cons] at hflat
        exact (List.append_eq_nil_iff.mp hflat).1
      rw [hnil] at hL₁
      exact absurd hL₁.1 hempty
    | cons b L₂ =>
      rw [List.forall_mem_cons] at hL₂
      rw [List.flatten_cons, List.flatten_cons] at hflat
      obtain ⟨hword, hrest⟩ := h.eq_of_append_eq hL₁.1 hL₂.1 hflat
      rw [hword, ih L₂ hL₁.2 hL₂.2 hrest]

/-- Words whose length can be read off, whatever follows them. -/
theorem prefixFree_of_length (length : List α → ℕ)
    (h : ∀ w ∈ S, ∀ rest, length (w ++ rest) = w.length) : PrefixFree S := by
  rintro a ha _ hb ⟨rest, rfl⟩
  have hself := h _ hb []
  rw [List.append_nil, h a ha rest, List.length_append] at hself
  have hrest : rest = [] := List.length_eq_zero_iff.mp (by omega)
  rw [hrest, List.append_nil]

end ShootGame.Library
