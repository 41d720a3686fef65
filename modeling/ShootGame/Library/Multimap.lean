import Mathlib.Data.List.Basic
import Mathlib.Data.List.Perm.Basic
import Mathlib.Data.List.Pairwise

/-!
# Ordered multimaps

A multimap keeps its entries in ascending order of their keys, entries of one key in
the order of their insertion; the order is a field, so that no operation can lose it.
A position is the number of entries before it: `find k` is the position of the first
entry with key `k`, `count k` the number of these entries, and `erase` takes a
position.  The standard promises of `find` some entry with the key; that it is the first
is a fact of the implementations.

The entries with one key form a run, which `find` and `count` delimit
(`run_eq_filter`), so that a search through the run meets every one of them and none
besides (`erase_in_run`).
-/

set_option autoImplicit false

namespace ShootGame.Library

/-! ## Sorted lists of entries -/

section Sorted

variable {κ ν : Type*} [LE κ] [DecidableLE κ]

/-- An entry put behind all entries whose key is not larger. -/
def insertUpper (e : κ × ν) : List (κ × ν) → List (κ × ν)
  | [] => [e]
  | a :: l => if a.1 ≤ e.1 then a :: insertUpper e l else e :: a :: l

/-- An insertion adds its entry and nothing else. -/
theorem insertUpper_perm (e : κ × ν) (l : List (κ × ν)) : (insertUpper e l).Perm (e :: l) := by
  induction l with
  | nil => exact .refl _
  | cons a l ih =>
      rw [insertUpper]
      split_ifs
      · exact (ih.cons a).trans (.swap e a l)
      · exact .refl _

variable [Std.IsLinearOrder κ]

/-- An insertion keeps the order. -/
theorem sorted_insertUpper (e : κ × ν) {l : List (κ × ν)}
    (h : l.Pairwise fun a b => a.1 ≤ b.1) :
    (insertUpper e l).Pairwise fun a b => a.1 ≤ b.1 := by
  induction l with
  | nil => simp [insertUpper]
  | cons a l ih =>
      obtain ⟨hhead, htail⟩ := List.pairwise_cons.mp h
      rw [insertUpper]
      split_ifs with hle
      · refine List.pairwise_cons.mpr ⟨fun b hb => ?_, ih htail⟩
        rcases List.mem_cons.mp ((insertUpper_perm e l).mem_iff.mp hb) with rfl | hb
        · exact hle
        · exact hhead b hb
      · have hea : e.1 ≤ a.1 := (Std.le_total (a := a.1) (b := e.1)).resolve_left hle
        refine List.pairwise_cons.mpr ⟨fun b hb => ?_, h⟩
        rcases List.mem_cons.mp hb with rfl | hb
        · exact hea
        · exact Std.le_trans hea (hhead b hb)

omit [DecidableLE κ]

variable [DecidableEq κ]

/-- Where no key is smaller than `k`, the run of `k` stands first. -/
theorem take_countP_of_forall_le {k : κ} {l : List (κ × ν)}
    (h : l.Pairwise fun a b => a.1 ≤ b.1) (hle : ∀ e ∈ l, k ≤ e.1) :
    l.take (l.countP fun e => e.1 = k) = l.filter fun e => e.1 = k := by
  induction l with
  | nil => rfl
  | cons a l ih =>
      obtain ⟨hhead, htail⟩ := List.pairwise_cons.mp h
      by_cases hk : a.1 = k
      · simp [hk, ih htail fun e he => hle e (List.mem_cons_of_mem _ he)]
      · have hnone : ∀ e ∈ l, ¬ decide (e.1 = k) = true := by
          intro e he hek
          rw [decide_eq_true_eq] at hek
          exact hk (Std.le_antisymm (hek ▸ hhead e he) (hle a List.mem_cons_self))
        have hcount : (l.countP fun e => e.1 = k) = 0 := List.countP_eq_zero.mpr hnone
        rw [List.countP_cons, hcount, List.filter_cons, List.filter_eq_nil_iff.mpr hnone]
        simp [hk]

/-- The run of `k` starts at the first entry with key `k`. -/
theorem drop_findIdx_take_countP (k : κ) {l : List (κ × ν)}
    (h : l.Pairwise fun a b => a.1 ≤ b.1) :
    (l.drop (l.findIdx fun e => e.1 = k)).take (l.countP fun e => e.1 = k) =
      l.filter fun e => e.1 = k := by
  induction l with
  | nil => rfl
  | cons a l ih =>
      obtain ⟨hhead, htail⟩ := List.pairwise_cons.mp h
      by_cases hk : a.1 = k
      · have hle : ∀ e ∈ a :: l, k ≤ e.1 := by
          intro e he
          rcases List.mem_cons.mp he with rfl | he
          · rw [hk]
            exact Std.le_refl k
          · exact hk ▸ hhead e he
        rw [List.findIdx_cons, decide_eq_true hk]
        exact take_countP_of_forall_le h hle
      · rw [List.findIdx_cons, decide_eq_false hk]
        simpa [hk] using ih htail

end Sorted

/-- Two tests that agree on a list erase the same. -/
theorem eraseP_congr {α : Type*} {p q : α → Bool} {l : List α} (h : ∀ a ∈ l, p a = q a) :
    l.eraseP p = l.eraseP q := by
  induction l with
  | nil => rfl
  | cons a l ih =>
      have htail := ih fun b hb => h b (List.mem_cons_of_mem _ hb)
      rw [List.eraseP_cons, List.eraseP_cons, h a List.mem_cons_self, htail]

/-! ## Multimaps -/

/-- Entries in ascending order of their keys. -/
structure Multimap (κ ν : Type*) [LE κ] where
  entries : List (κ × ν)
  sorted : entries.Pairwise fun a b => a.1 ≤ b.1

namespace Multimap

section Operations

variable {κ ν : Type*} [LE κ]

def empty : Multimap κ ν := ⟨[], .nil⟩

def size (m : Multimap κ ν) : ℕ := m.entries.length

/-- The entry at a position, unless the position is the end. -/
def get? (i : ℕ) (m : Multimap κ ν) : Option (κ × ν) := m.entries[i]?

def erase (i : ℕ) (m : Multimap κ ν) : Multimap κ ν :=
  ⟨m.entries.eraseIdx i, m.sorted.sublist (List.eraseIdx_sublist _ _)⟩

/-- How many entries have the key. -/
def count [DecidableEq κ] (k : κ) (m : Multimap κ ν) : ℕ := m.entries.countP fun e => e.1 = k

/-- The position of the first entry with the key, or the end. -/
def find [DecidableEq κ] (k : κ) (m : Multimap κ ν) : ℕ := m.entries.findIdx fun e => e.1 = k

/-- A new entry goes behind those with the same key. -/
def insert [DecidableLE κ] [Std.IsLinearOrder κ] (e : κ × ν) (m : Multimap κ ν) :
    Multimap κ ν :=
  ⟨insertUpper e m.entries, sorted_insertUpper e m.sorted⟩

end Operations

variable {κ ν : Type*} [LE κ] (m : Multimap κ ν)

/-- A multimap gets the entry inserted and keeps the others. -/
theorem entries_insert_perm [DecidableLE κ] [Std.IsLinearOrder κ] (e : κ × ν) :
    (m.insert e).entries.Perm (e :: m.entries) :=
  insertUpper_perm e m.entries

/-- An erasure takes the entry at its position. -/
@[simp] theorem entries_erase (i : ℕ) : (m.erase i).entries = m.entries.eraseIdx i := rfl

variable [Std.IsLinearOrder κ] [DecidableEq κ]

/-- From `find` on, `count` entries are those with the key. -/
theorem run_eq_filter (k : κ) :
    (m.entries.drop (m.find k)).take (m.count k) = m.entries.filter fun e => e.1 = k :=
  drop_findIdx_take_countP k m.sorted

/-- Removing the first entry with value `v` from the run of `k` removes the entry
`(k, v)`, where there is one. -/
theorem erase_in_run_perm [DecidableEq ν] {k : κ} {v : ν} (h : (k, v) ∈ m.entries) :
    m.entries.Perm ((k, v) ::
      (m.entries.take (m.find k) ++
        ((m.entries.drop (m.find k)).take (m.count k)).eraseP (fun e => e.2 = v) ++
        m.entries.drop (m.find k + m.count k))) := by
  have hrun : (k, v) ∈ (m.entries.drop (m.find k)).take (m.count k) := by
    rw [run_eq_filter]
    simpa using h
  -- within the run, the value decides
  have herase : ((m.entries.drop (m.find k)).take (m.count k)).eraseP (fun e => e.2 = v) =
      ((m.entries.drop (m.find k)).take (m.count k)).erase (k, v) := by
    rw [run_eq_filter, List.erase_eq_eraseP]
    apply eraseP_congr
    intro e he
    have hkey : e.1 = k := by simpa using (List.mem_filter.mp he).2
    rw [Bool.eq_iff_iff, decide_eq_true_iff, beq_iff_eq]
    exact ⟨fun hv => by rw [← hkey, ← hv], fun he => by rw [← he]⟩
  have hsplit : m.entries =
      m.entries.take (m.find k) ++ (m.entries.drop (m.find k)).take (m.count k) ++
        m.entries.drop (m.find k + m.count k) := by
    rw [List.append_assoc, ← List.drop_drop, List.take_append_drop, List.take_append_drop]
  rw [herase]
  conv_lhs => rw [hsplit]
  rw [← List.cons_append]
  refine List.Perm.append_right _ ?_
  exact ((List.perm_cons_erase hrun).append_left _).trans List.perm_middle

end Multimap

end ShootGame.Library
