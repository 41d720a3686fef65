import Std.Data.TreeMap.Lemmas
import Mathlib.Data.List.Basic

/-!
# Expiring maps

What a store with lifetimes is for: each key has one value and one expiry time,
storing overwrites both, and an update at a time drops every key that has expired
before it.  Times are integers, without a width.

`AgreeFrom now` relates maps that an update at `now` makes the same.  Storing, removing
and any earlier update keep it, so it does not matter which earlier updates are made.
-/

set_option autoImplicit false

namespace ShootGame.Library

/-- Values with the time they expire. -/
structure ExpiringMap (κ ν : Type) [Ord κ] where
  entries : Std.TreeMap κ (ν × Int)

namespace ExpiringMap

variable {κ ν : Type} [Ord κ]

def empty : ExpiringMap κ ν := ⟨∅⟩

def insert (key : κ) (value : ν) (now lifetime : Int) (m : ExpiringMap κ ν) : ExpiringMap κ ν :=
  ⟨m.entries.insert key (value, now + lifetime)⟩

def del (key : κ) (m : ExpiringMap κ ν) : ExpiringMap κ ν := ⟨m.entries.erase key⟩

/-- Only what expires at `now` or later stays. -/
def update (now : Int) (m : ExpiringMap κ ν) : ExpiringMap κ ν :=
  ⟨m.entries.filter fun _ e => ¬ e.2 < now⟩

def find (key : κ) (m : ExpiringMap κ ν) : Option ν := m.entries[key]?.map Prod.fst

def size (m : ExpiringMap κ ν) : ℕ := m.entries.size

/-! ## What a later update makes the same -/

/-- The maps have the same entries among those that expire at `now` or later. -/
def AgreeFrom (now : Int) (m m' : ExpiringMap κ ν) : Prop :=
  ∀ key : κ, (m.update now).entries[key]? = (m'.update now).entries[key]?

/-- A map agrees with itself from any time on. -/
theorem AgreeFrom.refl (now : Int) (m : ExpiringMap κ ν) : AgreeFrom now m m := fun _ => rfl

section Lookup

variable [Std.TransOrd κ]

/-- An insertion sets the value of its key and the time at which that expires. -/
theorem getElem?_insert (key : κ) (value : ν) (now lifetime : Int) (m : ExpiringMap κ ν)
    (k : κ) : (m.insert key value now lifetime).entries[k]? =
      if compare key k = .eq then some (value, now + lifetime) else m.entries[k]? := by
  rw [insert, Std.TreeMap.getElem?_insert]

/-- A deletion takes its key and no other. -/
theorem getElem?_del (key : κ) (m : ExpiringMap κ ν) (k : κ) :
    (m.del key).entries[k]? = if compare key k = .eq then none else m.entries[k]? := by
  rw [del, Std.TreeMap.getElem?_erase]

variable [Std.LawfulEqOrd κ]

/-- An update keeps what has not expired by its clock. -/
theorem getElem?_update (now : Int) (m : ExpiringMap κ ν) (key : κ) :
    (m.update now).entries[key]? = m.entries[key]?.filter fun e => ¬e.2 < now := by
  rw [update, Std.TreeMap.getElem?_filter']

variable {now : Int} {m m' : ExpiringMap κ ν}

/-- The same insertion keeps two maps in agreement. -/
theorem AgreeFrom.insert (h : AgreeFrom now m m') (key : κ) (value : ν) (time lifetime : Int) :
    AgreeFrom now (m.insert key value time lifetime) (m'.insert key value time lifetime) := by
  intro k
  have hk := h k
  rw [getElem?_update, getElem?_update] at hk
  rw [getElem?_update, getElem?_update, getElem?_insert, getElem?_insert]
  split_ifs
  · rfl
  · exact hk

/-- The same deletion keeps two maps in agreement. -/
theorem AgreeFrom.del (h : AgreeFrom now m m') (key : κ) :
    AgreeFrom now (m.del key) (m'.del key) := by
  intro k
  have hk := h k
  rw [getElem?_update, getElem?_update] at hk
  rw [getElem?_update, getElem?_update, getElem?_del, getElem?_del]
  split_ifs
  · rfl
  · exact hk

/-- An update that comes before `now` drops nothing that `now` would keep. -/
theorem AgreeFrom.update (h : AgreeFrom now m m') {earlier : Int} (hle : earlier ≤ now) :
    AgreeFrom now (m.update earlier) m' := by
  intro k
  rw [← h k, getElem?_update, getElem?_update, getElem?_update, Option.filter_filter]
  congr 1
  funext e
  by_cases hnow : e.2 < now
  · simp [hnow]
  · simp [hnow, show ¬e.2 < earlier by omega]

end Lookup

end ExpiringMap

/-- Tree maps with the same keys are of the same size. -/
theorem size_eq_of_mem_iff {κ α β : Type} [Ord κ] [Std.TransOrd κ] [Std.LawfulEqOrd κ]
    {t : Std.TreeMap κ α} {u : Std.TreeMap κ β} (h : ∀ k, k ∈ t ↔ k ∈ u) : t.size = u.size := by
  have hperm : t.keys.Perm u.keys := by
    rw [List.perm_ext_iff_of_nodup Std.TreeMap.nodup_keys Std.TreeMap.nodup_keys]
    intro k
    rw [Std.TreeMap.mem_keys, Std.TreeMap.mem_keys, h]
  rw [← Std.TreeMap.length_keys, ← Std.TreeMap.length_keys, hperm.length_eq]

end ShootGame.Library
