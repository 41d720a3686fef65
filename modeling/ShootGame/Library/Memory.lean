import Mathlib.Data.List.Basic
import Mathlib.Data.List.GetD
import Mathlib.Data.List.TakeWhile
import Mathlib.Data.Int.Init
import Mathlib.Tactic.Ring
import ShootGame.Library.ByteOrder

/-!
# Byte memory behind a pointer

`Memory` is what a program sees through one base pointer: a byte at every integer
offset, inside an object or around it.  `load` reads a run of bytes, `store` copies
a list of bytes in, and the lemmas say how the two interact (read what was
written, read beside what was written, write twice in a row).

`cString` is what a C string function makes of a run of bytes: everything before
the first NUL.  `Cell` is a variable that may never have been assigned.
-/

set_option autoImplicit false

namespace ShootGame.Library

/-- The bytes at every offset from a base pointer. -/
abbrev Memory := Int → UInt8

namespace Memory

/-- The `n` bytes from offset `p` on. -/
def load (mem : Memory) (p : Int) (n : ℕ) : List UInt8 :=
  (List.range n).map fun k : ℕ => mem (p + k)

/-- The memory after `bs` has been copied to offset `p`. -/
def store (mem : Memory) (p : Int) (bs : List UInt8) : Memory := fun i =>
  if p ≤ i ∧ i < p + bs.length then bs.getD (i - p).toNat 0 else mem i

/-- The little-endian 16-bit word at offset `p`. -/
def wordAt (mem : Memory) (p : Int) : UInt16 := leWord (mem p) (mem (p + 1))

def dwordAt (mem : Memory) (p : Int) : UInt32 :=
  beWord (mem p) (mem (p + 1)) (mem (p + 2)) (mem (p + 3))

/-- A load yields as many bytes as it asks for. -/
@[simp] theorem load_length (mem : Memory) (p : Int) (n : ℕ) : (mem.load p n).length = n := by
  simp [load]

/-- A load of no bytes. -/
@[simp] theorem load_zero (mem : Memory) (p : Int) : mem.load p 0 = [] := rfl

/-- The bytes of a load are those of the memory. -/
theorem load_getElem? (mem : Memory) (p : Int) (n k : ℕ) (hk : k < n) :
    (mem.load p n)[k]? = some (mem (p + k)) := by
  simp [load, hk]

/-- A load may be cut in two. -/
theorem load_add (mem : Memory) (p : Int) (m n : ℕ) :
    mem.load p (m + n) = mem.load p m ++ mem.load (p + m) n := by
  simp only [load, List.range_add, List.map_append, List.map_map]
  congr 1
  apply List.map_congr_left
  intro k _
  simp only [Function.comp_apply, Nat.cast_add]
  congr 1
  ring

/-- The first byte of a load, and the others. -/
theorem load_succ (mem : Memory) (p : Int) (n : ℕ) :
    mem.load p (n + 1) = mem p :: mem.load (p + 1) n := by
  rw [Nat.add_comm, load_add]
  simp [load]

/-- A load depends on the bytes that it covers, and on no others. -/
theorem load_congr {mem mem' : Memory} {p : Int} {n : ℕ}
    (h : ∀ i, p ≤ i → i < p + n → mem i = mem' i) : mem.load p n = mem'.load p n := by
  apply List.map_congr_left
  intro k hk
  rw [List.mem_range] at hk
  exact h _ (by omega) (by omega)

/-- A byte that is loaded stands somewhere in the range. -/
theorem mem_load {mem : Memory} {p : Int} {n : ℕ} {b : UInt8} :
    b ∈ mem.load p n ↔ ∃ k < n, mem (p + k) = b := by
  simp [load]

/-- Inside the range of a store stand its bytes. -/
theorem store_apply_inside (mem : Memory) {p i : Int} {bs : List UInt8}
    (hlo : p ≤ i) (hhi : i < p + bs.length) : mem.store p bs i = bs.getD (i - p).toNat 0 :=
  if_pos ⟨hlo, hhi⟩

/-- Outside the range of a store nothing changes. -/
theorem store_apply_outside (mem : Memory) {p i : Int} {bs : List UInt8}
    (h : i < p ∨ p + bs.length ≤ i) : mem.store p bs i = mem i :=
  if_neg (by omega)

/-- A store of no bytes changes nothing. -/
@[simp] theorem store_nil (mem : Memory) (p : Int) : mem.store p [] = mem := by
  funext i
  exact store_apply_outside mem (by simp; omega)

/-- Two stores, one behind the other, are one. -/
theorem store_append (mem : Memory) (p : Int) (as bs : List UInt8) :
    (mem.store p as).store (p + as.length) bs = mem.store p (as ++ bs) := by
  funext i
  by_cases hb : p + as.length ≤ i ∧ i < p + as.length + bs.length
  · rw [store_apply_inside _ hb.1 hb.2,
      store_apply_inside mem (by omega) (by simp only [List.length_append]; omega),
      List.getD_append_right _ _ _ _ (by omega)]
    congr 1
    omega
  · rw [store_apply_outside _ (by omega)]
    by_cases ha : p ≤ i ∧ i < p + as.length
    · rw [store_apply_inside mem ha.1 ha.2,
        store_apply_inside mem ha.1 (by simp only [List.length_append]; omega),
        List.getD_append _ _ _ _ (by omega)]
    · rw [store_apply_outside mem (by omega),
        store_apply_outside mem (by simp only [List.length_append]; omega)]

/-- Reading back what was copied in. -/
theorem load_store (mem : Memory) (p : Int) (bs : List UInt8) :
    (mem.store p bs).load p bs.length = bs := by
  apply List.ext_getElem?
  intro k
  by_cases hk : k < bs.length
  · rw [load_getElem? _ _ _ _ hk, store_apply_inside mem (by omega) (by omega),
      List.getElem?_eq_getElem hk, show (p + k - p).toNat = k by omega,
      List.getD_eq_getElem _ _ hk]
  · rw [List.getElem?_eq_none (by simpa using hk), List.getElem?_eq_none (by simpa using hk)]

/-- A load of the length of a store yields its bytes. -/
theorem load_store_of_length (mem : Memory) (p : Int) {bs : List UInt8} {n : ℕ}
    (h : bs.length = n) : (mem.store p bs).load p n = bs := by
  subst h
  exact load_store mem p bs

/-- A load inside a store yields a part of its bytes. -/
theorem load_store_inside (mem : Memory) {data : List UInt8} {q n : ℕ}
    (h : q + n ≤ data.length) : (mem.store 0 data).load q n = (data.drop q).take n := by
  apply List.ext_getElem?
  intro k
  by_cases hk : k < n
  · rw [load_getElem? _ _ _ _ hk, store_apply_inside mem (by omega) (by omega),
      List.getElem?_take_of_lt hk, List.getElem?_drop, List.getElem?_eq_getElem (by omega),
      List.getD_eq_getElem _ _ (by omega)]
    congr 1
  · rw [List.getElem?_eq_none (by simpa using hk), List.getElem?_eq_none (by simp; omega)]

/-- A read of a middle part of what was copied to the base. -/
theorem load_store_slice (mem : Memory) (as bs cs : List UInt8) {q : Int} {n : ℕ}
    (hq : q = as.length) (hn : n = bs.length) :
    (mem.store 0 (as ++ (bs ++ cs))).load q n = bs := by
  subst hq hn
  have hall := load_store mem 0 (as ++ (bs ++ cs))
  rw [List.length_append, load_add, List.length_append, load_add] at hall
  have hrest := (List.append_inj hall (by simp)).2
  rw [zero_add] at hrest
  exact (List.append_inj hrest (by simp)).1

/-- A load that does not meet a store is not changed by it. -/
theorem load_store_disjoint (mem : Memory) {p q : Int} {n : ℕ} {bs : List UInt8}
    (h : q + n ≤ p ∨ p + bs.length ≤ q) : (mem.store p bs).load q n = mem.load q n :=
  load_congr fun i hlo hhi => store_apply_outside mem (by omega)

/-- A stored 16-bit word is read back where it was stored. -/
theorem wordAt_of_load {mem : Memory} {p : Int} {w : UInt16} (h : mem.load p 2 = leBytes w) :
    mem.wordAt p = w := by
  have hbytes : mem.load p 2 = [mem p, mem (p + 1)] := by rw [load_succ, load_succ, load_zero]
  rw [hbytes] at h
  simp only [leBytes, List.cons.injEq, and_true] at h
  rw [wordAt, h.1, h.2, leWord_leBytes]

/-- Four bytes in memory, read as the word they are. -/
theorem dwordAt_of_load {mem : Memory} {p : Int} {w : UInt32} (h : mem.load p 4 = beBytes w) :
    mem.dwordAt p = w := by
  have hbytes : mem.load p 4 = [mem p, mem (p + 1), mem (p + 2), mem (p + 3)] := by
    rw [load_succ, load_succ, load_succ, load_succ, load_zero, add_assoc, add_assoc]
    rfl
  rw [hbytes] at h
  simp only [beBytes, List.cons.injEq, and_true] at h
  rw [dwordAt, h.1, h.2.1, h.2.2.1, h.2.2.2, beWord_beBytes]

/-- Two bytes in memory are those of the word there. -/
theorem load_two (mem : Memory) (p : Int) : mem.load p 2 = leBytes (mem.wordAt p) := by
  rw [wordAt, leBytes_leWord, load_succ, load_succ, load_zero]

/-- The last of the four bytes can be read off the word. -/
theorem apply_eq_of_dwordAt_eq {mem mem' : Memory} {p : Int}
    (h : mem.dwordAt p = mem'.dwordAt p) : mem (p + 3) = mem' (p + 3) := by
  have hbytes := congrArg beBytes h
  rw [dwordAt, dwordAt, beBytes_beWord, beBytes_beWord] at hbytes
  simp only [List.cons.injEq, and_true] at hbytes
  exact hbytes.2.2.2

/-- A 16-bit load depends on two bytes. -/
theorem wordAt_congr {mem mem' : Memory} {p : Int}
    (h : ∀ i, p ≤ i → i < p + 2 → mem i = mem' i) : mem.wordAt p = mem'.wordAt p := by
  rw [wordAt, wordAt, h p (by omega) (by omega), h (p + 1) (by omega) (by omega)]

/-- A 32-bit load depends on four bytes. -/
theorem dwordAt_congr {mem mem' : Memory} {p : Int}
    (h : ∀ i, p ≤ i → i < p + 4 → mem i = mem' i) : mem.dwordAt p = mem'.dwordAt p := by
  rw [dwordAt, dwordAt, h p (by omega) (by omega), h (p + 1) (by omega) (by omega),
    h (p + 2) (by omega) (by omega), h (p + 3) (by omega) (by omega)]

end Memory

/-- The bytes a C string function sees: everything before the first NUL. -/
def cString (bs : List UInt8) : List UInt8 := bs.takeWhile fun b => b ≠ 0

/-- A C string is not longer than the bytes it is read from. -/
theorem cString_length_le (bs : List UInt8) : (cString bs).length ≤ bs.length :=
  (List.takeWhile_prefix _).length_le

/-- A C string ends before the first zero. -/
theorem zero_notMem_cString (bs : List UInt8) : 0 ∉ cString bs := by
  intro h
  simpa using List.mem_takeWhile_imp h

/-- A run of bytes without a NUL is its own C string. -/
theorem cString_eq_self {bs : List UInt8} (h : 0 ∉ bs) : cString bs = bs := by
  apply List.takeWhile_eq_self_iff.mpr
  intro b hb
  simp only [ne_eq, decide_not, Bool.not_eq_eq_eq_not, Bool.not_true, decide_eq_false_iff_not]
  rintro rfl
  exact h hb

/-! ## Variables -/

/-- A variable: what was assigned to it, or the junk it holds before that. -/
inductive Cell (α : Type) where
  | unset (junk : α)
  | assigned (a : α)
deriving DecidableEq, Repr

namespace Cell

variable {α β : Type}

def read : Cell α → α
  | unset junk => junk
  | assigned a => a

def IsAssigned : Cell α → Prop
  | unset _ => False
  | assigned _ => True

instance (c : Cell α) : Decidable c.IsAssigned :=
  match c with
  | unset _ => .isFalse id
  | assigned _ => .isTrue trivial

/-- Copying through a conversion: a copy of junk is junk. -/
def map (f : α → β) : Cell α → Cell β
  | unset junk => unset (f junk)
  | assigned a => assigned (f a)

/-- A function of a value leaves open whether it was assigned. -/
@[simp] theorem isAssigned_map (f : α → β) (c : Cell α) :
    (c.map f).IsAssigned ↔ c.IsAssigned := by
  cases c <;> rfl

end Cell

end ShootGame.Library
