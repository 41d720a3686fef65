import Mathlib.Logic.Function.Basic
import ShootGame.Model.MessageOps

/-!
# The client's message objects

An `HMessage` of `GameHMsg.h` holds its bytes in `m_byBuffer` and reaches them through
`m_pData`.  The member functions go through the pointer, `GetData` answers with the
array, and the class declares no copies: the compiler's copy every member, the pointer
included.

An object is named by the place it is built at, and `pData` is the place whose
`m_byBuffer` the pointer designates.  There is no destructor: a place keeps its bytes
until the next object is built there.
-/

set_option autoImplicit false

namespace ShootGame.Model

open ShootGame.Library

/-- `class HMessage` with its pointer. -/
structure MsgObject where
  hmg : HMessage
  pData : ℕ

/-- Every place, and whether an object lives there. -/
structure MsgObjects where
  place : ℕ → MsgObject
  live : ℕ → Bool

/-- What the compiler's copies do to the members other than the pointer. -/
def GameHMsg.copyFrom (source target : HMessage) : HMessage :=
  { source with
    byBuffer := target.byBuffer.store 0 (source.byBuffer.load 0 GameHMsg.bufferSize)
    accesses := target.accesses ++ [⟨true, 0, GameHMsg.bufferSize⟩] }

namespace MsgObjects

/-- No object is alive. -/
def empty (place : ℕ → MsgObject) : MsgObjects := ⟨place, fun _ => false⟩

def build (self : ℕ) (object : MsgObject) (objects : MsgObjects) : MsgObjects where
  place := Function.update objects.place self object
  live := Function.update objects.live self true

/-- The members as a member function sees them: the bytes are those behind `m_pData`. -/
def through (objects : MsgObjects) (self : ℕ) : HMessage :=
  let object := objects.place self
  { object.hmg with byBuffer := (objects.place object.pData).hmg.byBuffer }

/-- What a member function leaves: its bytes went behind `m_pData`. -/
def writeThrough (self : ℕ) (hmg : HMessage) (objects : MsgObjects) : MsgObjects :=
  let target := (objects.place self).pData
  { objects with
    place := fun a =>
      let members := if a = self then hmg else (objects.place a).hmg
      let bytes := if a = target then hmg.byBuffer else (objects.place a).hmg.byBuffer
      { objects.place a with hmg := { members with byBuffer := bytes } } }

end MsgObjects

/-- One thing that happens to an object. -/
inductive ObjectOp where
  /-- `HMessage()` -/
  | new (self : ℕ) (junk : Junk)
  /-- `HMessage(const char * data, int iLen)` -/
  | ofData (self : ℕ) (junk : Junk) (data : List UInt8)
  /-- the compiler's copy constructor -/
  | copyOf (self source : ℕ) (junk : Junk)
  /-- the compiler's `operator =` -/
  | assign (self source : ℕ)
  | call (self : ℕ) (op : MsgOp)
  /-- `GetData`, and `iLen` bytes read from there -/
  | getData (self iLen : ℕ)
  | destroy (self : ℕ)

inductive ObjectResult where
  | result (r : MsgResult)
  | bytes (data : List UInt8)
deriving DecidableEq, Repr

namespace ObjectOp

/-- An object is built where none is alive; everything else is done with live ones. -/
def Enabled (objects : MsgObjects) : ObjectOp → Prop
  | new self _ | ofData self _ _ => objects.live self = false
  | copyOf self source _ => objects.live self = false ∧ objects.live source = true
  | assign self source => objects.live self = true ∧ objects.live source = true
  | call self _ | getData self _ | destroy self => objects.live self = true

instance (objects : MsgObjects) (op : ObjectOp) : Decidable (op.Enabled objects) :=
  match op with
  | new self _ | ofData self _ _ => inferInstanceAs (Decidable (objects.live self = false))
  | copyOf self source _ =>
    inferInstanceAs (Decidable (objects.live self = false ∧ objects.live source = true))
  | assign self source =>
    inferInstanceAs (Decidable (objects.live self = true ∧ objects.live source = true))
  | call self _ | getData self _ | destroy self =>
    inferInstanceAs (Decidable (objects.live self = true))

def effect (objects : MsgObjects) : ObjectOp → MsgObjects × List ObjectResult
  | new self junk => (objects.build self ⟨HMessage.new junk, self⟩, [])
  | ofData self junk data => (objects.build self ⟨HMessage.ofData junk data, self⟩, [])
  | copyOf self source junk =>
    let copied := objects.place source
    (objects.build self ⟨GameHMsg.copyFrom copied.hmg (HMessage.new junk), copied.pData⟩, [])
  | assign self source =>
    let copied := objects.place source
    (objects.build self ⟨GameHMsg.copyFrom copied.hmg (objects.place self).hmg, copied.pData⟩, [])
  | call self op =>
    let r := op.gameRun (objects.through self)
    (objects.writeThrough self r.2, [.result r.1])
  | getData self iLen => (objects, [.bytes ((objects.place self).hmg.byBuffer.load 0 iLen)])
  | destroy self => ({ objects with live := Function.update objects.live self false }, [])

def step (objects : MsgObjects) (op : ObjectOp) : Option (MsgObjects × List ObjectResult) :=
  if op.Enabled objects then some (op.effect objects) else none

/-- A step is possible exactly if the operation is enabled, and has its effect. -/
theorem step_eq_some_iff {objects objects' : MsgObjects} {op : ObjectOp}
    {o : List ObjectResult} :
    step objects op = some (objects', o) ↔
      op.Enabled objects ∧ op.effect objects = (objects', o) := by
  unfold step
  split_ifs with henabled
  · rw [Option.some.injEq, and_iff_right henabled]
  · exact iff_of_false (by simp) fun h => henabled h.1

end ObjectOp

/-- A run from a state in which no object is alive. -/
abbrev ObjectRun (place : ℕ → MsgObject) (h : List (ObjectOp × List ObjectResult))
    (objects : MsgObjects) : Prop :=
  Runs ObjectOp.step (MsgObjects.empty place) h objects

end ShootGame.Model
