import ShootGame.Library.Machine
import ShootGame.Model.GameMessages

/-!
# Calls on a message

The member functions of `HMessage` as the calls of one interface, so that a message can
be followed through any sequence of them.  `MsgOp.run` makes a call on the server's
`HMessage`, `MsgOp.gameRun` on the client's.
-/

set_option autoImplicit false

namespace ShootGame.Model

open ShootGame.Library

/-- `SetPos`, without a check. -/
def HMessage.setPos (iPos : Int) (hmg : HMessage) : HMessage := { hmg with iPos := iPos }

/-- `SetPos` of the client. -/
def GameHMsg.setPos (iPos : Int) (hmg : HMessage) : HMessage := { hmg with iPos := iPos }

/-- One call of a member function. -/
inductive MsgOp where
  | put (p : Put)
  | getByte
  | getUShort
  | getUInt
  | getString
  | setPos (iPos : Int)
  | addPosition (iAddition : Int)
  | getPosition
deriving DecidableEq, Repr

/-- What a call returns. -/
inductive MsgResult where
  | report (ok : Bool)
  | byte (data : UInt8)
  | uShort (data : UInt16)
  | uInt (data : UInt32)
  | string (str : List UInt8)
  | position (iPos : Int)
  | none
deriving DecidableEq, Repr

namespace MsgOp

/-- The call on the server's `HMessage`. -/
def run : MsgOp → HMessage → MsgResult × HMessage
  | put p, hmg => (.report (p.run hmg).1, (p.run hmg).2)
  | getByte, hmg => (.byte hmg.getByte.1, hmg.getByte.2)
  | getUShort, hmg => (.uShort hmg.getUShort.1, hmg.getUShort.2)
  | getUInt, hmg => (.uInt hmg.getUInt.1, hmg.getUInt.2)
  | getString, hmg => (.string hmg.getString.1, hmg.getString.2)
  | setPos iPos, hmg => (.none, hmg.setPos iPos)
  | addPosition iAddition, hmg => (.none, hmg.addPosition iAddition)
  | getPosition, hmg => (.position hmg.getPosition.1, hmg.getPosition.2)

/-- The call on the client's `HMessage`. -/
def gameRun : MsgOp → HMessage → MsgResult × HMessage
  | put p, hmg => (.report (p.gameRun hmg).1, (p.gameRun hmg).2)
  | getByte, hmg => (.byte (GameHMsg.getByte hmg).1, (GameHMsg.getByte hmg).2)
  | getUShort, hmg => (.uShort (GameHMsg.getUShort hmg).1, (GameHMsg.getUShort hmg).2)
  | getUInt, hmg => (.uInt (GameHMsg.getUInt hmg).1, (GameHMsg.getUInt hmg).2)
  | getString, hmg => (.string (GameHMsg.getString hmg).1, (GameHMsg.getString hmg).2)
  | setPos iPos, hmg => (.none, GameHMsg.setPos iPos hmg)
  | addPosition iAddition, hmg => (.none, GameHMsg.addPosition iAddition hmg)
  | getPosition, hmg => (.position (GameHMsg.getPosition hmg).1, (GameHMsg.getPosition hmg).2)

/-- A call does the same on both sides. -/
theorem gameRun_eq : gameRun = run := by
  funext op hmg
  cases op with
  | put p => simp only [gameRun, run, GameHMsg.gameRun_eq]
  | _ => rfl

/-- A call as a step of the message. -/
def step (hmg : HMessage) (op : MsgOp) : Option (HMessage × List MsgResult) :=
  some ((op.run hmg).2, [(op.run hmg).1])

/-- An operation is always possible, and does what it computes. -/
theorem step_eq_some_iff {hmg hmg' : HMessage} {op : MsgOp} {o : List MsgResult} :
    step hmg op = some (hmg', o) ↔ hmg' = (op.run hmg).2 ∧ o = [(op.run hmg).1] := by
  unfold step
  rw [Option.some.injEq, Prod.mk.injEq]
  constructor
  · rintro ⟨rfl, rfl⟩
    exact ⟨rfl, rfl⟩
  · rintro ⟨rfl, rfl⟩
    exact ⟨rfl, rfl⟩

end MsgOp

/-- A message as one of the two constructors leaves it. -/
inductive Constructed : HMessage → Prop
  | new (junk : Junk) : Constructed (HMessage.new junk)
  | ofData (junk : Junk) (data : List UInt8) : Constructed (HMessage.ofData junk data)

end ShootGame.Model
