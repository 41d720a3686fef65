import ShootGame.Library.Machine
import ShootGame.Model.ProNetLogic

/-!
# Calls on the client's message logic

The entry points of `UProNetLogic` that a blueprint calls, in any order, as a machine.
The batch of a `DealMsg` is whatever the server made arrive since the last one, asked for
or not.
-/

set_option autoImplicit false

namespace ShootGame.Model

open ShootGame.Library

/-- One call of an entry point. -/
inductive ClientCall (δ : Type) where
  | onLogin (onlogin : δ)
  | onRegister (onregister : δ)
  | gameLogicLogin (junk : GameHMsg.SendJunk) (account password : List UInt8)
  | gameLogicRegister (junk : GameHMsg.SendJunk) (account password : List UInt8)
  | dealMsg (junk : RecvJunk) (vecRecvMsg : List HMessage)

/-- What a call does to the outside: `SendMsgToServer`, or an effect of `DealMsg`. -/
inductive ClientOutput (δ : Type) where
  | sendMsgToServer (hMsg : HMessage)
  | event (e : ClientEvent δ)

namespace UProNetLogic

variable {δ : Type}

/-- The object as `GetInstance` makes it: the delegates are unbound. -/
def newObject : UProNetLogic δ := ⟨none, none⟩

def step (logic : UProNetLogic δ) : ClientCall δ → Option (UProNetLogic δ × List (ClientOutput δ))
  | .onLogin onlogin => some (logic.onLogin onlogin, [])
  | .onRegister onregister => some (logic.onRegister onregister, [])
  | .gameLogicLogin junk account password =>
    some (logic, (GameHMsg.gameLogicLogin junk account password).map .sendMsgToServer)
  | .gameLogicRegister junk account password =>
    some (logic, (GameHMsg.gameLogicRegister junk account password).map .sendMsgToServer)
  | .dealMsg junk vecRecvMsg =>
    some (logic, ((logic.dealMsg junk vecRecvMsg).flatMap DealtMsg.events).map .event)

end UProNetLogic

end ShootGame.Model
