import ShootGame.Library.Machine
import ShootGame.Model.Network

/-!
# The network layer under arbitrary calls

The functions of `MyZServerNetwork` as the two threads may call them: the completion
handlers, and `SendMsgBySessionID` with any id and any message.  No part of the main
program stands between, so that what holds of every run here holds for any caller.
-/

set_option autoImplicit false

namespace ShootGame.Model

open ShootGame.Library

/-- The network, and whether a call has ended the process. -/
structure NetworkLayer where
  network : MyZServerNetwork
  halted : Option Halt

inductive NetworkCall where
  /-- The oldest accept completes; the next session is allocated over `junk`. -/
  | acceptDone (error : Bool) (junk : UInt32)
  /-- The read on the socket of `object` completes with `data` in the buffer; the
  message is allocated over `junk`. -/
  | readDone (object : ℕ) (error : Bool) (data : List UInt8) (junk : Junk)
  | sendMsgBySessionID (iSessionID : Int) (hmg : HMessage) (outcome : WriteOutcome)
  | getAllMsg

namespace NetworkLayer

/-- The network once `main` has called `AcceptConnect`. -/
def start (rand : UInt32) : NetworkLayer where
  network := MyZServerNetwork.empty.acceptConnect rand
  halted := none

/-- One call; nothing is enabled once the process has halted.  A read completes only
where one is outstanding, with at most the 4000 bytes it asked for. -/
def step (s : NetworkLayer) (call : NetworkCall) : Option (NetworkLayer × List Effect) :=
  if s.halted.isSome then none
  else
    match call with
    | .acceptDone error junk =>
      match s.network.accepting with
      | [] => none
      | pCurrentSession :: rest =>
        let r := { s.network with accepting := rest }.handleAccept pCurrentSession error junk
        some ({ s with network := r.1 }, r.2)
    | .readDone object error data junk =>
      match s.network.reading.find? fun session => session.object == object with
      | none => none
      | some pSessionClient =>
        if 4000 < data.length then none
        else
          let waiting := s.network.reading.eraseP fun session => session.object == object
          let r := { s.network with reading := waiting }.handleRead pSessionClient error data junk
          some ({ s with network := r.1 }, r.2)
    | .sendMsgBySessionID iSessionID hmg outcome =>
      let r := s.network.sendMsgBySessionID iSessionID hmg outcome
      some ({ network := r.1, halted := r.2.2 }, r.2.1)
    | .getAllMsg => some ({ s with network := s.network.getAllMsg.2 }, [])

end NetworkLayer

/-- A run of the network layer from its start. -/
abbrev NetworkRun (rand : UInt32) (h : List (NetworkCall × List Effect))
    (s : NetworkLayer) : Prop :=
  Runs NetworkLayer.step (NetworkLayer.start rand) h s

end ShootGame.Model
