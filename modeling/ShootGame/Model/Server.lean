import ShootGame.Library.Machine
import ShootGame.Model.MsgLogic

/-!
# The server's main program

`main` of `main2.cpp`: one thread runs the completion handlers of the network layer,
the other one loops through `GetAllMsg`, `GetvecMsg` and `DealMsg`.  Every handler,
every locked section and every iteration of the loop of `DealMsg` is one step, and
the steps interleave in any order.
-/

set_option autoImplicit false

namespace ShootGame.Model

open ShootGame.Library

/-- Where the main loop stands. -/
inductive MainPc where
  | getAllMsg
  /-- `GetAllMsg` has returned this list. -/
  | getvecMsg (vecTmpMsgList : List HMessage)
  /-- `DealMsg` is about to test its loop condition. -/
  | dealMsg (i : ℕ)

/-- The state of the process. -/
structure Server where
  network : MyZServerNetwork
  msgLogic : MsgLogic
  pc : MainPc
  halted : Option Halt

inductive Event where
  /-- The oldest accept completes; the next session is allocated over `junk`. -/
  | acceptDone (error : Bool) (junk : UInt32)
  /-- The read on the socket of `object` completes with `data` in the buffer; the
  message is allocated over `junk`. -/
  | readDone (object : ℕ) (error : Bool) (data : List UInt8) (junk : Junk)
  /-- The main loop takes its next step; a write it makes has this outcome. -/
  | mainStep (junk : DealJunk) (outcome : WriteOutcome)

namespace Server

/-- The process once `main` has called `AcceptConnect` and started the threads. -/
def start (rand : UInt32) : Server where
  network := MyZServerNetwork.empty.acceptConnect rand
  msgLogic := MsgLogic.empty
  pc := .getAllMsg
  halted := none

/-- One iteration of the loop of `DealMsg`. -/
def dealStep (junk : DealJunk) (outcome : WriteOutcome) (i : ℕ) (hmg : HMessage) (s : Server) :
    Server × List Effect :=
  let d := s.msgLogic.dealOne junk hmg
  let logic :=
    { s.msgLogic with vecAllClientMsg := s.msgLogic.vecAllClientMsg.set i d.hmg }
  let s := { s with msgLogic := logic, pc := .dealMsg (i + 1) }
  if d.nullEntry then ({ s with halted := some .nullSession }, [.dealt hmg d.request])
  else
    match d.reply with
    | none => (s, [.dealt hmg d.request])
    | some sendHmg =>
      let r := s.network.sendMsgBySessionID hmg.iSessionID.read sendHmg outcome
      ({ s with network := r.1, halted := r.2.2 }, .dealt hmg d.request :: r.2.1)

def mainStep (junk : DealJunk) (outcome : WriteOutcome) (s : Server) : Server × List Effect :=
  match s.pc with
  | .getAllMsg =>
    let r := s.network.getAllMsg
    ({ s with network := r.2, pc := .getvecMsg r.1 }, [])
  | .getvecMsg vecTmpMsgList =>
    ({ s with msgLogic := s.msgLogic.getvecMsg vecTmpMsgList, pc := .dealMsg 0 }, [])
  | .dealMsg i =>
    match s.msgLogic.vecAllClientMsg[i]? with
    | none =>
      ({ s with msgLogic := { s.msgLogic with vecAllClientMsg := [] }, pc := .getAllMsg }, [])
    | some hmg => dealStep junk outcome i hmg s

/-- One step of the process; nothing is enabled once it has halted.  A read completes
only where one is outstanding, with at most the 4000 bytes it asked for. -/
def step (s : Server) (e : Event) : Option (Server × List Effect) :=
  if s.halted.isSome then none
  else
    match e with
    | .acceptDone error junk =>
      match s.network.accepting with
      | [] => none
      | pCurrentSession :: rest =>
        let r := { s.network with accepting := rest }.handleAccept pCurrentSession error junk
        some ({ s with network := r.1 }, r.2)
    | .readDone object error data junk =>
      match s.network.reading.find? fun session => session.object == object with
      | none => none
      | some pSessionClient =>
        if 4000 < data.length then none
        else
          let waiting := s.network.reading.eraseP fun session => session.object == object
          let r := { s.network with reading := waiting }.handleRead pSessionClient error data junk
          some ({ s with network := r.1 }, r.2)
    | .mainStep junk outcome => some (s.mainStep junk outcome)

end Server

/-- A run of the server's main program from its start. -/
abbrev ServerRun (rand : UInt32) (h : List (Event × List Effect)) (s : Server) : Prop :=
  Runs Server.step (Server.start rand) h s

end ShootGame.Model
