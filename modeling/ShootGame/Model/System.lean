import ShootGame.Model.ClientCalls
import ShootGame.Model.Server

/-!
# The server and its clients

The two programs with the connections between them.  What `SendMsgToServer` sends goes
into the byte stream of its connection, and a read completion of the server takes any
first part of what is there; a read that fails takes nothing.  What the server writes to
a session goes to the client of that connection, and a `DealMsg` of it finds any first
part of these writes arrived.

`SendMsgToServer` and `RecvMsgFromServer` are in a library of which the repository has the
header only.  They are parameters: nothing is said here of what they do.
-/

set_option autoImplicit false

namespace ShootGame.Model

open ShootGame.Library

/-- `ProNetWork.h`, without `Connect` and `DisConnect`.  The messages that
`RecvMsgFromServer` returns are as their member functions see them, with the bytes behind
`m_pData`, and so is the copy that `DealMsg` makes of each; their storage is what they are
built over. -/
structure ProNetWork where
  /-- The bytes that a call sends. -/
  sendMsgToServer : HMessage → List UInt8
  /-- The messages returned when these bytes have arrived since the last call. -/
  recvMsgFromServer : (storage : ℕ → Junk) → List UInt8 → List HMessage

/-- A client and what is on its way between it and the server. -/
structure Connection (δ : Type) where
  logic : UProNetLogic δ
  /-- Sent by the client and not read by the server yet. -/
  uplink : List UInt8
  /-- Written by the server and not received by the client yet. -/
  downlink : List (List UInt8)

/-- The server with its clients; a connection has the number of its session object. -/
structure System (δ : Type) where
  server : Server
  connections : ℕ → Connection δ

inductive SystemEvent (δ : Type) where
  | server (e : Event)
  | onLogin (object : ℕ) (onlogin : δ)
  | onRegister (object : ℕ) (onregister : δ)
  | gameLogicLogin (object : ℕ) (junk : GameHMsg.SendJunk) (account password : List UInt8)
  | gameLogicRegister (object : ℕ) (junk : GameHMsg.SendJunk) (account password : List UInt8)
  /-- `DealMsg`, when `n` writes of the server have arrived; the storage of the messages
  and of the local objects is arbitrary. -/
  | dealMsg (object n : ℕ) (junk : RecvJunk) (storage : ℕ → Junk)

inductive SystemEffect (δ : Type) where
  | server (eff : Effect)
  | client (object : ℕ) (out : ClientOutput δ)

/-- What a write of the server sends to the client of `object`. -/
def writtenTo (object : ℕ) : Effect → Option (List UInt8)
  | .write o frame accepted => if o = object then some (frame.take accepted) else none
  | _ => none

/-- What a call of the client sends. -/
def sentMsg (lib : ProNetWork) {δ : Type} : ClientOutput δ → List UInt8
  | .sendMsgToServer hMsg => lib.sendMsgToServer hMsg
  | .event _ => []

namespace System

variable {δ : Type}

def start (rand : UInt32) : System δ where
  server := Server.start rand
  connections _ := ⟨UProNetLogic.newObject, [], []⟩

/-- What a read completion takes off the stream of its connection. -/
def taken : Event → ℕ → List UInt8
  | .readDone object false data _, o => if o = object then data else []
  | _, _ => []

/-- A successful read takes bytes that are there. -/
def Readable (s : System δ) : Event → Prop
  | .readDone object false data _ => data <+: (s.connections object).uplink
  | _ => True

instance (s : System δ) (e : Event) : Decidable (s.Readable e) := by
  unfold Readable
  split <;> infer_instance

def stepServer (e : Event) (s : System δ) : Option (System δ × List (SystemEffect δ)) :=
  if s.Readable e then
    (s.server.step e).map fun r =>
      ({ server := r.1
         connections := fun object =>
          let c := s.connections object
          { c with
            uplink := c.uplink.drop (taken e object).length
            downlink := c.downlink ++ r.2.filterMap (writtenTo object) } },
        r.2.map .server)
  else none

/-- A call of the client of `object`; `n` writes have arrived before it. -/
def stepClient (lib : ProNetWork) (object n : ℕ) (call : ClientCall δ) (s : System δ) :
    Option (System δ × List (SystemEffect δ)) :=
  let c := s.connections object
  (c.logic.step call).map fun r =>
    ({ s with
       connections := Function.update s.connections object
        { logic := r.1
          uplink := c.uplink ++ r.2.flatMap (sentMsg lib)
          downlink := c.downlink.drop n } },
      r.2.map (.client object))

def step (lib : ProNetWork) (s : System δ) :
    SystemEvent δ → Option (System δ × List (SystemEffect δ))
  | .server e => s.stepServer e
  | .onLogin object onlogin => s.stepClient lib object 0 (.onLogin onlogin)
  | .onRegister object onregister => s.stepClient lib object 0 (.onRegister onregister)
  | .gameLogicLogin object junk account password =>
    s.stepClient lib object 0 (.gameLogicLogin junk account password)
  | .gameLogicRegister object junk account password =>
    s.stepClient lib object 0 (.gameLogicRegister junk account password)
  | .dealMsg object n junk storage =>
    let arrived := ((s.connections object).downlink.take n).flatten
    s.stepClient lib object n (.dealMsg junk (lib.recvMsgFromServer storage arrived))

end System

/-- A run of the server and any number of clients. -/
abbrev SystemRun (lib : ProNetWork) {δ : Type} (rand : UInt32)
    (h : List (SystemEvent δ × List (SystemEffect δ))) (s : System δ) : Prop :=
  Runs (System.step lib) (System.start rand) h s

end ShootGame.Model
