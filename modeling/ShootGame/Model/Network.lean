import Std.Data.TreeMap.Lemmas
import ShootGame.Model.Messages

/-!
# The network layer

`MyZServerNetwork`: the table of sessions, the queue of received messages and the
outstanding asynchronous operations.  A completion handler takes the network to the
network afterwards and to the effects it had.

A session is an object on the heap that several places point to.  Nothing but its
read buffer ever changes after construction, and the buffer's contents arrive with
each read completion, so a pointer to a session is modelled by the session's fields
together with `object`, the number of the allocation that made it.  The socket of a
session is identified by the session.  A null `shared_ptr` is `none`.
-/

set_option autoImplicit false

namespace ShootGame.Model

open ShootGame.Library

/-- `class SessionClient`. -/
structure SessionClient where
  object : ℕ
  iID : Int
  dynmicCode : Cell UInt32
deriving DecidableEq, Repr

/-- `class MyZServerNetwork`, with the asynchronous operations it has started and
the number of sessions it has allocated. -/
structure MyZServerNetwork where
  mapAllClientSock : Std.TreeMap Int (Option SessionClient)
  vecAllClientMsg : List HMessage
  iCurrentID : Int
  accepting : List SessionClient
  reading : List SessionClient
  created : ℕ

/-- What a step of the server did that can be seen from outside or that a later step
depends on. -/
inductive Effect where
  /-- `async_read_some` was started on a session's socket. -/
  | armRead (object : ℕ)
  /-- A session was stored in the table, over what the table held under the key. -/
  | store (key : Int) (session : SessionClient) (old : Option (Option SessionClient))
  /-- A failed read on the socket of `object` removed the entry under the key. -/
  | erase (object : ℕ) (key : Int) (old : Option SessionClient)
  /-- A message was queued by a read completion on the socket of `object`. -/
  | enqueue (object : ℕ) (hmg : HMessage)
  /-- `DealMsg` took a message and decoded it. -/
  | dealt (hmg : HMessage) (request : Option Request)
  /-- `SendMsgBySessionID` looked an id up to send a frame. -/
  | lookup (iSessionID : Int) (entry : Option SessionClient) (frame : List UInt8)
  /-- `write_some` took the first `accepted` bytes of a frame. -/
  | write (object : ℕ) (frame : List UInt8) (accepted : ℕ)

inductive Halt where
  | nullSession
  | uncaughtException
deriving DecidableEq, Repr

/-- What `write_some` does with the buffer it is given. -/
inductive WriteOutcome where
  | accepts (n : ℕ)
  | throws
deriving DecidableEq, Repr

namespace MyZServerNetwork

/-- The network before `main` has called anything. -/
def empty : MyZServerNetwork where
  mapAllClientSock := ∅
  vecAllClientMsg := []
  iCurrentID := 0
  accepting := []
  reading := []
  created := 0

/-- `g_iCurrentID++`, and back to `1` past the largest id. -/
def nextID (iCurrentID : Int) : Int :=
  let iCurrentID := iCurrentID + 1
  if iCurrentID > 999999999 then 1 else iCurrentID

/-- `AcceptConnect`, with the value `rand()` returned. -/
def acceptConnect (rand : UInt32) (net : MyZServerNetwork) : MyZServerNetwork :=
  let id := nextID net.iCurrentID
  let pSession : SessionClient := ⟨net.created, id, .assigned rand⟩
  { net with
    iCurrentID := id
    accepting := net.accepting ++ [pSession]
    created := net.created + 1 }

/-- `Handle_accept`.  The error code is not looked at, and the next session's code is
left uninitialised. -/
def handleAccept (pCurrentSession : SessionClient) (_error : Bool) (junk : UInt32)
    (net : MyZServerNetwork) : MyZServerNetwork × List Effect :=
  let id := nextID net.iCurrentID
  let pNextSession : SessionClient := ⟨net.created, id, .unset junk⟩
  ({ net with
      mapAllClientSock := net.mapAllClientSock.insert net.iCurrentID (some pCurrentSession)
      iCurrentID := id
      accepting := net.accepting ++ [pNextSession]
      reading := net.reading ++ [pCurrentSession]
      created := net.created + 1 },
    [.armRead pCurrentSession.object,
      .store net.iCurrentID pCurrentSession net.mapAllClientSock[net.iCurrentID]?])

/-- The part of `Handle_Read` under `if (0 != error)`. -/
def dropSession (pSessionClient : SessionClient) (net : MyZServerNetwork) :
    MyZServerNetwork × List Effect :=
  match net.mapAllClientSock[pSessionClient.iID]? with
  | none => (net, [])
  | some old =>
    ({ net with mapAllClientSock := net.mapAllClientSock.erase pSessionClient.iID },
      [.erase pSessionClient.object pSessionClient.iID old])

/-- The message `Handle_Read` builds from the bytes in the session's buffer. -/
def receivedMsg (pSessionClient : SessionClient) (data : List UInt8) (junk : Junk) : HMessage :=
  { HMessage.ofData junk data with
    iSessionID := .assigned pSessionClient.iID
    dynmicCode := pSessionClient.dynmicCode.map fun code => toInt code.toNat }

/-- `Handle_Read`.  The handler of a failed read runs on into the part for a
successful one. -/
def handleRead (pSessionClient : SessionClient) (error : Bool) (data : List UInt8)
    (junk : Junk) (net : MyZServerNetwork) : MyZServerNetwork × List Effect :=
  let r := if error then net.dropSession pSessionClient else (net, [])
  let pHmg := receivedMsg pSessionClient data junk
  ({ r.1 with
      vecAllClientMsg := r.1.vecAllClientMsg ++ [pHmg]
      reading := r.1.reading ++ [pSessionClient] },
    r.2 ++ [.enqueue pSessionClient.object pHmg, .armRead pSessionClient.object])

/-- `GetAllMsg`: the queue, and the network with the queue emptied. -/
def getAllMsg (net : MyZServerNetwork) : List HMessage × MyZServerNetwork :=
  (net.vecAllClientMsg, { net with vecAllClientMsg := [] })

/-- `SendMsgBySessionID`.  `operator[]` creates a null entry under a missing id, and
the entry is dereferenced either way. -/
def sendMsgBySessionID (iSessionID : Int) (hmg : HMessage) (outcome : WriteOutcome)
    (net : MyZServerNetwork) : MyZServerNetwork × List Effect × Option Halt :=
  let hmg := (hmg.putChar 10).2
  let frame := hmg.finished
  match net.mapAllClientSock[iSessionID]? with
  | none =>
    ({ net with mapAllClientSock := net.mapAllClientSock.insert iSessionID none },
      [.lookup iSessionID none frame], some .nullSession)
  | some none => (net, [.lookup iSessionID none frame], some .nullSession)
  | some (some session) =>
    match outcome with
    | .accepts n =>
      (net, [.lookup iSessionID (some session) frame,
        .write session.object frame (min n frame.length)], none)
    | .throws => (net, [.lookup iSessionID (some session) frame], some .uncaughtException)

end MyZServerNetwork

end ShootGame.Model
