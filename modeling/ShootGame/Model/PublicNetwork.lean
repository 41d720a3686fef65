import ShootGame.Model.MsgLogic
import ShootGame.Model.NetworkCalls

/-!
# Players and snapshots

The public functions around the session table that `main` does not call:
`SendMsgByPlayerID` with the table of players, `GetAllClient`, which `GetmapAllClient` of
the message logic takes a copy of, and `CheckDynmicCode` on that copy.  Here they may be
called at any time between the calls of the network layer.

A copy of the table points to the same sessions, of which no field is assigned after they
have been stored.
-/

set_option autoImplicit false

namespace ShootGame.Model

open ShootGame.Library

/-- `GetAllClient`. -/
def MyZServerNetwork.getAllClient (net : MyZServerNetwork) :
    Std.TreeMap Int (Option SessionClient) :=
  net.mapAllClientSock

/-- The network layer with `m_mapAllPlayer`, and the message logic. -/
structure PublicNetwork where
  layer : NetworkLayer
  mapAllPlayer : Std.TreeMap Int Int
  logic : MsgLogic

inductive PublicCall where
  | network (call : NetworkCall)
  | sendMsgByPlayerID (iPlayerID : Int) (hmg : HMessage) (outcome : WriteOutcome)
  /-- `GetmapAllClient(GetAllClient())`. -/
  | getmapAllClient
  | checkDynmicCode (id dc : Int)

inductive PublicEffect where
  | network (eff : Effect)
  /-- The message logic took this copy of the table. -/
  | copied (mapClient : Std.TreeMap Int (Option SessionClient))
  /-- `CheckDynmicCode` returned. -/
  | checked (ok : Bool)

namespace PublicNetwork

def start (rand : UInt32) : PublicNetwork where
  layer := NetworkLayer.start rand
  mapAllPlayer := ∅
  logic := MsgLogic.empty

/-- `SendMsgByPlayerID`: `operator[]` creates an entry with session `0` under a missing
player. -/
def sendMsgByPlayerID (iPlayerID : Int) (hmg : HMessage) (outcome : WriteOutcome)
    (s : PublicNetwork) : Option (PublicNetwork × List PublicEffect) :=
  let iSessionID := s.mapAllPlayer[iPlayerID]?.getD 0
  (s.layer.step (.sendMsgBySessionID iSessionID hmg outcome)).map fun r =>
    ({ s with
       layer := r.1
       mapAllPlayer := s.mapAllPlayer.insert iPlayerID iSessionID },
      r.2.map .network)

/-- One call; nothing is enabled once the process has halted. -/
def step (s : PublicNetwork) (call : PublicCall) : Option (PublicNetwork × List PublicEffect) :=
  if s.layer.halted.isSome then none
  else
    match call with
    | .network call => (s.layer.step call).map fun r => ({ s with layer := r.1 }, r.2.map .network)
    | .sendMsgByPlayerID iPlayerID hmg outcome => s.sendMsgByPlayerID iPlayerID hmg outcome
    | .getmapAllClient =>
      let mapClient := s.layer.network.getAllClient
      some ({ s with logic := s.logic.getmapAllClient mapClient }, [.copied mapClient])
    | .checkDynmicCode id dc =>
      match s.logic.checkDynmicCode id dc with
      | none => some ({ s with layer := { s.layer with halted := some .nullSession } }, [])
      | some ok => some (s, [.checked ok])

end PublicNetwork

/-- A run from the start of the network layer. -/
abbrev PublicRun (rand : UInt32) (h : List (PublicCall × List PublicEffect))
    (s : PublicNetwork) : Prop :=
  Runs PublicNetwork.step (PublicNetwork.start rand) h s

end ShootGame.Model
