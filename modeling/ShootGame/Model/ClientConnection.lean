import ShootGame.Library.Machine

/-!
# The client's connection

`GetInstance`, `Connect` and the destructor of `UProNetLogic`: one object at a time, kept
in `m_pNetLogic`, which the garbage collector of the engine may destroy whenever it likes.
`ProNetWork::Connect` and `ProNetWork::DisConnect` are in a library; what the first returns
is an argument.  The delegates of an object have no part in this.
-/

set_option autoImplicit false

namespace ShootGame.Model

open ShootGame.Library

/-- What `IpConfig.ini` has in its section `IP/Port`. -/
structure IpConfig where
  ipAddress : Option (List UInt8)
  port : Option Int
deriving DecidableEq, Repr

/-- The objects of `UProNetLogic`, known by the number of their construction. -/
structure NetLogicObjects where
  pNetLogic : Option ℕ
  /-- `m_isConneted` of each object. -/
  isConneted : ℕ → Bool
  /-- Constructed and not destroyed yet. -/
  live : List ℕ
  created : ℕ

inductive NetLogicCall where
  | getInstance
  /-- `Connect` on an object; `Port_ini` is not initialised. -/
  | connect (object : ℕ) (ip : List UInt8) (port : Int) (ini : IpConfig) (junk : Int) (ok : Bool)
  | destroy (object : ℕ)
deriving DecidableEq, Repr

inductive NetLogicEffect where
  /-- `GetInstance` returned the object. -/
  | returned (object : ℕ)
  /-- `ProNetWork::DisConnect`. -/
  | disConnect
  /-- `ProNetWork::Connect`, and what it returned. -/
  | connect (ip : List UInt8) (port : Int) (ok : Bool)
  /-- The object was destroyed, with its `m_isConneted` as given. -/
  | destroyed (object : ℕ) (isConneted : Bool)
deriving DecidableEq, Repr

namespace NetLogicObjects

/-- Before the first call. -/
def start : NetLogicObjects where
  pNetLogic := none
  isConneted _ := false
  live := []
  created := 0

def setConneted (object : ℕ) (isConneted : Bool) (s : NetLogicObjects) : NetLogicObjects :=
  { s with isConneted := fun o => if o = object then isConneted else s.isConneted o }

def getInstance (s : NetLogicObjects) : NetLogicObjects × List NetLogicEffect :=
  match s.pNetLogic with
  | some object => (s, [.returned object])
  | none =>
    ({ s with
       pNetLogic := some s.created
       live := s.live ++ [s.created]
       created := s.created + 1 }.setConneted s.created false,
      [.returned s.created])

/-- `Connect`: the two arguments are not used. -/
def connect (object : ℕ) (ini : IpConfig) (junk : Int) (ok : Bool) (s : NetLogicObjects) :
    NetLogicObjects × List NetLogicEffect :=
  let closing := if s.isConneted object then [NetLogicEffect.disConnect] else []
  (s.setConneted object ok,
    closing ++ [.connect (ini.ipAddress.getD []) (ini.port.getD junk) ok])

/-- The destructor. -/
def destroy (object : ℕ) (s : NetLogicObjects) : NetLogicObjects × List NetLogicEffect :=
  ({ s with pNetLogic := none, live := s.live.erase object },
    [.destroyed object (s.isConneted object)])

/-- A call on an object needs one that has not been destroyed. -/
def step (s : NetLogicObjects) : NetLogicCall → Option (NetLogicObjects × List NetLogicEffect)
  | .getInstance => some s.getInstance
  | .connect object _ _ ini junk ok =>
    if object ∈ s.live then some (s.connect object ini junk ok) else none
  | .destroy object => if object ∈ s.live then some (s.destroy object) else none

end NetLogicObjects

/-- A run from the start of the client. -/
abbrev NetLogicRun (h : List (NetLogicCall × List NetLogicEffect)) (s : NetLogicObjects) :
    Prop :=
  Runs NetLogicObjects.step NetLogicObjects.start h s

end ShootGame.Model
