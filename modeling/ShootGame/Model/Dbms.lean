import Std.Data.TreeMap.Lemmas
import ShootGame.Library.Machine
import ShootGame.Library.Multimap

/-!
# The in-memory database

`DBMS` of `dbms.h` and `dbms.cpp`: values under keys with a time after which they
expire, kept in a map by key and in a multimap by time.  Every reading of the clock
is an argument of the operation that reads it.

`time_t` is a signed and `uint64_t` an unsigned 64-bit integer, so `Insert` adds
modulo `2 ^ 64` and `UpdateData` compares signed.  The counts of entries, which the
code keeps in an `int`, are natural numbers: the vendored database client library is
built for 32-bit processes, which cannot hold `2 ^ 31` entries.
-/

set_option autoImplicit false

namespace ShootGame.Model

open ShootGame.Library

/-- `DBMS::MemData`. -/
structure MemData where
  strValue : List UInt8
  qwTime : UInt64
deriving DecidableEq, Repr

/-- `class DBMS`. -/
structure DBMS where
  mapAllData : Std.TreeMap (List UInt8) MemData
  mapAllDataTime : Multimap UInt64 (List UInt8)

namespace DBMS

/-- The store as `GetInstance` makes it. -/
def empty : DBMS where
  mapAllData := ∅
  mapAllDataTime := .empty

/-- The `for` loop of `Del`, with `iCount` rounds to go. -/
def delLoop (strKey : List UInt8) : ℕ → ℕ → Multimap UInt64 (List UInt8) →
    Multimap UInt64 (List UInt8)
  | 0, _, mapAllDataTime => mapAllDataTime
  | iCount + 1, itMultiMap, mapAllDataTime =>
    match mapAllDataTime.get? itMultiMap with
    | none => mapAllDataTime
    | some (_, key) =>
      if key = strKey then mapAllDataTime.erase itMultiMap
      else delLoop strKey iCount (itMultiMap + 1) mapAllDataTime

def del (strKey : List UInt8) (db : DBMS) : DBMS :=
  match db.mapAllData[strKey]? with
  | none => db
  | some temMemData =>
    let iCount := db.mapAllDataTime.count temMemData.qwTime
    let itMultiMap := db.mapAllDataTime.find temMemData.qwTime
    { mapAllData := db.mapAllData.erase strKey
      mapAllDataTime := delLoop strKey iCount itMultiMap db.mapAllDataTime }

/-- The `while` loop of `UpdateData`: each round looks at the first entry. -/
def updateLoop (iCurTime : Int64) (db : DBMS) : DBMS :=
  match _h : db.mapAllDataTime.entries with
  | [] => db
  | (iDelTime, key) :: _ =>
    if iCurTime > iDelTime.toInt64 then
      updateLoop iCurTime
        { mapAllData := db.mapAllData.erase key
          mapAllDataTime := db.mapAllDataTime.erase 0 }
    else db
termination_by db.mapAllDataTime.size
decreasing_by simp [Multimap.size, Multimap.erase, _h]

/-- `UpdateData`, with the reading of the clock before the loop. -/
def updateData (iCurTime : Int64) (db : DBMS) : DBMS := db.updateLoop iCurTime

/-- `Find`: the value that `out` is set to, where the result is `true`. -/
def find (key : List UInt8) (db : DBMS) : Option (List UInt8) :=
  db.mapAllData[key]?.map MemData.strValue

/-- `Insert` at the time `now`, in the build without `_REDIS_`. -/
def insert (key value : List UInt8) (iLastTime : UInt64) (now : Int64) (db : DBMS) : DBMS :=
  let db := db.del key
  let iLastTime := now.toUInt64 + iLastTime
  { mapAllData := db.mapAllData.insert key ⟨value, iLastTime⟩
    mapAllDataTime := db.mapAllDataTime.insert (iLastTime, key) }

/-- `Size`. -/
def size (db : DBMS) : ℕ := db.mapAllData.size

end DBMS

/-! ## Runs of the store -/

/-- A call of a public function of the store, with the clock it reads. -/
inductive DbmsCall where
  | insert (key value : List UInt8) (iLastTime : UInt64) (now : Int64)
  | del (strKey : List UInt8)
  | updateData (iCurTime : Int64)
  | find (key : List UInt8)
  | size
deriving DecidableEq, Repr

/-- What a call that answers returns. -/
inductive DbmsResult where
  | find (out : Option (List UInt8))
  | size (n : ℕ)
deriving DecidableEq, Repr

def DBMS.step (db : DBMS) : DbmsCall → Option (DBMS × List DbmsResult)
  | .insert key value iLastTime now => some (db.insert key value iLastTime now, [])
  | .del strKey => some (db.del strKey, [])
  | .updateData iCurTime => some (db.updateData iCurTime, [])
  | .find key => some (db, [.find (db.find key)])
  | .size => some (db, [.size db.size])

/-- A run of the store from its creation. -/
abbrev DbmsRun (h : List (DbmsCall × List DbmsResult)) (db : DBMS) : Prop :=
  Runs DBMS.step DBMS.empty h db

end ShootGame.Model
