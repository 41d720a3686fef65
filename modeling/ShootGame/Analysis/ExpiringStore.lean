import Mathlib.Tactic.Ring
import ShootGame.Analysis.TimeIndex
import ShootGame.Library.ExpiringMap

/-!
# The in-memory database as an expiring map

As long as every sum of clock and lifetime is from `0` on and below `2 ^ 63`, the
in-memory database answers every call as the plain expiring map of the library does.
The one operation that is not read off is `UpdateData`: it stops at the first entry that
is not due, and the order of the time index says that nothing due stands behind it
(`getElem?_updateData`).

The order is that of unsigned numbers, where a negative sum stands last.  Such an entry
is not swept while another one stops the loop before it (`not_history_of_expiring_map`).
-/

set_option autoImplicit false

namespace ShootGame.Analysis

open ShootGame.Library ShootGame.Model

/-- The calls of the store on a plain expiring map. -/
def referenceStep (m : ExpiringMap (List UInt8) (List UInt8)) :
    DbmsCall → Option (ExpiringMap (List UInt8) (List UInt8) × List DbmsResult)
  | .insert key value iLastTime now => some (m.insert key value now.toInt iLastTime.toNat, [])
  | .del strKey => some (m.del strKey, [])
  | .updateData iCurTime => some (m.update iCurTime.toInt, [])
  | .find key => some (m, [.find (m.find key)])
  | .size => some (m, [.size m.size])

/-- Clock plus lifetime is below `2 ^ 63`. -/
def ExpiryBelow : DbmsCall → Prop
  | .insert _ _ iLastTime now => now.toInt + iLastTime.toNat < 2 ^ 63
  | _ => True

instance (call : DbmsCall) : Decidable (ExpiryBelow call) :=
  match call with
  | .insert _ _ iLastTime now =>
    inferInstanceAs (Decidable (now.toInt + iLastTime.toNat < 2 ^ 63))
  | .del _ | .updateData _ | .find _ | .size => .isTrue trivial

/-- Clock plus lifetime is below `2 ^ 63`, and not negative.  The clock may be. -/
def ExpiryInRange : DbmsCall → Prop
  | .insert _ _ iLastTime now =>
    0 ≤ now.toInt + iLastTime.toNat ∧ now.toInt + iLastTime.toNat < 2 ^ 63
  | _ => True

instance (call : DbmsCall) : Decidable (ExpiryInRange call) :=
  match call with
  | .insert _ _ iLastTime now =>
    inferInstanceAs (Decidable (0 ≤ now.toInt + iLastTime.toNat ∧
      now.toInt + iLastTime.toNat < 2 ^ 63))
  | .del _ | .updateData _ | .find _ | .size => .isTrue trivial

/-! ## Times below `2 ^ 63` -/

/-- Below `2 ^ 63` the signed reading of a time is the time. -/
theorem toInt_toInt64 {t : UInt64} (h : t.toNat < 2 ^ 63) : t.toInt64.toInt = t.toNat := by
  rw [← Int64.toInt_toBitVec, UInt64.toBitVec_toInt64, BitVec.toInt_eq_toNat_of_lt]
  · rfl
  · rw [UInt64.toNat_toBitVec]
    omega

/-- A clock as `Insert` adds it: a negative one is `2 ^ 64` more. -/
theorem toNat_clock (now : Int64) : (now.toUInt64.toNat : Int) = now.toInt % 2 ^ 64 := by
  have hlt := now.toUInt64.toNat_lt
  have hint : now.toInt = if 2 * now.toUInt64.toNat < 2 ^ 64 then (now.toUInt64.toNat : Int)
      else now.toUInt64.toNat - 2 ^ 64 := BitVec.toInt_eq_toNat_cond now.toBitVec
  split_ifs at hint <;> omega

/-- The stamp that `Insert` gives is the sum modulo `2 ^ 64`. -/
theorem toNat_stamp (now : Int64) (iLastTime : UInt64) :
    ((now.toUInt64 + iLastTime).toNat : Int) = (now.toInt + iLastTime.toNat) % 2 ^ 64 := by
  have hsum := UInt64.toNat_add now.toUInt64 iLastTime
  have hclock := toNat_clock now
  omega

/-- In range, the stamp is the sum: a negative clock has wrapped twice. -/
theorem toNat_expiry {now : Int64} {iLastTime : UInt64}
    (hnonneg : 0 ≤ now.toInt + iLastTime.toNat) (hlt : now.toInt + iLastTime.toNat < 2 ^ 63) :
    ((now.toUInt64 + iLastTime).toNat : Int) = now.toInt + iLastTime.toNat := by
  rw [toNat_stamp]
  exact Int.emod_eq_of_lt hnonneg (by omega)

/-- A key has one datum. -/
theorem forall_data {db : DBMS} {key : List UInt8} {data : MemData}
    (hdata : db.mapAllData[key]? = some data) {P : MemData → Prop} (hP : P data) :
    ∀ d, db.mapAllData[key]? = some d → P d := by
  intro d hd
  rw [hdata, Option.some.injEq] at hd
  rwa [← hd]

/-- No expiry time has the sign bit set. -/
def TimesInRange (db : DBMS) : Prop :=
  ∀ (key : List UInt8) (data : MemData),
    db.mapAllData[key]? = some data → data.qwTime.toNat < 2 ^ 63

def isDue (iCurTime : Int64) (data : MemData) : Bool := data.qwTime.toNat < iCurTime.toInt

/-- The comparison of `UpdateData`. -/
theorem isDue_iff {data : MemData} (h : data.qwTime.toNat < 2 ^ 63) (iCurTime : Int64) :
    isDue iCurTime data = true ↔ iCurTime > data.qwTime.toInt64 := by
  unfold isDue
  rw [decide_eq_true_iff, gt_iff_lt, Int64.lt_iff_toInt_lt, toInt_toInt64 h]

/-- Where the first entry is not due, an entry without the sign bit is not: the first
stands before it in the unsigned order. -/
theorem not_isDue_of_first {db : DBMS} (hindex : TimeIndexed db) {iCurTime : Int64}
    {time : UInt64} {first : List UInt8} {rest : List (UInt64 × List UInt8)}
    (hentries : db.mapAllDataTime.entries = (time, first) :: rest)
    (hfirst : ¬ iCurTime > time.toInt64) {key : List UInt8} {data : MemData}
    (hdata : db.mapAllData[key]? = some data) (hrange : data.qwTime.toNat < 2 ^ 63) :
    isDue iCurTime data = false := by
  have hsorted := db.mapAllDataTime.sorted
  have hmem := hindex.mem_of_data hdata
  have hle : time ≤ data.qwTime := by
    rw [hentries] at hmem hsorted
    rcases List.mem_cons.mp hmem with heq | htail
    · rw [Prod.mk.injEq] at heq
      exact UInt64.le_of_eq heq.1.symm
    · exact (List.pairwise_cons.mp hsorted).1 _ htail
  have hnat := UInt64.le_iff_toNat_le.mp hle
  rw [gt_iff_lt, Int64.lt_iff_toInt_lt, toInt_toInt64 (by omega)] at hfirst
  rw [isDue, decide_eq_false_iff_not]
  omega

/-- The first entry, if there is one, is not due. -/
def Swept (iCurTime : Int64) (db : DBMS) : Prop :=
  ∀ e ∈ db.mapAllDataTime.entries.head?, ¬iCurTime > e.1.toInt64

/-- The loop of `UpdateData` does nothing then. -/
theorem updateLoop_of_swept {iCurTime : Int64} {db : DBMS} (h : Swept iCurTime db) :
    db.updateLoop iCurTime = db := by
  unfold DBMS.updateLoop
  split
  · rfl
  · rename_i iDelTime key rest heq
    have hnot := h (iDelTime, key) (by simp [heq])
    rw [if_neg hnot]

/-- `UpdateData` drops an entry exactly if it is due, whatever the other entries are. -/
theorem getElem?_updateData_of_lt {db : DBMS} (hindex : TimeIndexed db) (iCurTime : Int64)
    {key : List UInt8}
    (hrange : ∀ data, db.mapAllData[key]? = some data → data.qwTime.toNat < 2 ^ 63) :
    (db.updateData iCurTime).mapAllData[key]? =
      db.mapAllData[key]?.filter fun data => !isDue iCurTime data := by
  unfold DBMS.updateData
  fun_induction DBMS.updateLoop iCurTime db with
  | case1 db hentries =>
    rw [hindex.getElem?_of_nil hentries]
    rfl
  | case2 db iDelTime first rest hentries hexpired ih =>
    have herase := getElem?_eraseFirst db first key
    have hrange' : ∀ data, (db.mapAllData.erase first)[key]? = some data →
        data.qwTime.toNat < 2 ^ 63 := by
      intro data hdata
      rw [herase] at hdata
      split_ifs at hdata
      exact hrange data hdata
    rw [ih (hindex.eraseFirst hentries) hrange', herase]
    split_ifs with hkey
    · subst hkey
      obtain ⟨data, hdata, rfl⟩ := hindex.exists_first hentries
      have hdue := (isDue_iff (hrange data hdata) iCurTime).mpr hexpired
      rw [hdata, Option.filter_some]
      simp [hdue]
    · rfl
  | case3 db iDelTime first rest hentries hexpired =>
    cases hdata : db.mapAllData[key]? with
    | none => rfl
    | some data =>
      rw [Option.filter_some,
        not_isDue_of_first hindex hentries hexpired hdata (hrange data hdata)]
      rfl

/-- `UpdateData` drops what is due and nothing else. -/
theorem getElem?_updateData {db : DBMS} (hindex : TimeIndexed db) (hrange : TimesInRange db)
    (iCurTime : Int64) (key : List UInt8) :
    (db.updateData iCurTime).mapAllData[key]? =
      db.mapAllData[key]?.filter fun data => !isDue iCurTime data :=
  getElem?_updateData_of_lt hindex iCurTime (hrange key)

/-! ## The simulation -/

/-- The value and the expiry time that a stored datum stands for. -/
def valueWithExpiry (data : MemData) : List UInt8 × Int := (data.strValue, data.qwTime.toNat)

/-- The expiring map that the store stands for. -/
structure Represents (db : DBMS) (m : ExpiringMap (List UInt8) (List UInt8)) : Prop where
  indexed : TimeIndexed db
  inRange : TimesInRange db
  entries : ∀ key : List UInt8, m.entries[key]? = db.mapAllData[key]?.map valueWithExpiry

/-- The empty store represents the empty map. -/
theorem represents_empty : Represents DBMS.empty .empty where
  indexed := timeIndexed_empty
  inRange key data h := by simp [DBMS.empty] at h
  entries key := by simp [DBMS.empty, ExpiringMap.empty]

namespace Represents

variable {db : DBMS} {m : ExpiringMap (List UInt8) (List UInt8)}

/-- An insertion in range. -/
theorem insert (h : Represents db m) (key value : List UInt8) {iLastTime : UInt64} {now : Int64}
    (hnonneg : 0 ≤ now.toInt + iLastTime.toNat) (hlt : now.toInt + iLastTime.toNat < 2 ^ 63) :
    Represents (db.insert key value iLastTime now)
      (m.insert key value now.toInt iLastTime.toNat) where
  indexed := h.indexed.insert key value iLastTime now
  inRange k data hdata := by
    rw [getElem?_insert] at hdata
    split_ifs at hdata with hk
    · simp only [Option.some.injEq] at hdata
      have hexpiry := toNat_expiry hnonneg hlt
      rw [← hdata]
      dsimp only
      omega
    · exact h.inRange k data hdata
  entries k := by
    rw [ExpiringMap.insert, Std.TreeMap.getElem?_insert, getElem?_insert, h.entries]
    by_cases hk : key = k
    · rw [if_pos (by simp [hk]), if_pos hk, Option.map_some, valueWithExpiry,
        toNat_expiry hnonneg hlt]
    · simp [hk]

/-- `Del` keeps the representation. -/
theorem del (h : Represents db m) (strKey : List UInt8) :
    Represents (db.del strKey) (m.del strKey) where
  indexed := h.indexed.del strKey
  inRange k data hdata := by
    rw [getElem?_del] at hdata
    split_ifs at hdata
    exact h.inRange k data hdata
  entries k := by
    rw [ExpiringMap.del, Std.TreeMap.getElem?_erase, getElem?_del, h.entries]
    by_cases hk : strKey = k
    · simp [hk]
    · simp [hk]

/-- `UpdateData` keeps the representation. -/
theorem updateData (h : Represents db m) (iCurTime : Int64) :
    Represents (db.updateData iCurTime) (m.update iCurTime.toInt) where
  indexed := h.indexed.updateData iCurTime
  inRange k data hdata := by
    rw [getElem?_updateData h.indexed h.inRange, Option.filter_eq_some_iff] at hdata
    exact h.inRange k data hdata.1
  entries k := by
    rw [ExpiringMap.update, Std.TreeMap.getElem?_filter', getElem?_updateData h.indexed h.inRange,
      h.entries]
    cases db.mapAllData[k]? with
    | none => rfl
    | some data => simp [Option.filter_some, isDue, valueWithExpiry]

/-- `Find` finds what the map has. -/
theorem find (h : Represents db m) (key : List UInt8) : db.find key = m.find key := by
  unfold DBMS.find ExpiringMap.find
  rw [h.entries, Option.map_map]
  rfl

/-- `Size` is the size of the map. -/
theorem size (h : Represents db m) : db.size = m.size := by
  refine size_eq_of_mem_iff fun key => ?_
  rw [← Std.TreeMap.isSome_getElem?_iff_mem, ← Std.TreeMap.isSome_getElem?_iff_mem, h.entries,
    Option.isSome_map]

/-- Every call leads to a represented map again, and answers the same. -/
theorem step (h : Represents db m) {db' : DBMS} {call : DbmsCall} {o : List DbmsResult}
    (hrange : ExpiryInRange call) (hstep : db.step call = some (db', o)) :
    ∃ m', referenceStep m call = some (m', o) ∧ Represents db' m' := by
  cases call with
  | insert key value iLastTime now =>
    cases hstep
    exact ⟨_, rfl, h.insert key value hrange.1 hrange.2⟩
  | del strKey =>
    cases hstep
    exact ⟨_, rfl, h.del strKey⟩
  | updateData iCurTime =>
    cases hstep
    exact ⟨_, rfl, h.updateData iCurTime⟩
  | find key =>
    cases hstep
    exact ⟨m, by rw [referenceStep, h.find], h⟩
  | size =>
    cases hstep
    exact ⟨m, by rw [referenceStep, h.size], h⟩

end Represents

/-- The store answers every sequence of calls as a plain expiring map does, whatever order
the clock readings come in, as long as no sum of clock and lifetime is negative or passes
`2 ^ 63`. -/
theorem history_of_expiring_map {h : List (DbmsCall × List DbmsResult)} {db : DBMS}
    (hrun : DbmsRun h db) (hrange : ∀ call ∈ inputs h, ExpiryInRange call) :
    ∃ m, Runs referenceStep .empty h m := by
  obtain ⟨m, hm, -⟩ := hrun.simulated Represents ExpiryInRange represents_empty hrange
    fun hrel hadmitted hstep => hrel.step hadmitted hstep
  exact ⟨m, hm⟩

/-- Two accounts that expire together, one of them stored again, a clock that goes back,
and one that starts below zero. -/
theorem history_of_expiring_map_shared_time :
    ∃ h db, DbmsRun h db ∧
      inputs h = [.insert [67] [4] 10 (-5), .insert [65] [1] 10 100, .insert [66] [2] 9 101,
        .insert [65] [3] 50 102, .updateData 111, .find [65], .find [66], .updateData 3,
        .size] ∧
      ∃ m, Runs referenceStep .empty h m := by
  have hexec : (exec DBMS.step DBMS.empty
      [.insert [67] [4] 10 (-5), .insert [65] [1] 10 100, .insert [66] [2] 9 101,
        .insert [65] [3] 50 102, .updateData 111, .find [65], .find [66], .updateData 3,
        .size]).isSome = true := rfl
  obtain ⟨h, db, hrun, hin⟩ := exists_runs_of_exec hexec
  refine ⟨h, db, hrun, hin, history_of_expiring_map hrun ?_⟩
  rw [hin]
  decide

/-- An entry stored a second before the epoch is due at the epoch, and the entry that is not
stops the sweep before it. -/
theorem not_history_of_expiring_map :
    ¬ ∀ (h : List (DbmsCall × List DbmsResult)) (db : DBMS), DbmsRun h db →
      (∀ call ∈ inputs h, ExpiryBelow call) → ∃ m, Runs referenceStep .empty h m := by
  intro hclaim
  let calls : List DbmsCall :=
    [.insert [66] [2] 0 (-1), .insert [65] [1] 10 0, .updateData 0, .find [66]]
  let db := (DBMS.empty.insert [66] [2] 0 (-1)).insert [65] [1] 10 0
  have hswept : db.updateData 0 = db := by
    apply updateLoop_of_swept
    intro e he
    obtain rfl : (10, [65]) = e := Option.some.inj he
    decide
  have hexec : (exec DBMS.step DBMS.empty calls).map (fun r => outputs r.2) =
      some [.find ((db.updateData 0).find [66])] := rfl
  obtain ⟨h, db', hrun, hin, hfound⟩ := exists_runs_of_exec_map outputs hexec
  obtain ⟨m, hm⟩ := hclaim h db' hrun (by rw [hin]; decide)
  let reference : ExpiringMap (List UInt8) (List UInt8) :=
    (ExpiringMap.empty.insert [66] [2] (-1) 0).insert [65] [1] 0 10
  have hgone : (reference.update 0).find [66] = none := by
    unfold ExpiringMap.find
    rw [ExpiringMap.getElem?_update]
    rfl
  have hreference : (exec referenceStep .empty calls).map (fun r => outputs r.2) =
      some [.find ((reference.update 0).find [66])] := rfl
  rw [← hin, hm.exec_eq, Option.map_some, hfound, hswept, hgone] at hreference
  cases hreference

end ShootGame.Analysis
