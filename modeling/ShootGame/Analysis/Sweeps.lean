import ShootGame.Analysis.ExpiringStore

/-!
# Sweeps of the in-memory database

`UpdateData` may be called at any time and with any clock.  Of several calls in a row the
one with the latest clock counts, whatever the store holds; and calls in between other
operations can be left out where a later one follows, as long as the sums of clock and
lifetime are from `0` on and below `2 ^ 63`.
-/

set_option autoImplicit false

namespace ShootGame.Analysis

open ShootGame.Library ShootGame.Model

/-! ## Sweeps in a row -/

/-- Where the first time is past, its entry is erased and the loop goes on. -/
theorem updateLoop_of_due {iCurTime : Int64} {db : DBMS} {iDelTime : UInt64}
    {key : List UInt8} {rest : List (UInt64 × List UInt8)}
    (hentries : db.mapAllDataTime.entries = (iDelTime, key) :: rest)
    (hdue : iCurTime > iDelTime.toInt64) :
    db.updateLoop iCurTime = DBMS.updateLoop iCurTime
      { mapAllData := db.mapAllData.erase key, mapAllDataTime := db.mapAllDataTime.erase 0 } := by
  rw [DBMS.updateLoop]
  split
  · rename_i hnil
    rw [hentries] at hnil
    cases hnil
  · rename_i time first rest' hcons
    rw [hentries] at hcons
    cases hcons
    rw [if_pos hdue]

/-- The loop ends where nothing is due at the front. -/
theorem swept_updateLoop (iCurTime : Int64) (db : DBMS) :
    Swept iCurTime (db.updateLoop iCurTime) := by
  induction db using DBMS.updateLoop.induct iCurTime with
  | case1 db hentries =>
    have hswept : Swept iCurTime db := by simp [Swept, hentries]
    rw [updateLoop_of_swept hswept]
    exact hswept
  | case2 db iDelTime key rest hentries hdue ih =>
    rw [updateLoop_of_due hentries hdue]
    exact ih
  | case3 db iDelTime key rest hentries hdue =>
    have hswept : Swept iCurTime db := by simpa [Swept, hentries] using hdue
    rw [updateLoop_of_swept hswept]
    exact hswept

/-- An earlier clock finds nothing left to do. -/
theorem updateData_of_le {a b : Int64} (hle : b ≤ a) (db : DBMS) :
    (db.updateData a).updateData b = db.updateData a := by
  apply updateLoop_of_swept
  intro e he hdue
  exact swept_updateLoop a db e he (Int64.lt_of_lt_of_le hdue hle)

/-- What an earlier clock removes, a later one would have removed as well.  By induction on
the first loop. -/
theorem updateData_of_ge {a b : Int64} (hle : a ≤ b) (db : DBMS) :
    (db.updateData a).updateData b = db.updateData b := by
  unfold DBMS.updateData
  induction db using DBMS.updateLoop.induct a with
  | case1 db hentries =>
    rw [@updateLoop_of_swept a db (by simp [Swept, hentries])]
  | case2 db iDelTime key rest hentries hdue ih =>
    rw [updateLoop_of_due hentries hdue, ih,
      updateLoop_of_due hentries (Int64.lt_of_lt_of_le hdue hle)]
  | case3 db iDelTime key rest hentries hdue =>
    rw [@updateLoop_of_swept a db (by simpa [Swept, hentries] using hdue)]

/-- Nor do any number of earlier ones, in any order. -/
theorem updateData_absorbs (clocks : List Int64) {latest : Int64}
    (hlatest : ∀ clock ∈ clocks, clock ≤ latest) (db : DBMS) :
    clocks.foldl (fun db clock => db.updateData clock) (db.updateData latest) =
      db.updateData latest := by
  induction clocks with
  | nil => rfl
  | cons clock clocks ih =>
    rw [List.forall_mem_cons] at hlatest
    rw [List.foldl_cons, updateData_of_le hlatest.1]
    exact ih hlatest.2

/-- Of sweeps in a row, in any order, the one with the latest clock is the only one that
counts, in every state of the store. -/
theorem sweeps_latest (clocks : List Int64) {latest : Int64} (hmem : latest ∈ clocks)
    (hlatest : ∀ clock ∈ clocks, clock ≤ latest) (db : DBMS) :
    clocks.foldl (fun db clock => db.updateData clock) db = db.updateData latest := by
  induction clocks generalizing db with
  | nil => cases hmem
  | cons clock clocks ih =>
    rw [List.forall_mem_cons] at hlatest
    rw [List.foldl_cons]
    by_cases hrest : latest ∈ clocks
    · rw [ih hrest hlatest.2, updateData_of_ge hlatest.1]
    · obtain rfl : latest = clock := by simpa [hrest] using hmem
      rw [updateData_absorbs clocks hlatest.2]

/-- A clock that goes back, over an account that has expired and one that has not. -/
theorem sweeps_latest_backwards :
    [105, 300, 7].foldl (fun db clock => DBMS.updateData clock db)
        ((DBMS.empty.insert [65] [1] 10 100).insert [66] [2] 900 100) =
      ((DBMS.empty.insert [65] [1] 10 100).insert [66] [2] 900 100).updateData 300 :=
  sweeps_latest [105, 300, 7] (by simp) (by simp) _

/-! ## Sweeps between other calls -/

/-- The map without any sweep. -/
def applyUnswept (m : ExpiringMap (List UInt8) (List UInt8)) :
    DbmsCall → ExpiringMap (List UInt8) (List UInt8)
  | .insert key value iLastTime now => m.insert key value now.toInt iLastTime.toNat
  | .del strKey => m.del strKey
  | .updateData _ | .find _ | .size => m

/-- The clock of a sweep is at most `latest`. -/
def SweptBy (latest : Int64) : DbmsCall → Prop
  | .updateData iCurTime => iCurTime ≤ latest
  | .insert _ _ _ _ | .del _ | .find _ | .size => True

def IsSweep : DbmsCall → Bool
  | .updateData _ => true
  | .insert _ _ _ _ | .del _ | .find _ | .size => false

variable {latest : Int64}

/-- One call, against the same call with its sweep left out. -/
theorem agreeFrom_step {db db' : DBMS} {m n : ExpiringMap (List UInt8) (List UInt8)}
    {call : DbmsCall} {o : List DbmsResult} (hrep : Represents db m)
    (hagree : m.AgreeFrom latest.toInt n) (hrange : ExpiryInRange call)
    (hswept : SweptBy latest call) (hstep : db.step call = some (db', o)) :
    ∃ m', Represents db' m' ∧ m'.AgreeFrom latest.toInt (applyUnswept n call) := by
  cases call with
  | insert key value iLastTime now =>
    cases hstep
    exact ⟨_, hrep.insert key value hrange.1 hrange.2, hagree.insert _ _ _ _⟩
  | del strKey =>
    cases hstep
    exact ⟨_, hrep.del strKey, hagree.del strKey⟩
  | updateData iCurTime =>
    cases hstep
    exact ⟨_, hrep.updateData iCurTime, hagree.update (Int64.le_iff_toInt_le.mp hswept)⟩
  | find key =>
    cases hstep
    exact ⟨m, hrep, hagree⟩
  | size =>
    cases hstep
    exact ⟨m, hrep, hagree⟩

/-- A run, by induction on its steps. -/
theorem agreeFrom_of_run {h : List (DbmsCall × List DbmsResult)} {db : DBMS}
    (hrun : DbmsRun h db) (hrange : ∀ call ∈ inputs h, ExpiryInRange call)
    (hswept : ∀ call ∈ inputs h, SweptBy latest call) :
    ∃ m, Represents db m ∧
      m.AgreeFrom latest.toInt ((inputs h).foldl applyUnswept .empty) := by
  induction hrun with
  | start => exact ⟨.empty, represents_empty, .refl _ _⟩
  | next _ hstep ih =>
    rw [inputs_append, List.forall_mem_append] at hrange hswept
    obtain ⟨m, hrep, hagree⟩ := ih hrange.1 hswept.1
    obtain ⟨m', hrep', hagree'⟩ := agreeFrom_step hrep hagree (hrange.2 _ (by simp))
      (hswept.2 _ (by simp)) hstep
    refine ⟨m', hrep', ?_⟩
    rw [inputs_append, List.foldl_append]
    exact hagree'

/-- A map that is never swept is the same without the sweeps among the calls. -/
theorem foldl_applyUnswept_filter (calls : List DbmsCall)
    (m : ExpiringMap (List UInt8) (List UInt8)) :
    (calls.filter fun call => !IsSweep call).foldl applyUnswept m =
      calls.foldl applyUnswept m := by
  induction calls generalizing m with
  | nil => rfl
  | cons call calls ih =>
    cases call with
    | updateData iCurTime => exact ih m
    | insert key value iLastTime now => exact ih _
    | del strKey => exact ih _
    | find key => exact ih m
    | size => exact ih m

/-- Two runs that differ only in which sweeps they made, and when, hold the same data after
a sweep whose clock is not behind any of them, where every sum of clock and lifetime is from
`0` on and below `2 ^ 63`. -/
theorem sweeps_postponed {h h' : List (DbmsCall × List DbmsResult)} {db db' : DBMS}
    (hrun : DbmsRun h db) (hrun' : DbmsRun h' db')
    (hcalls : (inputs h).filter (fun call => !IsSweep call) =
      (inputs h').filter fun call => !IsSweep call)
    (hrange : ∀ call ∈ inputs h ++ inputs h', ExpiryInRange call)
    (hswept : ∀ call ∈ inputs h ++ inputs h', SweptBy latest call) :
    (∀ key, (db.updateData latest).find key = (db'.updateData latest).find key) ∧
      (db.updateData latest).size = (db'.updateData latest).size := by
  rw [List.forall_mem_append] at hrange hswept
  obtain ⟨m, hrep, hagree⟩ := agreeFrom_of_run hrun hrange.1 hswept.1
  obtain ⟨m', hrep', hagree'⟩ := agreeFrom_of_run hrun' hrange.2 hswept.2
  rw [← foldl_applyUnswept_filter, hcalls, foldl_applyUnswept_filter] at hagree
  have hsame : ∀ key : List UInt8, (m.update latest.toInt).entries[key]? =
      (m'.update latest.toInt).entries[key]? := by
    intro key
    rw [hagree key, hagree' key]
  have hafter := hrep.updateData latest
  have hafter' := hrep'.updateData latest
  constructor
  · intro key
    rw [hafter.find, hafter'.find]
    unfold ExpiringMap.find
    rw [hsame key]
  · rw [hafter.size, hafter'.size]
    apply size_eq_of_mem_iff
    intro key
    rw [← Std.TreeMap.isSome_getElem?_iff_mem, ← Std.TreeMap.isSome_getElem?_iff_mem, hsame key]

/-- An account stored again after it was swept away, and the same calls without the sweeps. -/
theorem sweeps_postponed_stored_again :
    ∃ h db h' db', DbmsRun h db ∧ DbmsRun h' db' ∧
      inputs h = [.insert [65] [1] 10 100, .insert [66] [2] 900 100, .updateData 120,
        .insert [65] [3] 10 130, .updateData 300] ∧
      inputs h' = [.insert [65] [1] 10 100, .insert [66] [2] 900 100,
        .insert [65] [3] 10 130] ∧
      (∀ key, (db.updateData 300).find key = (db'.updateData 300).find key) ∧
      (db.updateData 300).size = (db'.updateData 300).size := by
  have hexec : (exec DBMS.step DBMS.empty [.insert [65] [1] 10 100, .insert [66] [2] 900 100,
      .updateData 120, .insert [65] [3] 10 130, .updateData 300]).isSome = true := rfl
  have hexec' : (exec DBMS.step DBMS.empty [.insert [65] [1] 10 100, .insert [66] [2] 900 100,
      .insert [65] [3] 10 130]).isSome = true := rfl
  obtain ⟨h, db, hrun, hin⟩ := exists_runs_of_exec hexec
  obtain ⟨h', db', hrun', hin'⟩ := exists_runs_of_exec hexec'
  refine ⟨h, db, h', db', hrun, hrun', hin, hin', sweeps_postponed hrun hrun' ?_ ?_ ?_⟩
  · rw [hin, hin']
    rfl
  · rw [hin, hin']
    decide
  · rw [hin, hin']
    simp [SweptBy]

end ShootGame.Analysis
