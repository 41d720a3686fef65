import Mathlib.Data.List.Nodup
import ShootGame.Model.Dbms

/-!
# The two indexes of the in-memory database

`TimeIndexed` says that the multimap by time lists the keys of the map, each once and
with the time the map has for it.  Each operation keeps it; `entries_del` is where the
search of `Del` through a run of equal times is needed.
-/

set_option autoImplicit false

namespace ShootGame.Analysis

open ShootGame.Library ShootGame.Model

structure TimeIndexed (db : DBMS) : Prop where
  nodup : db.mapAllDataTime.entries.Nodup
  mem_iff : ∀ time key,
    (time, key) ∈ db.mapAllDataTime.entries ↔ db.mapAllData[key]?.map MemData.qwTime = some time

/-! ## The search of `Del` -/

/-- The loop removes the first of the next `iCount` entries that has the key. -/
theorem entries_delLoop (strKey : List UInt8) (iCount it : ℕ)
    (index : Multimap UInt64 (List UInt8)) :
    (DBMS.delLoop strKey iCount it index).entries =
      index.entries.take it ++
        ((index.entries.drop it).take iCount).eraseP (fun e => e.2 = strKey) ++
        index.entries.drop (it + iCount) := by
  induction iCount generalizing it with
  | zero => simp [DBMS.delLoop]
  | succ iCount ih =>
    unfold DBMS.delLoop
    cases hget : index.get? it with
    | none =>
      have hend : index.entries.length ≤ it := by simpa [Multimap.get?] using hget
      simp [List.drop_eq_nil_of_le hend, List.take_of_length_le hend,
        List.drop_eq_nil_of_le (show index.entries.length ≤ it + (iCount + 1) by omega)]
    | some e =>
      obtain ⟨hlt, heq⟩ := List.getElem?_eq_some_iff.mp hget
      have hsplit : index.entries.drop (it + 1) =
          (index.entries.drop (it + 1)).take iCount ++ index.entries.drop (it + (iCount + 1)) := by
        rw [show it + (iCount + 1) = it + 1 + iCount by omega,
          ← List.drop_drop (i := iCount) (j := it + 1), List.take_append_drop]
      rw [List.drop_eq_getElem_cons hlt, heq, List.take_succ_cons, List.eraseP_cons]
      by_cases hkey : e.2 = strKey
      · simp only [hkey, if_true, decide_true, cond_true]
        rw [Multimap.entries_erase, List.eraseIdx_eq_take_drop_succ, List.append_assoc, ← hsplit]
      · simp only [hkey, if_false, decide_false, cond_false]
        rw [ih, List.take_succ_eq_append_getElem hlt, heq]
        simp [Nat.add_assoc, Nat.add_comm 1]

/-- What a round of `UpdateData` does to the map. -/
theorem getElem?_eraseFirst (db : DBMS) (first key : List UInt8) :
    (db.mapAllData.erase first)[key]? = if first = key then none else db.mapAllData[key]? := by
  rw [Std.TreeMap.getElem?_erase]
  simp

/-- An erased key is gone, and the others are as they were. -/
theorem getElem?_del (db : DBMS) (strKey key : List UInt8) :
    (db.del strKey).mapAllData[key]? = if strKey = key then none else db.mapAllData[key]? := by
  unfold DBMS.del
  cases hdata : db.mapAllData[strKey]? with
  | none =>
    split_ifs with hkey
    · rw [← hkey, hdata]
    · rfl
  | some data => exact getElem?_eraseFirst db strKey key

/-- An inserted key has its value and its time, and the others are as they were. -/
theorem getElem?_insert (db : DBMS) (key value : List UInt8) (iLastTime : UInt64) (now : Int64)
    (k : List UInt8) :
    (db.insert key value iLastTime now).mapAllData[k]? =
      if key = k then some ⟨value, now.toUInt64 + iLastTime⟩ else db.mapAllData[k]? := by
  unfold DBMS.insert
  rw [Std.TreeMap.getElem?_insert, getElem?_del]
  split_ifs with h1 h2 <;> simp_all

/-! ## Each operation keeps the index -/

/-- Nothing is stored and nothing indexed. -/
theorem timeIndexed_empty : TimeIndexed DBMS.empty where
  nodup := List.nodup_nil
  mem_iff time key := by simp [DBMS.empty, Multimap.empty]

namespace TimeIndexed

variable {db : DBMS}

/-- What is stored is in the index, at its time. -/
theorem mem_of_data (h : TimeIndexed db) {key : List UInt8} {data : MemData}
    (hdata : db.mapAllData[key]? = some data) :
    (data.qwTime, key) ∈ db.mapAllDataTime.entries :=
  (h.mem_iff _ _).mpr (by rw [hdata]; rfl)

/-- What is in the index is stored, with that time. -/
theorem exists_data (h : TimeIndexed db) {time : UInt64} {key : List UInt8}
    (hmem : (time, key) ∈ db.mapAllDataTime.entries) :
    ∃ data, db.mapAllData[key]? = some data ∧ data.qwTime = time := by
  simpa using (h.mem_iff time key).mp hmem

/-- So is what the index has first. -/
theorem exists_first (h : TimeIndexed db) {time : UInt64} {first : List UInt8}
    {rest : List (UInt64 × List UInt8)}
    (hentries : db.mapAllDataTime.entries = (time, first) :: rest) :
    ∃ data, db.mapAllData[first]? = some data ∧ data.qwTime = time := by
  apply h.exists_data
  rw [hentries]
  exact List.mem_cons_self

/-- Where the index is empty, nothing is stored. -/
theorem getElem?_of_nil (h : TimeIndexed db) (hentries : db.mapAllDataTime.entries = [])
    (key : List UInt8) : db.mapAllData[key]? = none := by
  cases hdata : db.mapAllData[key]? with
  | none => rfl
  | some data =>
    have hmem := h.mem_of_data hdata
    rw [hentries] at hmem
    cases hmem

/-- An entry and its key are removed together. -/
theorem remove (h : TimeIndexed db) {db' : DBMS} {time : UInt64} {key : List UInt8}
    (hentries : db.mapAllDataTime.entries.Perm ((time, key) :: db'.mapAllDataTime.entries))
    (hdata : ∀ k, db'.mapAllData[k]? = if key = k then none else db.mapAllData[k]?) :
    TimeIndexed db' := by
  obtain ⟨hnotin, hnodup⟩ := List.nodup_cons.mp (hentries.nodup_iff.mp h.nodup)
  have htime : db.mapAllData[key]?.map MemData.qwTime = some time :=
    (h.mem_iff _ _).mp (hentries.mem_iff.mpr List.mem_cons_self)
  refine ⟨hnodup, fun t k => ?_⟩
  have hmem := hentries.mem_iff (a := (t, k))
  rw [h.mem_iff, List.mem_cons, Prod.mk.injEq] at hmem
  rw [hdata]
  by_cases hk : key = k
  · subst hk
    rw [if_pos rfl]
    refine iff_of_false (fun hin => ?_) (by simp)
    have ht : time = t := by simpa [htime] using hmem.mpr (.inr hin)
    exact hnotin (ht ▸ hin)
  · rw [if_neg hk, hmem]
    exact ⟨.inr, fun hor => hor.resolve_left fun heq => hk heq.2.symm⟩

/-- `Del` removes the key's one entry from the time index. -/
theorem entries_del_perm (h : TimeIndexed db) {strKey : List UInt8} {data : MemData}
    (hdata : db.mapAllData[strKey]? = some data) :
    db.mapAllDataTime.entries.Perm
      ((data.qwTime, strKey) :: (db.del strKey).mapAllDataTime.entries) := by
  unfold DBMS.del
  rw [hdata, entries_delLoop]
  exact Multimap.erase_in_run_perm _ (h.mem_of_data hdata)

/-- Erasing keeps the two in agreement. -/
theorem del (h : TimeIndexed db) (strKey : List UInt8) : TimeIndexed (db.del strKey) := by
  cases hdata : db.mapAllData[strKey]? with
  | none =>
    have hsame : db.del strKey = db := by
      unfold DBMS.del
      rw [hdata]
    rwa [hsame]
  | some data => exact h.remove (h.entries_del_perm hdata) (getElem?_del db strKey)

/-- The stamp that `Insert` adds is the only one of its key, since `Del` came first. -/
theorem insert (h : TimeIndexed db) (key value : List UInt8) (iLastTime : UInt64) (now : Int64) :
    TimeIndexed (db.insert key value iLastTime now) := by
  have hdel := h.del key
  have hentries : (db.insert key value iLastTime now).mapAllDataTime.entries.Perm
      ((now.toUInt64 + iLastTime, key) :: (db.del key).mapAllDataTime.entries) :=
    Multimap.entries_insert_perm _ _
  have hfresh : ∀ time, (time, key) ∉ (db.del key).mapAllDataTime.entries := by
    intro time
    rw [hdel.mem_iff, getElem?_del]
    simp
  constructor
  · rw [hentries.nodup_iff, List.nodup_cons]
    exact ⟨hfresh _, hdel.nodup⟩
  · intro t k
    rw [hentries.mem_iff, List.mem_cons, Prod.mk.injEq, hdel.mem_iff, getElem?_del,
      getElem?_insert]
    by_cases hk : key = k
    · simp [hk, eq_comm]
    · simp [hk, Ne.symm hk]

/-- One round of `UpdateData`. -/
theorem eraseFirst (h : TimeIndexed db) {time : UInt64} {key : List UInt8}
    {rest : List (UInt64 × List UInt8)}
    (hentries : db.mapAllDataTime.entries = (time, key) :: rest) :
    TimeIndexed
      { mapAllData := db.mapAllData.erase key, mapAllDataTime := db.mapAllDataTime.erase 0 } := by
  have hfirst : db.mapAllDataTime.entries.Perm
      ((time, key) :: (db.mapAllDataTime.erase 0).entries) := by
    rw [Multimap.entries_erase, hentries]
    exact .refl _
  exact h.remove hfirst (getElem?_eraseFirst db key)

/-- So does a sweep. -/
theorem updateData (h : TimeIndexed db) (iCurTime : Int64) :
    TimeIndexed (db.updateData iCurTime) := by
  unfold DBMS.updateData
  fun_induction DBMS.updateLoop iCurTime db with
  | case1 db hentries => exact h
  | case2 db iDelTime key rest hentries hexpired ih => exact ih (h.eraseFirst hentries)
  | case3 db iDelTime key rest hentries hexpired => exact h

/-- So does every call. -/
theorem step (h : TimeIndexed db) {db' : DBMS} {call : DbmsCall} {o : List DbmsResult}
    (hstep : db.step call = some (db', o)) : TimeIndexed db' := by
  cases call with
  | insert key value iLastTime now =>
    cases hstep
    exact h.insert key value iLastTime now
  | del strKey =>
    cases hstep
    exact h.del strKey
  | updateData iCurTime =>
    cases hstep
    exact h.updateData iCurTime
  | find key =>
    cases hstep
    exact h
  | size =>
    cases hstep
    exact h

end TimeIndexed

/-- They agree throughout a run. -/
theorem timeIndexed_of_run {h : List (DbmsCall × List DbmsResult)} {db : DBMS}
    (hrun : DbmsRun h db) : TimeIndexed db :=
  hrun.invariant (fun _ db => TimeIndexed db) timeIndexed_empty fun _ hinv hstep => hinv.step hstep

/-! ## The two indexes -/

section Agreement

variable {db : DBMS}

/-- No time and key are stored twice. -/
theorem nodup_pairs (db : DBMS) :
    (db.mapAllData.toList.map fun p => (p.2.qwTime, p.1)).Nodup := by
  have hkeys := Std.TreeMap.distinct_keys_toList (t := db.mapAllData)
  refine List.Pairwise.map _ (fun p q hne => ?_) hkeys
  intro heq
  rw [Prod.mk.injEq] at heq
  simp [heq.2] at hne

/-- The pairs of the store are the keys with their times. -/
theorem mem_pairs (db : DBMS) (time : UInt64) (key : List UInt8) :
    (time, key) ∈ (db.mapAllData.toList.map fun p => (p.2.qwTime, p.1)) ↔
      db.mapAllData[key]?.map MemData.qwTime = some time := by
  simp only [List.mem_map, Prod.exists, Std.TreeMap.mem_toList_iff_getElem?_eq_some,
    Prod.mk.injEq, Option.map_eq_some_iff]
  constructor
  · rintro ⟨k, data, hdata, htime, rfl⟩
    exact ⟨data, hdata, htime⟩
  · rintro ⟨data, hdata, htime⟩
    exact ⟨key, data, hdata, htime, rfl⟩

/-- The index has the same pairs, as often. -/
theorem TimeIndexed.perm (h : TimeIndexed db) :
    db.mapAllDataTime.entries.Perm (db.mapAllData.toList.map fun p => (p.2.qwTime, p.1)) := by
  rw [List.perm_ext_iff_of_nodup h.nodup (nodup_pairs db)]
  rintro ⟨time, key⟩
  rw [h.mem_iff, mem_pairs]

/-- A stored key is in the index once. -/
theorem TimeIndexed.countP_key (h : TimeIndexed db) {key : List UInt8}
    (hkey : key ∈ db.mapAllData) :
    (db.mapAllDataTime.entries.countP fun e => e.2 = key) = 1 := by
  obtain ⟨data, hdata⟩ := Option.isSome_iff_exists.mp (Std.TreeMap.isSome_getElem?_iff_mem.mpr hkey)
  have hsame : ∀ e ∈ db.mapAllDataTime.entries,
      decide (e.2 = key) = true ↔ (e == (data.qwTime, key)) = true := by
    rintro ⟨time, k⟩ he
    rw [h.mem_iff] at he
    rw [decide_eq_true_iff, beq_iff_eq, Prod.mk.injEq]
    refine ⟨fun hk => ⟨?_, hk⟩, And.right⟩
    simp only at hk
    subst hk
    simpa [hdata, eq_comm] using he
  rw [List.countP_congr hsame]
  exact List.count_eq_one_of_mem h.nodup (h.mem_of_data hdata)

end Agreement

/-- The time index lists exactly the pairs of expiry time and key of the data, each key
once. -/
theorem time_index_agrees {h : List (DbmsCall × List DbmsResult)} {db : DBMS}
    (hrun : DbmsRun h db) :
    db.mapAllDataTime.entries.Perm (db.mapAllData.toList.map fun p => (p.2.qwTime, p.1)) ∧
      (∀ key ∈ db.mapAllData, (db.mapAllDataTime.entries.countP fun e => e.2 = key) = 1) ∧
      (∀ e ∈ db.mapAllDataTime.entries, e.2 ∈ db.mapAllData) ∧
      db.mapAllDataTime.size = db.mapAllData.size := by
  have hinv := timeIndexed_of_run hrun
  refine ⟨hinv.perm, fun key => hinv.countP_key, ?_, ?_⟩
  · rintro ⟨time, key⟩ he
    obtain ⟨data, hdata, -⟩ := hinv.exists_data he
    rw [← Std.TreeMap.isSome_getElem?_iff_mem, hdata]
    rfl
  · rw [Multimap.size, hinv.perm.length_eq, List.length_map, Std.TreeMap.length_toList]

/-- Two accounts stored at one time, one of them stored again and expired since. -/
theorem time_index_agrees_reinserted :
    ∃ h db, DbmsRun h db ∧
      inputs h = [.insert [65] [1] 10 100, .insert [66] [2] 10 100, .insert [65] [3] 5 102,
        .updateData 108, .find [66]] ∧
      db.mapAllDataTime.entries.Perm (db.mapAllData.toList.map fun p => (p.2.qwTime, p.1)) ∧
      (∀ key ∈ db.mapAllData, (db.mapAllDataTime.entries.countP fun e => e.2 = key) = 1) ∧
      (∀ e ∈ db.mapAllDataTime.entries, e.2 ∈ db.mapAllData) ∧
      db.mapAllDataTime.size = db.mapAllData.size := by
  have hexec : (exec DBMS.step DBMS.empty
      [.insert [65] [1] 10 100, .insert [66] [2] 10 100, .insert [65] [3] 5 102,
        .updateData 108, .find [66]]).isSome = true := rfl
  obtain ⟨h, db, hrun, hin⟩ := exists_runs_of_exec hexec
  exact ⟨h, db, hrun, hin, time_index_agrees hrun⟩

end ShootGame.Analysis
