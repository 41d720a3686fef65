import ShootGame.Analysis.ExpiringStore

/-!
# When a key is no longer found

`Find` does not look at the clock.  A key that has outlived its lifetime is found until
an `UpdateData` or a `Del` removes it, and `find_eq_none_iff` says that nothing else
does: not the time of the `Find`, and no operation on another key.
-/

set_option autoImplicit false

namespace ShootGame.Analysis

open ShootGame.Library ShootGame.Model

/-- A public function of the store, called at some time. -/
inductive StoreOp where
  | insert (key value : List UInt8) (iLastTime : UInt64)
  | del (strKey : List UInt8)
  | updateData
  | find (key : List UInt8)
  | size
deriving DecidableEq, Repr

/-- The call at the time `now`, which is what the clock reads. -/
def StoreOp.at (now : Int64) : StoreOp → DbmsCall
  | insert key value iLastTime => .insert key value iLastTime now
  | del strKey => .del strKey
  | updateData => .updateData now
  | find key => .find key
  | size => .size

/-- The calls of a list of operations with their times. -/
def callsOf (ops : List (Int64 × StoreOp)) : List DbmsCall := ops.map fun op => op.2.at op.1

/-- The operation takes away the key, which expires at `expiry`. -/
def Removes (key : List UInt8) (expiry : Int) (op : Int64 × StoreOp) : Prop :=
  op.2 = .del key ∨ op.2 = .updateData ∧ expiry < op.1.toInt

/-- The operation stores the key. -/
def Stores (key : List UInt8) (op : Int64 × StoreOp) : Prop :=
  ∃ value iLastTime, op.2 = .insert key value iLastTime

/-- An operation that does not store the key takes it away or leaves it as it is. -/
theorem getElem?_step {db db' : DBMS} {op : Int64 × StoreOp} {o : List DbmsResult}
    (hindex : TimeIndexed db) {key : List UInt8} {expiry : Int} (hlt : expiry < 2 ^ 63)
    (hexpiry : ∀ data, db.mapAllData[key]? = some data → (data.qwTime.toNat : Int) = expiry)
    (hstep : db.step (op.2.at op.1) = some (db', o)) (hstores : ¬Stores key op) :
    (Removes key expiry op → db'.mapAllData[key]? = none) ∧
      (¬Removes key expiry op → db'.mapAllData[key]? = db.mapAllData[key]?) := by
  obtain ⟨now, op⟩ := op
  cases op with
  | insert k value iLastTime =>
    cases hstep
    have hne : k ≠ key := by
      rintro rfl
      exact hstores ⟨value, iLastTime, rfl⟩
    rw [getElem?_insert, if_neg hne]
    simp [Removes]
  | del strKey =>
    cases hstep
    rw [getElem?_del]
    by_cases hkey : strKey = key <;> simp [Removes, hkey]
  | updateData =>
    cases hstep
    have hrange : ∀ data, db.mapAllData[key]? = some data → data.qwTime.toNat < 2 ^ 63 := by
      intro data hdata
      have htime := hexpiry data hdata
      omega
    rw [getElem?_updateData_of_lt hindex now hrange]
    cases hdata : db.mapAllData[key]? with
    | none => simp
    | some data => simp [Removes, isDue, hexpiry data hdata, Option.filter_some]
  | find k =>
    cases hstep
    simp [Removes]
  | size =>
    cases hstep
    simp [Removes]

/-- A run without a store of the key, by induction on the operations. -/
theorem getElem?_run {db db' : DBMS} {ops : List (Int64 × StoreOp)}
    {h : List (DbmsCall × List DbmsResult)} (hrun : Runs DBMS.step db h db')
    (hin : inputs h = callsOf ops) (hindex : TimeIndexed db) {key : List UInt8} {expiry : Int}
    (hlt : expiry < 2 ^ 63)
    (hexpiry : ∀ data, db.mapAllData[key]? = some data → (data.qwTime.toNat : Int) = expiry)
    (hstores : ∀ op ∈ ops, ¬Stores key op) :
    ((∃ op ∈ ops, Removes key expiry op) → db'.mapAllData[key]? = none) ∧
      ((∀ op ∈ ops, ¬Removes key expiry op) → db'.mapAllData[key]? = db.mapAllData[key]?) := by
  induction ops generalizing db h with
  | nil =>
    rw [hrun.eq_of_inputs_nil hin]
    simp
  | cons op ops ih =>
    obtain ⟨o, h, u, rfl, hrest, hstep, htail⟩ := hrun.first_of_inputs hin
    rw [List.forall_mem_cons] at hstores
    obtain ⟨hgone, hsame⟩ := getElem?_step hindex hlt hexpiry hstep hstores.1
    have hexpiry' : ∀ data, u.mapAllData[key]? = some data →
        (data.qwTime.toNat : Int) = expiry := by
      intro data hdata
      by_cases hremoves : Removes key expiry op
      · rw [hgone hremoves] at hdata
        cases hdata
      · exact hexpiry data (hsame hremoves ▸ hdata)
    obtain ⟨hgone', hsame'⟩ := ih htail hrest (hindex.step hstep) hexpiry' hstores.2
    constructor
    · rintro ⟨op', hmem, hremoves⟩
      by_cases hlater : ∃ op ∈ ops, Removes key expiry op
      · exact hgone' hlater
      · rcases List.mem_cons.mp hmem with rfl | htailMem
        · rw [hsame' fun x hx hr => hlater ⟨x, hx, hr⟩]
          exact hgone hremoves
        · exact absurd ⟨op', htailMem, hremoves⟩ hlater
    · rw [List.forall_mem_cons]
      rintro ⟨hfirst, hothers⟩
      rw [hsame' hothers, hsame hfirst]

/-- A `Find` that comes after an `Insert` of its key, with no later one, answers with the
inserted value until the key is removed, whatever its own time `T` is.  The sum of clock
and lifetime has to be from `0` on and below `2 ^ 63`. -/
theorem find_eq_none_iff {h : List (DbmsCall × List DbmsResult)} {db : DBMS}
    {before after later : List (Int64 × StoreOp)} {t T : Int64} {key value : List UInt8}
    {iLastTime : UInt64} (hrun : DbmsRun h db)
    (hin : inputs h = callsOf (before ++ (t, .insert key value iLastTime) :: after ++
      (T, .find key) :: later))
    (hnonneg : 0 ≤ t.toInt + iLastTime.toNat) (hlt : t.toInt + iLastTime.toNat < 2 ^ 63)
    (hstores : ∀ op ∈ after, ¬Stores key op) :
    ∃ h₁ r h₂, h = h₁ ++ (.find key, [.find r]) :: h₂ ∧
      inputs h₁ = callsOf (before ++ (t, .insert key value iLastTime) :: after) ∧
      (r = none ↔ ∃ op ∈ after, Removes key (t.toInt + iLastTime.toNat) op) ∧
      (r = none ∨ r = some value) := by
  have hcalls : inputs h = callsOf (before ++ (t, .insert key value iLastTime) :: after) ++
      .find key :: callsOf later := by
    rw [hin]
    simp [callsOf, StoreOp.at]
  obtain ⟨h₁, o, h₂, u, v, rfl, hin₁, -, hu, hstep, -⟩ := hrun.step_of_inputs hcalls
  cases hstep
  refine ⟨h₁, u.find key, h₂, rfl, hin₁, ?_⟩
  -- the state that the `Insert` leaves
  have hcalls₁ : inputs h₁ = callsOf before ++ .insert key value iLastTime t :: callsOf after := by
    rw [hin₁]
    simp [callsOf, StoreOp.at]
  obtain ⟨k₁, o, k₂, w, x, rfl, -, hin₂, hw, hstepInsert, hafter⟩ := hu.step_of_inputs hcalls₁
  cases hstepInsert
  have hindex : TimeIndexed (w.insert key value iLastTime t) :=
    (timeIndexed_of_run hw).insert key value iLastTime t
  have hdata : (w.insert key value iLastTime t).mapAllData[key]? =
      some ⟨value, t.toUInt64 + iLastTime⟩ := by
    rw [getElem?_insert, if_pos rfl]
  have hexpiry : ∀ data, (w.insert key value iLastTime t).mapAllData[key]? = some data →
      (data.qwTime.toNat : Int) = t.toInt + iLastTime.toNat :=
    forall_data hdata (toNat_expiry hnonneg hlt)
  obtain ⟨hgone, hsame⟩ := getElem?_run hafter hin₂ hindex hlt hexpiry hstores
  unfold DBMS.find
  by_cases hremoved : ∃ op ∈ after, Removes key (t.toInt + iLastTime.toNat) op
  · rw [hgone hremoved]
    simp [hremoved]
  · rw [hsame fun op hmem hremoves => hremoved ⟨op, hmem, hremoves⟩, hdata]
    simp [hremoved]

/-- A sweep that comes too early and one that does not, after a clock below zero. -/
theorem find_eq_none_iff_two_sweeps :
    ∃ h db h₁ r h₂, DbmsRun h db ∧
      h = h₁ ++ (.find [65], [.find r]) :: h₂ ∧
      inputs h₁ = callsOf ([] ++ (-5, .insert [65] [1] 10) ::
        [(0, .updateData), (6, .updateData)]) ∧
      (r = none ↔ ∃ op ∈ [((0 : Int64), StoreOp.updateData), (6, .updateData)],
        Removes [65] ((-5 : Int64).toInt + (10 : UInt64).toNat) op) ∧
      (r = none ∨ r = some [1]) := by
  have hexec : (exec DBMS.step DBMS.empty (callsOf ([] ++ (-5, .insert [65] [1] 10) ::
      [(0, .updateData), (6, .updateData)] ++ (200, .find [65]) :: []))).isSome = true := rfl
  obtain ⟨h, db, hrun, hin⟩ := exists_runs_of_exec hexec
  have hstores : ∀ op ∈ [((0 : Int64), StoreOp.updateData), (6, .updateData)],
      ¬Stores [65] op := by
    simp [Stores]
  obtain ⟨h₁, r, h₂, heq, hbefore, hfound⟩ :=
    find_eq_none_iff hrun hin (by decide) (by decide) hstores
  exact ⟨h, db, h₁, r, h₂, hrun, heq, hbefore, hfound⟩

/-- A `Find` long after the expiry time, with no sweep before it. -/
theorem expired_key_found :
    ∃ h db, DbmsRun h db ∧
      inputs h = callsOf [(100, .insert [65] [1] 10), (1000, .find [65])] ∧
      (100 : Int64).toInt + (10 : UInt64).toNat < (1000 : Int64).toInt ∧
      h.getLast? = some (.find [65], [.find (some [1])]) := by
  have hexec : (exec DBMS.step DBMS.empty (callsOf [(100, .insert [65] [1] 10),
      (1000, .find [65])])).map (fun r => r.2.getLast?) =
      some (some (.find [65], [.find (some [1])])) := rfl
  obtain ⟨h, db, hrun, hin, hlast⟩ := exists_runs_of_exec_map List.getLast? hexec
  exact ⟨h, db, hrun, hin, by decide, hlast⟩

end ShootGame.Analysis
