import ShootGame.Analysis.Expiry

/-!
# Lifetimes that pass `2 ^ 63`

`Insert` adds the clock and the lifetime as unsigned numbers, the time index keeps the
sums in unsigned order, and `UpdateData` compares the first of them signed.  A sum from
`2 ^ 63` on is negative there, so it is due at once, and such an entry stays only while
`StopsBelow` holds: another entry that is not due stands before it.  A sum from
`2 ^ 64` on has lost `2 ^ 64` and expired before it was stored.
-/

set_option autoImplicit false

namespace ShootGame.Analysis

open ShootGame.Library ShootGame.Model

/-! ## Signed and unsigned times -/

/-- From `2 ^ 63` on a time is read as a negative one. -/
theorem toInt_toInt64_neg {time : UInt64} (h : 2 ^ 63 ≤ time.toNat) : time.toInt64.toInt < 0 := by
  rw [← Int64.toInt_toBitVec, UInt64.toBitVec_toInt64, BitVec.toInt_neg_iff,
    UInt64.toNat_toBitVec]
  omega

/-- The comparison of `UpdateData`, for a clock that is not negative. -/
theorem gt_toInt64_iff {iCurTime : Int64} (hnonneg : 0 ≤ iCurTime.toInt) (time : UInt64) :
    iCurTime > time.toInt64 ↔ (time.toNat : Int) < iCurTime.toInt ∨ 2 ^ 63 ≤ time.toNat := by
  rw [gt_iff_lt, Int64.lt_iff_toInt_lt]
  by_cases hsign : 2 ^ 63 ≤ time.toNat
  · have hneg := toInt_toInt64_neg hsign
    exact iff_of_true (by omega) (.inr hsign)
  · rw [toInt_toInt64 (not_le.mp hsign)]
    exact (or_iff_left hsign).symm

/-! ## One sweep -/

/-- Some entry expires at a time that is neither before the clock nor negative. -/
def StopsBelow (db : DBMS) (iCurTime : Int64) : Prop :=
  ∃ (key : List UInt8) (data : MemData), db.mapAllData[key]? = some data ∧
    iCurTime.toInt ≤ data.qwTime.toNat ∧ data.qwTime.toNat < 2 ^ 63

section Sweep

variable {db : DBMS} {iCurTime : Int64} {key : List UInt8}

/-- A sweep takes a key away or leaves it as it is. -/
theorem getElem?_updateData_or (db : DBMS) (iCurTime : Int64) (key : List UInt8) :
    (db.updateData iCurTime).mapAllData[key]? = none ∨
      (db.updateData iCurTime).mapAllData[key]? = db.mapAllData[key]? := by
  unfold DBMS.updateData
  fun_induction DBMS.updateLoop iCurTime db with
  | case1 db hentries => exact .inr rfl
  | case2 db iDelTime first rest hentries hexpired ih =>
    rcases ih with hgone | hsame
    · exact .inl hgone
    · rw [hsame]
      change (db.mapAllData.erase first)[key]? = none ∨
        (db.mapAllData.erase first)[key]? = db.mapAllData[key]?
      rw [getElem?_eraseFirst]
      split_ifs
      · exact .inl rfl
      · exact .inr rfl
  | case3 db iDelTime first rest hentries hexpired => exact .inr rfl

/-- A round of the loop takes no entry away that would stop it. -/
theorem stopsBelow_eraseFirst (hindex : TimeIndexed db) (hnonneg : 0 ≤ iCurTime.toInt)
    {time : UInt64} {first : List UInt8} {rest : List (UInt64 × List UInt8)}
    (hentries : db.mapAllDataTime.entries = (time, first) :: rest)
    (hexpired : iCurTime > time.toInt64) :
    StopsBelow
        { mapAllData := db.mapAllData.erase first, mapAllDataTime := db.mapAllDataTime.erase 0 }
        iCurTime ↔ StopsBelow db iCurTime := by
  constructor
  · rintro ⟨k, data, hdata, hrange⟩
    rw [getElem?_eraseFirst] at hdata
    split_ifs at hdata
    exact ⟨k, data, hdata, hrange⟩
  · rintro ⟨k, data, hdata, hkept, hsign⟩
    refine ⟨k, data, ?_, hkept, hsign⟩
    have hne : first ≠ k := by
      rintro rfl
      obtain ⟨data', hdata', rfl⟩ := hindex.exists_first hentries
      rw [hdata, Option.some.injEq] at hdata'
      subst hdata'
      have hdue := (gt_toInt64_iff hnonneg data.qwTime).mp hexpired
      omega
    rw [getElem?_eraseFirst, if_neg hne]
    exact hdata

/-- Behind an entry with the sign bit none stops the loop. -/
theorem not_stopsBelow_of_first (hindex : TimeIndexed db) {time : UInt64} {first : List UInt8}
    {rest : List (UInt64 × List UInt8)}
    (hentries : db.mapAllDataTime.entries = (time, first) :: rest)
    (hsign : 2 ^ 63 ≤ time.toNat) : ¬ StopsBelow db iCurTime := by
  rintro ⟨k, data, hdata, -, hlt⟩
  have hmem := hindex.mem_of_data hdata
  have hsorted := db.mapAllDataTime.sorted
  rw [hentries] at hmem hsorted
  rcases List.mem_cons.mp hmem with heq | htail
  · rw [Prod.mk.injEq] at heq
    rw [heq.1] at hlt
    omega
  · have hle := UInt64.le_iff_toNat_le.mp ((List.pairwise_cons.mp hsorted).1 _ htail)
    simp only at hle
    omega

/-- An entry with the sign bit survives a sweep exactly if the loop stops before it. -/
theorem getElem?_updateData_of_sign (hindex : TimeIndexed db) (hnonneg : 0 ≤ iCurTime.toInt)
    (hsign : ∀ data, db.mapAllData[key]? = some data → 2 ^ 63 ≤ data.qwTime.toNat) :
    (StopsBelow db iCurTime →
        (db.updateData iCurTime).mapAllData[key]? = db.mapAllData[key]?) ∧
      (¬ StopsBelow db iCurTime → (db.updateData iCurTime).mapAllData[key]? = none) := by
  unfold DBMS.updateData
  fun_induction DBMS.updateLoop iCurTime db with
  | case1 db hentries =>
    exact ⟨fun _ => rfl, fun _ => hindex.getElem?_of_nil hentries key⟩
  | case2 db iDelTime first rest hentries hexpired ih =>
    have herase := getElem?_eraseFirst db first key
    have hsign' : ∀ data, (db.mapAllData.erase first)[key]? = some data →
        2 ^ 63 ≤ data.qwTime.toNat := by
      intro data hdata
      rw [herase] at hdata
      split_ifs at hdata
      exact hsign data hdata
    obtain ⟨hkept, hgone⟩ := ih (hindex.eraseFirst hentries) hsign'
    rw [stopsBelow_eraseFirst hindex hnonneg hentries hexpired] at hkept hgone
    refine ⟨fun hstops => ?_, hgone⟩
    have hne : first ≠ key := by
      rintro rfl
      obtain ⟨data, hdata, rfl⟩ := hindex.exists_first hentries
      exact not_stopsBelow_of_first hindex hentries (hsign data hdata) hstops
    rw [hkept hstops]
    exact herase.trans (if_neg hne)
  | case3 db iDelTime first rest hentries hexpired =>
    refine ⟨fun _ => rfl, fun hstops => absurd ?_ hstops⟩
    obtain ⟨data, hdata, rfl⟩ := hindex.exists_first hentries
    rw [gt_toInt64_iff hnonneg, not_or] at hexpired
    exact ⟨first, data, hdata, by omega, by omega⟩

end Sweep

/-! ## What a lifetime promises -/

/-- The sweep at `iCurTime` leaves an entry stored at `t` for `iLastTime` as long as the
two add up to its time or more, and takes it away when they do not. -/
def LifetimeHonoured (key : List UInt8) (t : Int64) (iLastTime : UInt64) (db : DBMS)
    (iCurTime : Int64) : Prop :=
  (t.toInt ≤ iCurTime.toInt ∧ iCurTime.toInt ≤ t.toInt + iLastTime.toNat →
      (db.updateData iCurTime).mapAllData[key]? = db.mapAllData[key]?) ∧
    (t.toInt + iLastTime.toNat < iCurTime.toInt →
      (db.updateData iCurTime).mapAllData[key]? = none)

/-- The sweep is before the insertion or finds the entry gone, or the sum is below
`2 ^ 63`, or it is below `2 ^ 64` and the sweep stops before the entry. -/
def LifetimeFits (key : List UInt8) (t : Int64) (iLastTime : UInt64) (db : DBMS)
    (iCurTime : Int64) : Prop :=
  iCurTime.toInt < t.toInt ∨ db.mapAllData[key]? = none ∨
    t.toInt + iLastTime.toNat < 2 ^ 63 ∨
    (t.toInt + iLastTime.toNat < 2 ^ 64 ∧ StopsBelow db iCurTime)

section Lifetime

variable {db : DBMS} {key : List UInt8} {t iCurTime : Int64} {iLastTime : UInt64}

/-- A sweep before the insertion breaks no promise. -/
theorem lifetimeHonoured_of_lt (h : iCurTime.toInt < t.toInt) :
    LifetimeHonoured key t iLastTime db iCurTime :=
  ⟨fun hbetween => absurd hbetween.1 (by omega), fun hafter => absurd hafter (by omega)⟩

/-- Nor does a sweep that finds the entry gone. -/
theorem lifetimeHonoured_of_none (h : db.mapAllData[key]? = none) :
    LifetimeHonoured key t iLastTime db iCurTime := by
  have hnone : (db.updateData iCurTime).mapAllData[key]? = none := by
    rcases getElem?_updateData_or db iCurTime key with hgone | hsame
    · exact hgone
    · rw [hsame, h]
  exact ⟨fun _ => hnone.trans h.symm, fun _ => hnone⟩

/-- A clock does not pass a sum from `2 ^ 63` on, so the entry has to stay. -/
theorem lifetimeHonoured_iff_kept (hbefore : t.toInt ≤ iCurTime.toInt)
    (hsum : 2 ^ 63 ≤ t.toInt + iLastTime.toNat) :
    LifetimeHonoured key t iLastTime db iCurTime ↔
      (db.updateData iCurTime).mapAllData[key]? = db.mapAllData[key]? := by
  have hclock := iCurTime.toInt_lt
  constructor
  · intro h
    exact h.1 ⟨hbefore, by omega⟩
  · intro h
    exact ⟨fun _ => h, fun hafter => absurd hafter (by omega)⟩

variable {data : MemData}

/-- Below `2 ^ 63` the stamp is the sum, and the sweep compares with it. -/
theorem lifetimeHonoured_of_sum_lt (hindex : TimeIndexed db)
    (hdata : db.mapAllData[key]? = some data)
    (hstamp : (data.qwTime.toNat : Int) = t.toInt + iLastTime.toNat)
    (hsum : t.toInt + iLastTime.toNat < 2 ^ 63) :
    LifetimeHonoured key t iLastTime db iCurTime := by
  have hrange : ∀ d, db.mapAllData[key]? = some d → d.qwTime.toNat < 2 ^ 63 :=
    forall_data hdata (by omega)
  have hsweep := getElem?_updateData_of_lt hindex iCurTime hrange
  rw [hdata, Option.filter_some] at hsweep
  constructor
  · intro hbetween
    rw [hsweep, hdata, if_pos (by simpa [isDue, hstamp] using hbetween.2)]
  · intro hafter
    rw [hsweep, if_neg (by simpa [isDue, hstamp] using hafter)]

/-- From `2 ^ 64` on the stamp is before the insertion, and any sweep since takes the
entry away. -/
theorem updateData_of_wrapped (hindex : TimeIndexed db) (hdata : db.mapAllData[key]? = some data)
    (hlt : t.toInt < 2 ^ 62) (hbefore : t.toInt ≤ iCurTime.toInt)
    (hstamp : (data.qwTime.toNat : Int) + 2 ^ 64 = t.toInt + iLastTime.toNat) :
    (db.updateData iCurTime).mapAllData[key]? = none := by
  have hlife := iLastTime.toNat_lt
  have hrange : ∀ d, db.mapAllData[key]? = some d → d.qwTime.toNat < 2 ^ 63 :=
    forall_data hdata (by omega)
  have hdue : isDue iCurTime data = true := by
    unfold isDue
    rw [decide_eq_true_iff]
    omega
  rw [getElem?_updateData_of_lt hindex iCurTime hrange, hdata, Option.filter_some]
  simp [hdue]

/-- A sweep keeps the promise exactly if the lifetime fits. -/
theorem lifetimeHonoured_iff_fits (hindex : TimeIndexed db) (hnonneg : 0 ≤ t.toInt)
    (hlt : t.toInt < 2 ^ 62)
    (hstamp : ∀ data, db.mapAllData[key]? = some data →
      data.qwTime = t.toUInt64 + iLastTime) :
    LifetimeHonoured key t iLastTime db iCurTime ↔ LifetimeFits key t iLastTime db iCurTime := by
  unfold LifetimeFits
  rcases lt_or_ge iCurTime.toInt t.toInt with hearly | hbefore
  · exact iff_of_true (lifetimeHonoured_of_lt hearly) (.inl hearly)
  rw [or_iff_right (not_lt.mpr hbefore)]
  cases hdata : db.mapAllData[key]? with
  | none => exact iff_of_true (lifetimeHonoured_of_none hdata) (.inl rfl)
  | some data =>
    rw [or_iff_right (by simp)]
    have hnat := toNat_stamp t iLastTime
    rw [← hstamp data hdata] at hnat
    have hlife := iLastTime.toNat_lt
    rcases lt_or_ge (t.toInt + iLastTime.toNat) (2 ^ 63) with hsmall | hsign
    · rw [Int.emod_eq_of_lt (by omega) (by omega)] at hnat
      exact iff_of_true (lifetimeHonoured_of_sum_lt hindex hdata hnat hsmall) (.inl hsmall)
    rw [or_iff_right (not_lt.mpr hsign), lifetimeHonoured_iff_kept hbefore hsign]
    rcases lt_or_ge (t.toInt + iLastTime.toNat) (2 ^ 64) with hfits | hwrapped
    · -- the stamp is the sum and has the sign bit
      rw [Int.emod_eq_of_lt (by omega) hfits] at hnat
      have hsigned : ∀ d, db.mapAllData[key]? = some d → 2 ^ 63 ≤ d.qwTime.toNat :=
        forall_data hdata (by omega)
      obtain ⟨hkept, hgone⟩ :=
        getElem?_updateData_of_sign hindex (hnonneg.trans hbefore) hsigned
      rw [and_iff_right hfits]
      refine ⟨fun hsame => ?_, hkept⟩
      by_contra hstops
      rw [hgone hstops, hdata] at hsame
      cases hsame
    · have hless : (data.qwTime.toNat : Int) + 2 ^ 64 = t.toInt + iLastTime.toNat := by
        omega
      rw [updateData_of_wrapped hindex hdata hlt hbefore hless, hdata]
      refine iff_of_false (by simp) fun hfits => ?_
      exact absurd hfits.1 (not_lt.mpr hwrapped)

end Lifetime

/-! ## Runs -/

/-- The operation stores the key or deletes it. -/
def Touches (key : List UInt8) (op : Int64 × StoreOp) : Prop :=
  Stores key op ∨ op.2 = .del key

/-- An operation that does not touch the key takes it away or leaves it as it is. -/
theorem getElem?_step_or {db db' : DBMS} {op : Int64 × StoreOp} {o : List DbmsResult}
    {key : List UInt8} (hstep : db.step (op.2.at op.1) = some (db', o))
    (htouches : ¬ Touches key op) :
    db'.mapAllData[key]? = none ∨ db'.mapAllData[key]? = db.mapAllData[key]? := by
  obtain ⟨now, op⟩ := op
  cases op with
  | insert k value iLastTime =>
    cases hstep
    have hne : k ≠ key := by
      rintro rfl
      exact htouches (.inl ⟨value, iLastTime, rfl⟩)
    exact .inr (by rw [getElem?_insert, if_neg hne])
  | del strKey =>
    cases hstep
    have hne : strKey ≠ key := by
      rintro rfl
      exact htouches (.inr rfl)
    exact .inr (by rw [getElem?_del, if_neg hne])
  | updateData =>
    cases hstep
    exact getElem?_updateData_or db now key
  | find k =>
    cases hstep
    exact .inr rfl
  | size =>
    cases hstep
    exact .inr rfl

/-- By induction on the operations: an entry that none of them touches is the one that
was stored. -/
theorem getElem?_run_or {db db' : DBMS} {ops : List (Int64 × StoreOp)}
    {h : List (DbmsCall × List DbmsResult)} {key : List UInt8}
    (hrun : Runs DBMS.step db h db') (hin : inputs h = callsOf ops)
    (htouches : ∀ op ∈ ops, ¬ Touches key op) :
    db'.mapAllData[key]? = none ∨ db'.mapAllData[key]? = db.mapAllData[key]? := by
  induction ops generalizing db h with
  | nil =>
    rw [hrun.eq_of_inputs_nil hin]
    exact .inr rfl
  | cons op ops ih =>
    obtain ⟨o, h, u, rfl, hrest, hstep, htail⟩ := hrun.first_of_inputs hin
    rw [List.forall_mem_cons] at htouches
    rcases ih htail hrest htouches.2 with hgone | hsame
    · exact .inl hgone
    · rw [hsame]
      exact getElem?_step_or hstep htouches.1

/-- Every sweep among the later operations has the property, in the store that the
operations before it lead to. -/
def AtEachSweep (P : DBMS → Int64 → Prop) (before after : List (Int64 × StoreOp)) : Prop :=
  ∀ after₁ iCurTime after₂ h db, after = after₁ ++ (iCurTime, .updateData) :: after₂ →
    DbmsRun h db → inputs h = callsOf (before ++ after₁) → P db iCurTime

/-- An entry that is not touched after it was stored has its lifetime honoured by every
sweep exactly if it fits at every sweep. -/
theorem lifetimes_honoured_iff {before after : List (Int64 × StoreOp)} {t : Int64}
    {key value : List UInt8} {iLastTime : UInt64} (hnonneg : 0 ≤ t.toInt)
    (hlt : t.toInt < 2 ^ 62) (htouches : ∀ op ∈ after, ¬ Touches key op) :
    AtEachSweep (LifetimeHonoured key t iLastTime)
        (before ++ [(t, .insert key value iLastTime)]) after ↔
      AtEachSweep (LifetimeFits key t iLastTime)
        (before ++ [(t, .insert key value iLastTime)]) after := by
  unfold AtEachSweep
  refine forall₅_congr fun after₁ iCurTime after₂ h db => ?_
  refine forall₃_congr fun hsplit hrun hin => ?_
  apply lifetimeHonoured_iff_fits (timeIndexed_of_run hrun) hnonneg hlt
  intro data hdata
  have hcalls : inputs h = callsOf before ++ .insert key value iLastTime t :: callsOf after₁ := by
    rw [hin]
    simp [callsOf, StoreOp.at]
  obtain ⟨h₁, o, h₂, u, v, rfl, -, hin₂, -, hstep, hafter⟩ := hrun.step_of_inputs hcalls
  cases hstep
  have htouches₁ : ∀ op ∈ after₁, ¬ Touches key op := by
    intro op hmem
    apply htouches
    rw [hsplit]
    exact List.mem_append_left _ hmem
  rcases getElem?_run_or hafter hin₂ htouches₁ with hgone | hsame
  · rw [hgone] at hdata
    cases hdata
  · rw [hsame, getElem?_insert, if_pos rfl, Option.some.injEq] at hdata
    rw [← hdata]

/-- A lifetime of `2 ^ 63`, next to an account that is not due at the first sweep and is
at the second. -/
theorem lifetimes_honoured_guarded :
    AtEachSweep (LifetimeHonoured [65] 101 9223372036854775808)
        ([(100, .insert [66] [2] 10)] ++ [(101, .insert [65] [1] 9223372036854775808)])
        [(102, .updateData), (103, .find [65]), (111, .updateData)] ↔
      AtEachSweep (LifetimeFits [65] 101 9223372036854775808)
        ([(100, .insert [66] [2] 10)] ++ [(101, .insert [65] [1] 9223372036854775808)])
        [(102, .updateData), (103, .find [65]), (111, .updateData)] :=
  lifetimes_honoured_iff (by decide) (by decide) (by simp [Touches, Stores])

/-- The same lifetime with no other entry, and a sweep in the next second. -/
theorem not_lifetimes_honoured :
    ¬ ∀ (before after : List (Int64 × StoreOp)) (t : Int64) (key value : List UInt8)
        (iLastTime : UInt64), 0 ≤ t.toInt → t.toInt < 2 ^ 62 → (∀ op ∈ after, ¬ Touches key op) →
      AtEachSweep (LifetimeHonoured key t iLastTime)
        (before ++ [(t, .insert key value iLastTime)]) after := by
  intro hclaim
  have htouches : ∀ op ∈ [((101 : Int64), StoreOp.updateData)], ¬ Touches [65] op := by
    simp [Touches, Stores]
  have hrun : DbmsRun [(.insert [65] [1] 9223372036854775808 100, [])]
      (DBMS.empty.insert [65] [1] 9223372036854775808 100) :=
    Runs.single rfl
  have hhonoured := hclaim [] _ 100 [65] [1] 9223372036854775808 (by decide) (by decide) htouches
    [] 101 [] _ _ rfl hrun rfl
  have hentry : ∀ (key : List UInt8) (data : MemData),
      (DBMS.empty.insert [65] [1] 9223372036854775808 100).mapAllData[key]? = some data →
        data.qwTime = (100 : Int64).toUInt64 + 9223372036854775808 := by
    intro key data hdata
    rw [getElem?_insert] at hdata
    split_ifs at hdata with hkey
    · rw [Option.some.injEq] at hdata
      rw [← hdata]
    · simp [DBMS.empty] at hdata
  rw [lifetimeHonoured_iff_fits (timeIndexed_of_run hrun) (by decide) (by decide)
    (hentry [65])] at hhonoured
  rcases hhonoured with hearly | hnone | hsum | ⟨-, k, data, hdata, -, hlt⟩
  · exact absurd hearly (by decide)
  · rw [getElem?_insert, if_pos rfl] at hnone
    cases hnone
  · exact absurd hsum (by decide)
  · rw [hentry k data hdata] at hlt
    exact absurd hlt (by decide)

end ShootGame.Analysis
