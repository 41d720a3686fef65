import ShootGame.Model.Puts

/-!
# The server's encoder stays in its buffer

`Advances` is what any sequence of puts can do to a message: the cursor does not move
back and stays an offset of `m_byBuffer`, nothing outside of the buffer and nothing
below the cursor is written.  The relation is reflexive and transitive, so that it
carries over from one copy to a put with two of them and to a whole sequence.
-/

set_option autoImplicit false

namespace ShootGame.Analysis

open ShootGame.Library ShootGame.Model

/-- `hmg'` is `hmg` after writes between the cursor and the end of `m_byBuffer`. -/
structure Advances (hmg hmg' : HMessage) : Prop where
  iPos_mono : hmg.iPos ≤ hmg'.iPos
  iPos_le : hmg'.iPos ≤ 9999
  below : ∀ i < hmg.iPos, hmg'.byBuffer i = hmg.byBuffer i
  written : ∃ new, hmg'.accesses = hmg.accesses ++ new ∧
    ∀ a ∈ new, ∀ i, a.Covers i → hmg.iPos ≤ i ∧ i < 10000

namespace Advances

variable {hmg hmg' hmg'' : HMessage}

/-- A cursor inside of the buffer advances by nothing. -/
theorem refl (hle : hmg.iPos ≤ 9999) : Advances hmg hmg where
  iPos_mono := le_rfl
  iPos_le := hle
  below := fun _ _ => rfl
  written := ⟨[], by simp⟩

/-- Two advances are one. -/
theorem trans (h : Advances hmg hmg') (h' : Advances hmg' hmg'') : Advances hmg hmg'' where
  iPos_mono := h.iPos_mono.trans h'.iPos_mono
  iPos_le := h'.iPos_le
  below := by
    intro i hi
    rw [h'.below i (lt_of_lt_of_le hi h.iPos_mono), h.below i hi]
  written := by
    obtain ⟨new, haccesses, hnew⟩ := h.written
    obtain ⟨new', haccesses', hnew'⟩ := h'.written
    refine ⟨new ++ new', by rw [haccesses', haccesses, List.append_assoc], ?_⟩
    intro a ha i hi
    rcases List.mem_append.mp ha with hfirst | hsecond
    · exact hnew a hfirst i hi
    · have hrange := hnew' a hsecond i hi
      exact ⟨h.iPos_mono.trans hrange.1, hrange.2⟩

/-- A copy to the cursor of bytes that end before the capacity. -/
theorem of_copy (bs : List UInt8) {iSize : Int} (hlen : (bs.length : Int) = iSize)
    (hfit : hmg.iPos + iSize < 10000)
    (hbuffer : hmg'.byBuffer = (hmg.writeBytes bs).byBuffer)
    (haccesses : hmg'.accesses = (hmg.writeBytes bs).accesses)
    (hcursor : hmg'.iPos = hmg.iPos + iSize) : Advances hmg hmg' where
  iPos_mono := by omega
  iPos_le := by omega
  below := by
    intro i hi
    rw [hbuffer]
    exact Memory.store_apply_outside _ (Or.inl hi)
  written := by
    refine ⟨_, haccesses, ?_⟩
    intro a ha i hi
    rw [List.mem_singleton] at ha
    subst ha
    unfold Access.Covers at hi
    dsimp only at hi
    omega

end Advances

/-! ## One put -/

/-- What a call of a put function on `hmg` that returned `r` has to satisfy. -/
structure PutSafe (put : Put) (hmg : HMessage) (r : Bool × HMessage) : Prop where
  advances : Advances hmg r.2
  report : put.Primitive → (r.1 = false ↔ 10000 ≤ hmg.iPos + put.size)
  unchanged : put.Primitive → r.1 = false → r.2 = hmg

section OnePut

variable {hmg hmg' : HMessage}

/-- A copy behind `CheckPut`, where `hmg'` is the message after the copy. -/
theorem checked_safe (iSize : Int) (hpos : 0 ≤ hmg.iPos) (hle : hmg.iPos ≤ 9999)
    (hsize : 0 ≤ iSize) (hsmall : iSize ≤ 2 ^ 30)
    (hcopy : hmg.iPos + iSize < 10000 → Advances hmg hmg')
    {put : Put} (hput : put.Primitive → put.size = iSize) :
    PutSafe put hmg (if hmg.checkPut iSize = false then (false, hmg) else (true, hmg')) := by
  have hcheck : hmg.checkPut iSize = true ↔ hmg.iPos + iSize < 10000 :=
    checkPutAt_iff hpos (by omega) hsize hsmall
  cases hfits : hmg.checkPut iSize with
  | false =>
    have hfull : 10000 ≤ hmg.iPos + iSize := by
      rw [hfits] at hcheck
      simpa using hcheck
    refine ⟨Advances.refl hle, ?_, fun _ _ => rfl⟩
    intro hprimitive
    rw [hput hprimitive]
    simpa using hfull
  | true =>
    have hfit := hcheck.mp hfits
    refine ⟨hcopy hfit, ?_, fun _ hreport => by simp at hreport⟩
    intro hprimitive
    rw [hput hprimitive]
    simpa using hfit

/-- A length that is not negative is the same as a `size_t`. -/
theorem toSizeT_of_nonneg {iLen : Int} (hlen : 0 ≤ iLen) (hsmall : iLen ≤ 2 ^ 30) :
    (toSizeT iLen : Int) = iLen := by
  unfold toSizeT
  omega

/-- `putCharArray` is safe. -/
theorem putCharArray_safe (pData : List UInt8) {iLen : Int} (hpos : 0 ≤ hmg.iPos)
    (hle : hmg.iPos ≤ 9999) (hlen : 0 ≤ iLen) (hsmall : iLen ≤ 2 ^ 30) :
    PutSafe (.charArray pData iLen) hmg (hmg.putCharArray pData iLen) := by
  apply checked_safe iLen hpos hle hlen hsmall _ (fun _ => rfl)
  intro hfit
  refine Advances.of_copy (HMessage.charArray pData (toSizeT iLen)) ?_ hfit rfl rfl rfl
  simpa [HMessage.charArray] using toSizeT_of_nonneg hlen hsmall

/-- `putUShort` is safe. -/
theorem putUShort_safe (data : UInt16) (hpos : 0 ≤ hmg.iPos) (hle : hmg.iPos ≤ 9999) :
    PutSafe (.uShort data) hmg (hmg.putUShort data) := by
  apply checked_safe 2 hpos hle (by omega) (by omega) _ (fun _ => rfl)
  intro hfit
  exact Advances.of_copy (leBytes data) rfl hfit rfl rfl rfl

/-- The two copies of a string; the second is made only if the first was. -/
theorem putString_advances {str : List UInt8} (hpos : 0 ≤ hmg.iPos) (hle : hmg.iPos ≤ 9999)
    (hlen : 0 ≤ toInt str.length) (hsmall : toInt str.length ≤ 2 ^ 30) :
    Advances hmg (hmg.putString str).2 := by
  have hhead :=
    (putUShort_safe (UInt16.ofInt (toInt str.length)) hpos hle).advances
  unfold HMessage.putString
  dsimp only
  split
  · exact hhead
  · apply hhead.trans
    have hpos' := hpos.trans hhead.iPos_mono
    exact (putCharArray_safe str hpos' hhead.iPos_le hlen hsmall).advances

/-- Every put function keeps to the part of the buffer behind the cursor. -/
theorem put_safe {put : Put} (hlen : put.Bounded) (hpos : 0 ≤ hmg.iPos)
    (hle : hmg.iPos ≤ 9999) : PutSafe put hmg (put.run hmg) := by
  cases put with
  | char data =>
    apply checked_safe 1 hpos hle (by omega) (by omega) _ (fun _ => rfl)
    intro hfit
    exact Advances.of_copy [data] rfl hfit rfl rfl rfl
  | uShort data => exact putUShort_safe data hpos hle
  | uInt data =>
    apply checked_safe 4 hpos hle (by omega) (by omega) _ (fun _ => rfl)
    intro hfit
    exact Advances.of_copy (beBytes data) rfl hfit rfl rfl rfl
  | charArray pData iLen => exact putCharArray_safe pData hpos hle hlen.1 hlen.2
  | string str =>
    have hstr : str.length ≤ 2 ^ 30 := hlen
    have hint : toInt str.length = str.length :=
      HMessage.toInt_eq_self (by omega) (by omega)
    exact ⟨putString_advances hpos hle (by omega) (by omega), fun h => h.elim, fun h => h.elim⟩

end OnePut

/-! ## Every sequence -/

/-- By induction on the sequence; each put starts where the one before it left the cursor. -/
theorem runPuts_advances {puts : List Put} (hlen : ∀ put ∈ puts, put.Bounded) {hmg : HMessage}
    (hpos : 0 ≤ hmg.iPos) (hle : hmg.iPos ≤ 9999) :
    Advances hmg (runPuts Put.run puts hmg).2 := by
  induction puts generalizing hmg with
  | nil => exact Advances.refl hle
  | cons put puts ih =>
    rw [List.forall_mem_cons] at hlen
    have hput := (put_safe hlen.1 hpos hle).advances
    rw [runPuts_cons_snd]
    apply hput.trans
    exact ih hlen.2 (hpos.trans hput.iPos_mono) hput.iPos_le

/-- However many puts were made on a new message, the next one finds the cursor inside
`m_byBuffer` and writes behind it and inside of the buffer only. -/
theorem encoder_safe (junk : Junk) {puts before after : List Put} {put : Put}
    (hlen : ∀ p ∈ puts, p.Bounded) (hsplit : puts = before ++ put :: after) :
    let hmg := (runPuts Put.run before (HMessage.new junk)).2
    0 ≤ hmg.iPos ∧ hmg.iPos ≤ 9999 ∧ PutSafe put hmg (put.run hmg) := by
  intro hmg
  subst hsplit
  have hbefore : ∀ p ∈ before, p.Bounded := by
    intro p hp
    exact hlen p (List.mem_append_left _ hp)
  have hput : put.Bounded := hlen put (by simp)
  have hrun : Advances (HMessage.new junk) hmg := runPuts_advances hbefore le_rfl (by simp)
  have hpos : 0 ≤ hmg.iPos := hrun.iPos_mono
  exact ⟨hpos, hrun.iPos_le, put_safe hput hpos hrun.iPos_le⟩

/-- A string whose prefix fits and whose body does not, between two integers. -/
theorem encoder_safe_split_string :
    let hmg := (runPuts Put.run [.uInt 1, .string (List.replicate 9994 65)]
      (HMessage.new ⟨fun _ => 0, 0, 0⟩)).2
    0 ≤ hmg.iPos ∧ hmg.iPos ≤ 9999 ∧ PutSafe (.uShort 2) hmg (Put.run (.uShort 2) hmg) := by
  have hlen : ∀ p ∈ [Put.uInt 1, .string (List.replicate 9994 65), .uShort 2], p.Bounded := by
    intro p hp
    rcases List.mem_cons.mp hp with rfl | hp
    · trivial
    rcases List.mem_cons.mp hp with rfl | hp
    · change (List.replicate 9994 (65 : UInt8)).length ≤ 2 ^ 30
      rw [List.length_replicate]
      omega
    · rw [List.mem_singleton.mp hp]
      trivial
  exact encoder_safe ⟨fun _ => 0, 0, 0⟩ hlen rfl

/-! ## Strings of any length

A string of `2 ^ 31` bytes or more has a negative length as an `int`, which passes
`CheckPut` and makes the copy run over everything behind the cursor.  Where no copy runs
over the buffer, the lengths have been ordinary, and the puts advance. -/

/-- No access reaches behind the capacity. -/
def StaysInside (hmg : HMessage) : Prop := ∀ a ∈ hmg.accesses, a.start + a.len ≤ 10000

/-- The length of an array is an `int`. -/
def IntLength : Put → Prop
  | .charArray _ iLen => -2 ^ 31 ≤ iLen ∧ iLen < 2 ^ 31
  | _ => True

section Inside

variable {hmg : HMessage}

/-- A conversion to `int` yields an `int`. -/
theorem toInt_range (x : Int) : -2 ^ 31 ≤ toInt x ∧ toInt x < 2 ^ 31 := by
  have hlo : -((2 ^ 32 : ℕ) : Int) / 2 ≤ toInt x := Int.le_bmod (by decide)
  have hhi : toInt x < (((2 ^ 32 : ℕ) : Int) + 1) / 2 := Int.bmod_lt (by decide)
  constructor <;> omega

/-- A copy of any `int` length that stays inside of the buffer advances the message. -/
theorem putCharArray_advances_of_inside {pData : List UInt8} {iLen : Int} (hpos : 0 ≤ hmg.iPos)
    (hle : hmg.iPos ≤ 9999) (hlo : -2 ^ 31 ≤ iLen) (hhi : iLen < 2 ^ 31)
    (hin : StaysInside (hmg.putCharArray pData iLen).2) :
    Advances hmg (hmg.putCharArray pData iLen).2 := by
  cases hfits : hmg.checkPut iLen with
  | false =>
    rw [HMessage.putCharArray, hfits]
    exact Advances.refl hle
  | true =>
    rw [HMessage.putCharArray, hfits] at hin
    have hcopy := hin ⟨true, hmg.iPos, (HMessage.charArray pData (toSizeT iLen)).length⟩
      (List.mem_append_right _ (List.mem_singleton_self _))
    simp only [HMessage.charArray, List.length_map, List.length_range] at hcopy
    -- a negative length would have been a copy of almost `2 ^ 64` bytes
    unfold toSizeT at hcopy
    exact (putCharArray_safe pData hpos hle (by omega) (by omega)).advances

/-- So does any put that stays inside. -/
theorem put_advances_of_inside {put : Put} (hlen : IntLength put) (hpos : 0 ≤ hmg.iPos)
    (hle : hmg.iPos ≤ 9999) (hin : StaysInside (put.run hmg).2) :
    Advances hmg (put.run hmg).2 := by
  cases put with
  | charArray pData iLen => exact putCharArray_advances_of_inside hpos hle hlen.1 hlen.2 hin
  | string str =>
    obtain ⟨hlo, hhi⟩ := toInt_range str.length
    have hhead :=
      (putUShort_safe (UInt16.ofInt (toInt str.length)) hpos hle).advances
    simp only [Put.run, HMessage.putString] at hin ⊢
    split at hin
    · rename_i hreport
      rw [if_pos hreport]
      exact hhead
    · rename_i hreport
      rw [if_neg hreport]
      apply hhead.trans
      have hpos' := hpos.trans hhead.iPos_mono
      exact putCharArray_advances_of_inside hpos' hhead.iPos_le hlo hhi hin
  | char data => exact (put_safe (show (Put.char data).Bounded from trivial) hpos hle).advances
  | uShort data => exact (put_safe (show (Put.uShort data).Bounded from trivial) hpos hle).advances
  | uInt data => exact (put_safe (show (Put.uInt data).Bounded from trivial) hpos hle).advances

/-- A put behind a check only adds to the history of accesses. -/
theorem checked_accesses {hmg' : HMessage} (iSize : Int)
    (h : hmg.accesses <+: hmg'.accesses) :
    hmg.accesses <+:
      (if hmg.checkPut iSize = false then (false, hmg) else (true, hmg')).2.accesses := by
  split
  · exact List.prefix_rfl
  · exact h

/-- A put only adds to the history of accesses. -/
theorem put_accesses (put : Put) (hmg : HMessage) :
    hmg.accesses <+: (put.run hmg).2.accesses := by
  cases put with
  | string str =>
    have hhead : hmg.accesses <+: (hmg.putUShort (UInt16.ofInt (toInt str.length))).2.accesses :=
      checked_accesses 2 (List.prefix_append _ _)
    simp only [Put.run, HMessage.putString]
    split
    · exact hhead
    · exact hhead.trans (checked_accesses _ (List.prefix_append _ _))
  | _ => exact checked_accesses _ (List.prefix_append _ _)

/-- So do all puts. -/
theorem runPuts_accesses (puts : List Put) (hmg : HMessage) :
    hmg.accesses <+: (runPuts Put.run puts hmg).2.accesses := by
  induction puts generalizing hmg with
  | nil => exact List.prefix_rfl
  | cons put puts ih => exact (put_accesses put hmg).trans (ih _)

/-- A sequence that stays inside the buffer advances, whatever its strings are. -/
theorem runPuts_advances_of_inside {puts : List Put} (hlen : ∀ put ∈ puts, IntLength put)
    (hpos : 0 ≤ hmg.iPos) (hle : hmg.iPos ≤ 9999)
    (hin : StaysInside (runPuts Put.run puts hmg).2) :
    Advances hmg (runPuts Put.run puts hmg).2 := by
  induction puts generalizing hmg with
  | nil => exact Advances.refl hle
  | cons put puts ih =>
    rw [List.forall_mem_cons] at hlen
    have hfirst : StaysInside (put.run hmg).2 := by
      intro a ha
      exact hin a ((runPuts_accesses puts _).subset ha)
    have hput := put_advances_of_inside hlen.1 hpos hle hfirst
    apply hput.trans
    exact ih hlen.2 (hpos.trans hput.iPos_mono) hput.iPos_le hin

end Inside

end ShootGame.Analysis
