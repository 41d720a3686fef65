import ShootGame.Analysis.FailedPuts

/-!
# The comparison in `CheckPut`

`putString` converts the length of the string to an `int`, and `CheckPut` adds it to the
cursor in 32 bits.  Both reduce modulo `2 ^ 32`, and so the check looks at the residue of
the true sum, read with a sign.  It refuses a residue from 10000 up to `2 ^ 31` and no
other: a sum that comes to `2 ^ 31` passes as a negative number, and one beyond `2 ^ 32`
as a small one.
-/

set_option autoImplicit false

namespace ShootGame.Analysis

open ShootGame.Library ShootGame.Model

/-- Of the two copies of a `putString` that left the result `r` both were performed: that
of the prefix, at the cursor, and that of the bytes. -/
def CopiesBytes (hmg : HMessage) (r : Bool × HMessage) : Prop :=
  ∃ copy : Access, r.2.accesses = hmg.accesses ++ [⟨true, hmg.iPos, 2⟩, copy]

/-- The bytes are copied only if the length is an `int` and the bytes end, in the integers,
before the capacity. -/
def ChecksLength (putString : List UInt8 → HMessage → Bool × HMessage) (hmg : HMessage)
    (str : List UInt8) : Prop :=
  CopiesBytes hmg (putString str hmg) →
    0 ≤ toInt str.length ∧ toInt str.length = str.length ∧ hmg.iPos + 2 + str.length < 10000

/-- A sum that is at least the capacity when reduced to 32 bits. -/
def Refused (sum : Int) : Prop := 10000 ≤ sum % 2 ^ 32 ∧ sum % 2 ^ 32 < 2 ^ 31

/-- A cursor and a length at which the prefix or the bytes are refused, or fit. -/
def LengthDecided (iPos : Int) (length : ℕ) : Prop :=
  Refused (iPos + 2) ∨ Refused (iPos + 2 + length) ∨
    (length < 2 ^ 31 ∧ iPos + 2 + length < 10000)

/-! ## The check -/

/-- Reading a residue with a sign leaves it below the capacity unless it is refused. -/
theorem toInt_lt_iff (sum : Int) : toInt sum < 10000 ↔ ¬ Refused sum := by
  unfold toInt Refused
  rw [Int.bmod_eq_emod]
  split <;> omega

/-- The conversion of the length and the sum wrap as one. -/
theorem toInt_add_toInt (iPos length : Int) : toInt (iPos + toInt length) = toInt (iPos + length) :=
  Int.add_bmod_bmod

/-- `CheckPut` accepts what is not refused, wraps included. -/
theorem checkPutAt_iff_not_refused (iPos length : Int) :
    checkPutAt iPos (toInt length) = true ↔ ¬ Refused (iPos + length) := by
  unfold checkPutAt
  rw [toInt_add_toInt, decide_eq_true_iff, toInt_lt_iff]

/-- An `int` holds exactly the lengths below `2 ^ 31`. -/
theorem toInt_natCast_iff (n : ℕ) : toInt n = n ↔ n < 2 ^ 31 := by
  constructor
  · intro h
    have hlt := Int.bmod_lt (x := n) (m := 2 ^ 32) (by decide)
    unfold toInt at h
    omega
  · intro h
    exact HMessage.toInt_eq_self (by omega) (by omega)

/-! ## The copies of a string -/

section Copies

variable {hmg : HMessage} {str : List UInt8}

/-- An accepted `putUShort` writes two bytes at the cursor. -/
theorem putUShort_accesses (data : UInt16) (h : checkPutAt hmg.iPos 2 = true) :
    (hmg.putUShort data).2.accesses = hmg.accesses ++ [⟨true, hmg.iPos, 2⟩] := by
  rw [HMessage.putUShort, HMessage.checkPut_eq, h]
  rfl

/-- An accepted `putCharArray` writes its array at the cursor. -/
theorem putCharArray_accesses (pData : List UInt8) {iLen : Int}
    (h : checkPutAt hmg.iPos iLen = true) :
    (hmg.putCharArray pData iLen).2.accesses =
      hmg.accesses ++ [⟨true, hmg.iPos, (HMessage.charArray pData (toSizeT iLen)).length⟩] := by
  rw [HMessage.putCharArray, HMessage.checkPut_eq, h]
  rfl

/-- The bytes are copied where both checks hold. -/
theorem copiesBytes_iff (hmg : HMessage) (str : List UInt8) :
    CopiesBytes hmg (hmg.putString str) ↔
      checkPutAt hmg.iPos 2 = true ∧ checkPutAt (hmg.iPos + 2) (toInt str.length) = true := by
  cases hhead : checkPutAt hmg.iPos 2 with
  | false =>
    rw [putString_refused hhead]
    simp [CopiesBytes]
  | true =>
    obtain ⟨hreport, hcursor⟩ := HMessage.putUShort_spec (UInt16.ofInt (toInt str.length)) hmg
    have hmoved := hcursor hhead
    have hprefix := putUShort_accesses (UInt16.ofInt (toInt str.length)) hhead
    unfold CopiesBytes HMessage.putString
    dsimp only
    rw [hreport, hhead, if_neg (by simp)]
    cases hbytes : checkPutAt (hmg.iPos + 2) (toInt str.length) with
    | false =>
      rw [putCharArray_refused (by rw [hmoved]; exact hbytes), hprefix]
      simp
    | true =>
      rw [putCharArray_accesses str (by rw [hmoved]; exact hbytes), hprefix, List.append_assoc]
      simp

/-- A length that was accepted is the true one, and fits, where it was decided. -/
theorem checksLength_iff (hmg : HMessage) (str : List UInt8) :
    ChecksLength HMessage.putString hmg str ↔ LengthDecided hmg.iPos str.length := by
  have hprefix := checkPutAt_iff_not_refused hmg.iPos 2
  have hbytes := checkPutAt_iff_not_refused (hmg.iPos + 2) str.length
  rw [HMessage.toInt_eq_self (by omega) (by omega)] at hprefix
  unfold ChecksLength
  rw [copiesBytes_iff, hprefix, hbytes, toInt_natCast_iff]
  constructor
  · intro hchecks
    by_cases hhead : Refused (hmg.iPos + 2)
    · exact Or.inl hhead
    by_cases hbody : Refused (hmg.iPos + 2 + str.length)
    · exact Or.inr (Or.inl hbody)
    exact Or.inr (Or.inr (hchecks ⟨hhead, hbody⟩).2)
  · rintro hdecided ⟨hhead, hbody⟩
    rcases hdecided with hrefused | hrefused | ⟨hint, hfits⟩
    · exact absurd hrefused hhead
    · exact absurd hrefused hbody
    · refine ⟨?_, hint, hfits⟩
      rw [(toInt_natCast_iff str.length).mpr hint]
      exact Int.natCast_nonneg _

end Copies

/-- At a cursor with room for the prefix, a length that does not fit is refused if its
residue is too large for the buffer and too small for the sum to become negative. -/
theorem lengthDecided_iff {iPos : Int} (hpos : 0 ≤ iPos) (hroom : iPos + 2 < 10000) (n : ℕ) :
    LengthDecided iPos n ↔
      iPos + 2 + n < 10000 ∨
        10000 ≤ iPos + 2 + n % 2 ^ 32 ∧ iPos + 2 + n % 2 ^ 32 < 2 ^ 31 := by
  unfold LengthDecided Refused
  omega

/-- The bytes of a string are copied only at a length that truly fits, by the server's and
by the client's `putString`, exactly where the length is decided, and so in every sequence
of calls. -/
theorem capacity_check_iff (hmg : HMessage) (str : List UInt8) (start : HMessage)
    (h : List (MsgOp × List MsgResult)) :
    (ChecksLength HMessage.putString hmg str ↔ LengthDecided hmg.iPos str.length) ∧
      (ChecksLength GameHMsg.putString hmg str ↔ LengthDecided hmg.iPos str.length) ∧
      (AtEachString (ChecksLength HMessage.putString) start h ↔
        AtEachString (fun hmg str => LengthDecided hmg.iPos str.length) start h) := by
  refine ⟨checksLength_iff hmg str, ?_, ?_⟩
  · rw [← checksLength_iff]
    unfold ChecksLength
    rw [GameHMsg.putString_eq]
  · unfold AtEachString
    simp only [checksLength_iff]

/-- A string of `2 ^ 31` bytes in a new message: as an `int` its length is negative. -/
theorem not_capacity_check :
    ¬ ∀ (start last : HMessage) (h : List (MsgOp × List MsgResult)), Constructed start →
      Runs MsgOp.step start h last → ∀ str, ChecksLength HMessage.putString last str := by
  intro hclaim
  have hchecks := hclaim (HMessage.new ⟨fun _ => 0, 0, 0⟩) _ [] (.new _) .start
    (List.replicate (2 ^ 31) 65)
  rw [checksLength_iff, List.length_replicate, HMessage.new_iPos,
    lengthDecided_iff le_rfl (by decide)] at hchecks
  exact absurd hchecks (by decide)

end ShootGame.Analysis
