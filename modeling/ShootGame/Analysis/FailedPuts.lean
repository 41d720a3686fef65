import ShootGame.Model.MessageOps

/-!
# Strings that do not fit

`putString` makes two checks, one for the prefix and one for the bytes.  Where the first
succeeds and the second fails the prefix stays in the buffer, with the cursor behind it.
`failed_putString_iff` says that this is the only way in which a failed `putString`
changes the message, and that a sequence of calls which avoids it loses nothing by its
failed strings: without them it ends in the same message.
-/

set_option autoImplicit false

namespace ShootGame.Analysis

open ShootGame.Library ShootGame.Model

/-- If `putString` fails, the buffer, the cursor and the used size are as before. -/
def FailsCleanly (hmg : HMessage) (str : List UInt8) : Prop :=
  (hmg.putString str).1 = false →
    (hmg.putString str).2.byBuffer = hmg.byBuffer ∧ (hmg.putString str).2.iPos = hmg.iPos ∧
      (hmg.putString str).2.iDataUseSize = hmg.iDataUseSize

/-- At this cursor `CheckPut` accepts the prefix of the string and refuses its bytes. -/
def PrefixAlone (iPos : Int) (str : List UInt8) : Prop :=
  checkPutAt iPos 2 = true ∧ checkPutAt (iPos + 2) (toInt str.length) = false

instance (iPos : Int) (str : List UInt8) : Decidable (PrefixAlone iPos str) :=
  inferInstanceAs (Decidable (_ ∧ _))

/-! ## One call -/

section OneCall

variable {hmg : HMessage} {str : List UInt8}

/-- A refused `putUShort` leaves the message as it is. -/
theorem putUShort_refused (data : UInt16) (h : checkPutAt hmg.iPos 2 = false) :
    hmg.putUShort data = (false, hmg) := by
  rw [HMessage.putUShort, HMessage.checkPut_eq, if_pos h]

/-- Where the prefix is refused nothing has happened yet. -/
theorem putString_refused (h : checkPutAt hmg.iPos 2 = false) :
    hmg.putString str = (false, hmg) := by
  unfold HMessage.putString
  dsimp only
  rw [putUShort_refused _ h, if_pos rfl]

/-- A refused `putCharArray` leaves the message as it is. -/
theorem putCharArray_refused {pData : List UInt8} {iLen : Int}
    (h : checkPutAt hmg.iPos iLen = false) : hmg.putCharArray pData iLen = (false, hmg) := by
  rw [HMessage.putCharArray, HMessage.checkPut_eq, if_pos h]

/-- Where only the bytes are refused the prefix has been written. -/
theorem putString_prefixAlone (h : PrefixAlone hmg.iPos str) :
    (hmg.putString str).1 = false ∧ (hmg.putString str).2.iPos = hmg.iPos + 2 := by
  obtain ⟨hhead, hbytes⟩ := h
  obtain ⟨hreport, hcursor⟩ := HMessage.putUShort_spec (UInt16.ofInt (toInt str.length)) hmg
  have hmoved := hcursor hhead
  unfold HMessage.putString
  dsimp only
  rw [hreport, hhead, if_neg (by simp), putCharArray_refused (by rw [hmoved]; exact hbytes)]
  exact ⟨rfl, hmoved⟩

/-- A `putString` that fails at its prefix leaves the message as it is. -/
theorem putString_unchanged (hfail : (hmg.putString str).1 = false)
    (h : ¬ PrefixAlone hmg.iPos str) : (hmg.putString str).2 = hmg := by
  cases hhead : checkPutAt hmg.iPos 2 with
  | false => rw [putString_refused hhead]
  | true =>
    -- then the report is that of the second check
    exfalso
    have hreport := ((Put.string str).run_spec hmg).1
    change (hmg.putString str).1 = (checkPutAt hmg.iPos 2 && _) at hreport
    rw [hfail, hhead, Bool.true_and] at hreport
    exact h ⟨hhead, hreport.symm⟩

/-- A `putString` fails cleanly unless its prefix is put alone. -/
theorem failsCleanly_iff (hmg : HMessage) (str : List UInt8) :
    FailsCleanly hmg str ↔ ¬ PrefixAlone hmg.iPos str := by
  constructor
  · intro hclean halone
    obtain ⟨hfail, hcursor⟩ := putString_prefixAlone halone
    have hsame := (hclean hfail).2.1
    omega
  · intro h hfail
    rw [putString_unchanged hfail h]
    exact ⟨rfl, rfl, rfl⟩

end OneCall

/-! ## Sequences of calls -/

/-- Every `putString` of the run has the property, in the message it is called on. -/
def AtEachString (P : HMessage → List UInt8 → Prop) (start : HMessage)
    (h : List (MsgOp × List MsgResult)) : Prop :=
  ∀ h₁ str o h₂ hmg, h = h₁ ++ (.put (.string str), o) :: h₂ →
    Runs MsgOp.step start h₁ hmg → P hmg str

/-- A call other than a `putString` that reported failure. -/
def isNoFailedString : MsgOp × List MsgResult → Bool
  | (.put (.string _), o) => !decide (o = [.report false])
  | _ => true

section Sequences

variable {start last : HMessage} {h : List (MsgOp × List MsgResult)}

/-- What holds of each string of a run holds of each in its first part. -/
theorem AtEachString.initial {P : HMessage → List UInt8 → Prop}
    {k : List (MsgOp × List MsgResult)} (hall : AtEachString P start (h ++ k)) :
    AtEachString P start h := by
  intro h₁ str o h₂ hmg hsplit hr
  refine hall h₁ str o (h₂ ++ k) hmg ?_ hr
  rw [hsplit, List.append_assoc, List.cons_append]

/-- A step that the filter drops has not changed the message. -/
theorem step_failedString {hmg hmg' : HMessage} {op : MsgOp} {o : List MsgResult}
    (hstep : MsgOp.step hmg op = some (hmg', o)) (hdrop : isNoFailedString (op, o) = false)
    (hclean : ∀ str, op = .put (.string str) → ¬ PrefixAlone hmg.iPos str) : hmg' = hmg := by
  rw [MsgOp.step_eq_some_iff] at hstep
  obtain ⟨rfl, rfl⟩ := hstep
  cases op with
  | put put =>
    cases put with
    | string str =>
      simp only [isNoFailedString, Bool.not_eq_false', decide_eq_true_eq, List.cons.injEq,
        and_true] at hdrop
      exact putString_unchanged (MsgResult.report.inj hdrop) (hclean str rfl)
    | _ => cases hdrop
  | _ => cases hdrop

/-- By induction on the run: each call is either kept, or a failed string that left the
message as it was. -/
theorem runs_without_failed (hr : Runs MsgOp.step start h last) :
    AtEachString (fun hmg str => ¬ PrefixAlone hmg.iPos str) start h →
      Runs MsgOp.step start (h.filter isNoFailedString) last := by
  induction hr with
  | start =>
    intro _
    exact .start
  | @next h hmg hmg' op o hr hstep ih =>
    intro hall
    have hrest := ih hall.initial
    rw [List.filter_append]
    cases hkeep : isNoFailedString (op, o) with
    | true =>
      rw [List.filter_cons_of_pos hkeep]
      exact hrest.next hstep
    | false =>
      rw [List.filter_cons_of_neg (by rw [hkeep]; simp), List.filter_nil, List.append_nil,
        step_failedString hstep hkeep]
      · exact hrest
      · rintro str rfl
        exact hall h str o [] hmg rfl hr

end Sequences

/-- In every message that calls of the member functions lead to, a failed `putString`
changes nothing exactly where it is not the case that the prefix alone fits.  A sequence
of calls all of whose strings are so can be made without the failed ones. -/
theorem failed_putString_iff {start last : HMessage} {h : List (MsgOp × List MsgResult)}
    (hr : Runs MsgOp.step start h last) :
    (∀ str, FailsCleanly last str ↔ ¬ PrefixAlone last.iPos str) ∧
      (AtEachString FailsCleanly start h ↔
        AtEachString (fun hmg str => ¬ PrefixAlone hmg.iPos str) start h) ∧
      (AtEachString (fun hmg str => ¬ PrefixAlone hmg.iPos str) start h →
        Runs MsgOp.step start (h.filter isNoFailedString) last) := by
  refine ⟨failsCleanly_iff last, ?_, runs_without_failed hr⟩
  unfold AtEachString
  simp only [failsCleanly_iff]

/-- A string that is refused as a whole, at a cursor set behind the capacity. -/
theorem failed_putString_behind_capacity :
    let start := HMessage.new ⟨fun _ => 0, 0, 0⟩
    let h : List (MsgOp × List MsgResult) :=
      [(.setPos 9998, [.none]), (.put (.string [65]), [.report false])]
    let last := start.setPos 9998
    (∀ str, FailsCleanly last str ↔ ¬ PrefixAlone last.iPos str) ∧
      (AtEachString FailsCleanly start h ↔
        AtEachString (fun hmg str => ¬ PrefixAlone hmg.iPos str) start h) ∧
      (AtEachString (fun hmg str => ¬ PrefixAlone hmg.iPos str) start h →
        Runs MsgOp.step start (h.filter isNoFailedString) last) := by
  intro start h last
  have hset : Runs MsgOp.step start [(.setPos 9998, [.none])] last := Runs.single rfl
  exact failed_putString_iff (hset.next rfl)

/-- A string of 9998 bytes in a new message: its prefix fits, its bytes do not. -/
theorem not_failed_putString :
    ¬ ∀ (start last : HMessage) (h : List (MsgOp × List MsgResult)), Constructed start →
      Runs MsgOp.step start h last → ∀ str, FailsCleanly last str := by
  intro hclaim
  have hclean := hclaim (HMessage.new ⟨fun _ => 0, 0, 0⟩) _ [] (.new _) .start
    (List.replicate 9998 65)
  rw [failsCleanly_iff] at hclean
  apply hclean
  unfold PrefixAlone
  rw [List.length_replicate]
  decide

end ShootGame.Analysis
