import ShootGame.Model.MessageOps

/-!
# The used size

`m_iDataUseSize` follows the cursor where the cursor is moved by `AddPosition`.  The copy of
an array or of a string moves it by hand, and the used size stays behind until the next put
that uses `AddPosition`.  On the reading side this does no harm: a message built from the
received bytes starts with all of them counted.
-/

set_option autoImplicit false

namespace ShootGame.Analysis

open ShootGame.Library ShootGame.Model

/-- The used size is where the cursor is: it counts all bytes put so far. -/
def AtHighWater (hmg : HMessage) : Prop := hmg.iDataUseSize = hmg.iPos

/-- Only bytes of the first `n` offsets have been read or written. -/
def StaysWithin (n : ℕ) (hmg : HMessage) : Prop :=
  ∀ a ∈ hmg.accesses, ∀ i, a.Covers i → 0 ≤ i ∧ i < n

/-- The call is a put. -/
def IsPut : MsgOp → Prop
  | .put _ => True
  | _ => False

/-- The call is a get. -/
def IsGet : MsgOp → Prop
  | .getByte | .getUShort | .getUInt | .getString => True
  | _ => False

/-- The call puts an array or a string that is accepted and is not empty. -/
def CopiesArray (hmg : HMessage) : MsgOp → Prop
  | .put (.charArray _ iLen) => checkPutAt hmg.iPos iLen = true ∧ iLen ≠ 0
  | .put (.string str) =>
    checkPutAt hmg.iPos 2 = true ∧ checkPutAt (hmg.iPos + 2) (toInt str.length) = true ∧
      toInt str.length ≠ 0
  | _ => False

/-! ## Puts -/

section Puts

variable {hmg hmg' : HMessage}

/-- Moving on counts the bytes passed over. -/
theorem AtHighWater.addPosition (h : AtHighWater hmg) {iAddition : Int} (hadd : 0 ≤ iAddition) :
    AtHighWater (hmg.addPosition iAddition) := by
  unfold AtHighWater HMessage.addPosition at *
  dsimp only
  split <;> omega

/-- A put that moves the cursor with `AddPosition`, accepted or not. -/
theorem AtHighWater.checked (h : AtHighWater hmg) (bs : List UInt8) {iSize : Int}
    (hsize : 0 ≤ iSize) :
    AtHighWater (if hmg.checkPut iSize = false then (false, hmg)
      else (true, (hmg.writeBytes bs).addPosition iSize)).2 := by
  split
  · exact h
  · have hwritten : AtHighWater (hmg.writeBytes bs) := h
    exact hwritten.addPosition hsize

/-- An array leaves the used size where it was. -/
theorem AtHighWater.putCharArray_iff (h : AtHighWater hmg) (pData : List UInt8) (iLen : Int) :
    AtHighWater (hmg.putCharArray pData iLen).2 ↔
      ¬ (checkPutAt hmg.iPos iLen = true ∧ iLen ≠ 0) := by
  rw [HMessage.putCharArray, HMessage.checkPut_eq]
  cases checkPutAt hmg.iPos iLen with
  | false => simpa using h
  | true =>
    change hmg.iDataUseSize = hmg.iPos + iLen ↔ _
    unfold AtHighWater at h
    rw [h]
    simp

/-- The used size stays at the cursor unless a string with characters is put whole. -/
theorem AtHighWater.putString_iff (h : AtHighWater hmg) (str : List UInt8) :
    AtHighWater (hmg.putString str).2 ↔
      ¬ (checkPutAt hmg.iPos 2 = true ∧ checkPutAt (hmg.iPos + 2) (toInt str.length) = true ∧
        toInt str.length ≠ 0) := by
  obtain ⟨hreport, hcursor⟩ := HMessage.putUShort_spec (UInt16.ofInt (toInt str.length)) hmg
  have hhead : AtHighWater (hmg.putUShort (UInt16.ofInt (toInt str.length))).2 :=
    h.checked _ (by decide)
  unfold HMessage.putString
  dsimp only
  rw [hreport]
  cases hfits : checkPutAt hmg.iPos 2 with
  | false => simpa using hhead
  | true =>
    rw [if_neg (by simp), hhead.putCharArray_iff, hcursor hfits]
    simp

/-- One put: by cases on which, the used size is left behind by the copy of an array. -/
theorem atHighWater_step_iff {op : MsgOp} {o : List MsgResult} (h : AtHighWater hmg)
    (hput : IsPut op) (hstep : MsgOp.step hmg op = some (hmg', o)) :
    AtHighWater hmg' ↔ ¬ CopiesArray hmg op := by
  rw [MsgOp.step_eq_some_iff] at hstep
  obtain ⟨rfl, -⟩ := hstep
  cases op with
  | put put =>
    cases put with
    | char data => exact iff_of_true (h.checked _ (by decide)) (by simp [CopiesArray])
    | uShort data => exact iff_of_true (h.checked _ (by decide)) (by simp [CopiesArray])
    | uInt data => exact iff_of_true (h.checked _ (by decide)) (by simp [CopiesArray])
    | charArray pData iLen => exact h.putCharArray_iff pData iLen
    | string str => exact h.putString_iff str
  | _ => cases hput

end Puts

/-! ## Gets -/

/-- All `n` received bytes are counted, and the cursor is not behind them. -/
structure AllCounted (n : ℕ) (hmg : HMessage) : Prop where
  used : hmg.iDataUseSize = n
  cursor : hmg.iPos ≤ hmg.iDataUseSize

section Gets

variable {n : ℕ} {hmg hmg' : HMessage}

/-- An access within the bytes ends before their end, if it is one. -/
theorem StaysWithin.end_le (h : StaysWithin n hmg) {a : Access} (ha : a ∈ hmg.accesses)
    (hlen : a.len ≠ 0) : a.start + a.len ≤ n := by
  have hlast := h a ha (a.start + a.len - 1) ⟨by omega, by omega⟩
  omega

/-- A get that keeps to the bytes moves the cursor to their end at most. -/
theorem AllCounted.addPosition (h : AllCounted n hmg) {iAddition : Int}
    (hend : hmg.iPos + iAddition ≤ n) : AllCounted n (hmg.addPosition iAddition) := by
  obtain ⟨hused, hcursor⟩ := h
  unfold HMessage.addPosition
  rw [if_neg (by omega)]
  exact ⟨hused, by dsimp only; omega⟩

/-- A get within the received bytes leaves them all counted. -/
theorem AllCounted.get (h : AllCounted n hmg) {len : ℕ} (hlen : len ≠ 0)
    (hin : StaysWithin n ((hmg.noteRead len).addPosition len)) :
    AllCounted n ((hmg.noteRead len).addPosition len) := by
  have hnoted : AllCounted n (hmg.noteRead len) := ⟨h.used, h.cursor⟩
  apply hnoted.addPosition
  exact hin.end_le (a := ⟨false, hmg.iPos, len⟩) (by simp [HMessage.addPosition, HMessage.noteRead])
    hlen

/-- So does that of a string. -/
theorem AllCounted.getString (h : AllCounted n hmg) (hin : StaysWithin n hmg.getString.2) :
    AllCounted n hmg.getString.2 := by
  have hhead : AllCounted n hmg.getUShort.2 := by
    apply h.get (by decide)
    intro a ha
    exact hin a (by rw [HMessage.getString_accesses]; exact List.mem_append_left _ ha)
  have hcursor : hmg.iPos + 2 ≤ hmg.getUShort.2.iDataUseSize := hhead.cursor
  refine ⟨hhead.used, ?_⟩
  change hmg.iPos + 2 + ((hmg.byBuffer.wordAt hmg.iPos).toNat : Int) ≤
    hmg.getUShort.2.iDataUseSize
  by_cases hempty : (hmg.byBuffer.wordAt hmg.iPos).toNat = 0
  · omega
  · rw [hhead.used]
    exact hin.end_le (a := ⟨false, hmg.iPos + 2, _⟩)
      (by rw [HMessage.getString_accesses]; exact List.mem_append_right _ (by simp)) hempty

/-- One get: what it has read before is read still. -/
theorem accesses_step_get {op : MsgOp} {o : List MsgResult} (hget : IsGet op)
    (hstep : MsgOp.step hmg op = some (hmg', o)) : ∀ a ∈ hmg.accesses, a ∈ hmg'.accesses := by
  rw [MsgOp.step_eq_some_iff] at hstep
  obtain ⟨rfl, -⟩ := hstep
  intro a ha
  cases op with
  | getByte => exact List.mem_append_left _ ha
  | getUShort => exact List.mem_append_left _ ha
  | getUInt => exact List.mem_append_left _ ha
  | getString => exact List.mem_append_left _ (List.mem_append_left _ ha)
  | _ => cases hget

/-- So does every operation that gets. -/
theorem allCounted_step {op : MsgOp} {o : List MsgResult} (h : AllCounted n hmg)
    (hget : IsGet op) (hstep : MsgOp.step hmg op = some (hmg', o)) (hin : StaysWithin n hmg') :
    AllCounted n hmg' := by
  rw [MsgOp.step_eq_some_iff] at hstep
  obtain ⟨rfl, -⟩ := hstep
  cases op with
  | getByte => exact h.get (by decide) hin
  | getUShort => exact h.get (by decide) hin
  | getUInt => exact h.get (by decide) hin
  | getString => exact h.getString hin
  | _ => cases hget

/-- By induction on the run: what stays within the bytes now did so before. -/
theorem allCounted_of_gets {junk : Junk} {data : List UInt8} {h : List (MsgOp × List MsgResult)}
    (hr : Runs MsgOp.step (HMessage.ofData junk data) h hmg) :
    (∀ op ∈ inputs h, IsGet op) → StaysWithin data.length hmg → AllCounted data.length hmg := by
  induction hr with
  | start =>
    intro _ _
    exact ⟨rfl, Int.natCast_nonneg _⟩
  | @next h hmg hmg' op o _ hstep ih =>
    intro hgets hin
    rw [inputs_append, List.forall_mem_append] at hgets
    have hget : IsGet op := hgets.2 op (by simp)
    have hbefore : StaysWithin data.length hmg := by
      intro a ha
      exact hin a (accesses_step_get hget hstep a ha)
    exact allCounted_step (ih hgets.1 hbefore) hget hstep hin

end Gets

/-- Puts into a new message keep the used size at the cursor exactly if none of them copies
an array or a string that is not empty.  Gets from a message built from received bytes keep
all of these counted as long as they stay within them. -/
theorem used_size_iff {junk junk' : Junk} {data : List UInt8} {last : HMessage}
    {h k : List (MsgOp × List MsgResult)} (hr : Runs MsgOp.step (HMessage.new junk) h last)
    (hput : ∀ op ∈ inputs h, IsPut op) (hget : ∀ op ∈ inputs k, IsGet op) :
    (Throughout MsgOp.step AtHighWater (HMessage.new junk) h ↔
        AtEachStep MsgOp.step (fun hmg op => ¬ CopiesArray hmg op) (HMessage.new junk) h) ∧
      Throughout MsgOp.step
        (fun hmg => StaysWithin data.length hmg → AllCounted data.length hmg)
        (HMessage.ofData junk' data) k := by
  constructor
  · exact hr.throughout_iff AtHighWater _ IsPut rfl hput atHighWater_step_iff
  · rintro k₁ k₂ hmg rfl hrun
    rw [inputs_append, List.forall_mem_append] at hget
    exact allCounted_of_gets hrun hget.1

/-- The header of a message is put, and a string of one byte is read from three. -/
theorem used_size_header :
    let start := HMessage.new ⟨fun _ => 0, 0, 0⟩
    let data : List UInt8 := [1, 0, 65]
    let received := HMessage.ofData ⟨fun _ => 0, 0, 0⟩ data
    let h : List (MsgOp × List MsgResult) :=
      [(.put (.uShort 0), [.report true]), (.put (.uInt 5), [.report true])]
    let k : List (MsgOp × List MsgResult) := [(.getString, [.string [65]])]
    (Throughout MsgOp.step AtHighWater start h ↔
        AtEachStep MsgOp.step (fun hmg op => ¬ CopiesArray hmg op) start h) ∧
      Throughout MsgOp.step
        (fun hmg => StaysWithin data.length hmg → AllCounted data.length hmg) received k := by
  intro start data received h k
  have hfirst : Runs MsgOp.step start [(.put (.uShort 0), [.report true])] _ := Runs.single rfl
  have hr : Runs MsgOp.step start h _ := hfirst.next rfl
  exact used_size_iff hr (by simp [h, inputs, IsPut]) (by simp [k, inputs, IsGet])

/-- A string of one byte: the cursor is behind three bytes, and two are counted. -/
theorem not_used_size :
    ¬ ∀ (junk : Junk) (h : List (MsgOp × List MsgResult)) (last : HMessage),
      Runs MsgOp.step (HMessage.new junk) h last → (∀ op ∈ inputs h, IsPut op) →
        Throughout MsgOp.step AtHighWater (HMessage.new junk) h := by
  intro hclaim
  have hr : Runs MsgOp.step (HMessage.new ⟨fun _ => 0, 0, 0⟩)
      [(.put (.string [65]), [.report true])] _ := Runs.single rfl
  have hcounted := hclaim _ _ _ hr (by simp [inputs, IsPut]) _ [] _ (by simp) hr
  have hstart : AtHighWater (HMessage.new ⟨fun _ => 0, 0, 0⟩) := rfl
  have hnone := (hstart.putString_iff [65]).mp hcounted
  exact hnone (by decide)

end ShootGame.Analysis
