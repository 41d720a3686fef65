import Mathlib.Algebra.Order.BigOperators.Group.List
import ShootGame.Model.Messages

/-!
# Sequences of puts

A message is built by a sequence of puts into one `HMessage`, each of which reports
whether it fitted.  `runPuts` keeps all the reports, which the `put` of a message class
throws away; the lists below are the puts that these functions make, in their order.
-/

set_option autoImplicit false

namespace ShootGame.Model

open ShootGame.Library

/-- One call of a put function. -/
inductive Put where
  | char (data : UInt8)
  | uShort (data : UInt16)
  | uInt (data : UInt32)
  | charArray (pData : List UInt8) (iLen : Int)
  | string (str : List UInt8)
deriving DecidableEq, Repr

/-- The put on the server's `HMessage`. -/
def Put.run : Put → HMessage → Bool × HMessage
  | char data, hmg => hmg.putChar data
  | uShort data, hmg => hmg.putUShort data
  | uInt data, hmg => hmg.putUInt data
  | charArray pData iLen, hmg => hmg.putCharArray pData iLen
  | string str, hmg => hmg.putString str

/-- Make the puts one after the other and collect what they report. -/
def runPuts (run : Put → HMessage → Bool × HMessage) : List Put → HMessage → List Bool × HMessage
  | [], hmg => ([], hmg)
  | put :: puts, hmg =>
    let r := run put hmg
    let rs := runPuts run puts r.2
    (r.1 :: rs.1, rs.2)

/-- By how much a put that succeeds moves the cursor. -/
def Put.size : Put → Int
  | char _ => 1
  | uShort _ => 2
  | uInt _ => 4
  | charArray _ iLen => iLen
  | string str => 2 + toInt str.length

/-- The size of what a sequence of puts writes. -/
def encodedSize (puts : List Put) : Int := (puts.map Put.size).sum

/-- The comparison of `CheckPut`, for a cursor. -/
def checkPutAt (iPos iSize : Int) : Bool := toInt (iPos + iSize) < 10000

/-- The checks inside a put, with the cursor at `iPos`. -/
def Put.fits (iPos : Int) : Put → Bool
  | char _ => checkPutAt iPos 1
  | uShort _ => checkPutAt iPos 2
  | uInt _ => checkPutAt iPos 4
  | charArray _ iLen => checkPutAt iPos iLen
  | string str => checkPutAt iPos 2 && checkPutAt (iPos + 2) (toInt str.length)

/-- Every put fits where the puts before it end. -/
def fitAll : Int → List Put → Bool
  | _, [] => true
  | iPos, put :: puts => put.fits iPos && fitAll (iPos + put.size) puts

/-! ## The puts of the message classes -/

def BaseMessage.puts (msg : BaseMessage) : List Put :=
  [.uShort msg.wSize, .uShort msg.iMainProtocol, .uShort msg.iSubProtocol]

def ZS2CALogin.puts (msg : ZS2CALogin) : List Put :=
  msg.toBaseMessage.puts ++ [.uInt msg.iErrorCode, .uInt msg.dynmicCode, .uInt msg.iCount]

def ZS2CALogin.serverDataPuts (msg : ZS2CALogin) : List Put :=
  [.uInt msg.iID, .string msg.strName, .string msg.strIP, .uShort msg.wPort, .char msg.state]

/-! ## Running a sequence -/

section Runs

variable (run : Put → HMessage → Bool × HMessage)

/-- No puts report nothing and leave the message. -/
@[simp] theorem runPuts_nil (hmg : HMessage) : runPuts run [] hmg = ([], hmg) := rfl

/-- The first put reports first. -/
@[simp] theorem runPuts_cons_fst (put : Put) (puts : List Put) (hmg : HMessage) :
    (runPuts run (put :: puts) hmg).1 =
      (run put hmg).1 :: (runPuts run puts (run put hmg).2).1 := rfl

/-- The other puts go on from what the first one leaves. -/
@[simp] theorem runPuts_cons_snd (put : Put) (puts : List Put) (hmg : HMessage) :
    (runPuts run (put :: puts) hmg).2 = (runPuts run puts (run put hmg).2).2 := rfl

/-- Two sequences of puts, one behind the other. -/
theorem runPuts_append (puts puts' : List Put) (hmg : HMessage) :
    runPuts run (puts ++ puts') hmg =
      ((runPuts run puts hmg).1 ++ (runPuts run puts' (runPuts run puts hmg).2).1,
        (runPuts run puts' (runPuts run puts hmg).2).2) := by
  induction puts generalizing hmg with
  | nil => rfl
  | cons put puts ih => simp only [List.cons_append, runPuts, ih]

end Runs

/-- The `put` of a login answer makes its puts in order. -/
theorem ZS2CALogin.put_eq_runPuts (msg : ZS2CALogin) (hmg : HMessage) :
    msg.put hmg = (runPuts Put.run msg.puts hmg).2 := by
  simp [ZS2CALogin.put, ZS2CALogin.puts, BaseMessage.put, BaseMessage.puts, Put.run]

/-- `putServerData` makes its puts in order. -/
theorem ZS2CALogin.putServerData_eq_runPuts (msg : ZS2CALogin) (hmg : HMessage) :
    msg.putServerData hmg = (runPuts Put.run msg.serverDataPuts hmg).2 := by
  simp [ZS2CALogin.putServerData, ZS2CALogin.serverDataPuts, Put.run]

/-! ## Reports and cursor -/

/-- No puts take no bytes. -/
@[simp] theorem encodedSize_nil : encodedSize [] = 0 := rfl

/-- The size of the first put and of the others. -/
@[simp] theorem encodedSize_cons (put : Put) (puts : List Put) :
    encodedSize (put :: puts) = put.size + encodedSize puts := by
  simp [encodedSize]

/-- The size of two sequences of puts. -/
@[simp] theorem encodedSize_append (puts puts' : List Put) :
    encodedSize (puts ++ puts') = encodedSize puts + encodedSize puts' := by
  simp [encodedSize]

/-- The puts of the second sequence fit behind those of the first. -/
theorem fitAll_append (iPos : Int) (puts puts' : List Put) :
    fitAll iPos (puts ++ puts') =
      (fitAll iPos puts && fitAll (iPos + encodedSize puts) puts') := by
  induction puts generalizing iPos with
  | nil => simp [fitAll]
  | cons put puts ih =>
    simp only [List.cons_append, fitAll, ih, Bool.and_assoc, encodedSize_cons, Int.add_assoc]

/-- `CheckPut` looks at the cursor only. -/
theorem HMessage.checkPut_eq (hmg : HMessage) (iSize : Int) :
    hmg.checkPut iSize = checkPutAt hmg.iPos iSize := rfl

/-- What the puts with one check have in common: `hmg'` is the message they make if the
check holds. -/
theorem HMessage.checked_spec {iSize : Int} {hmg hmg' : HMessage}
    (hmove : hmg'.iPos = hmg.iPos + iSize) :
    (if hmg.checkPut iSize = false then (false, hmg) else (true, hmg')).1 =
        checkPutAt hmg.iPos iSize ∧
      (checkPutAt hmg.iPos iSize = true →
        (if hmg.checkPut iSize = false then (false, hmg) else (true, hmg')).2.iPos =
          hmg.iPos + iSize) := by
  rw [HMessage.checkPut_eq]
  cases checkPutAt hmg.iPos iSize with
  | false => simp
  | true => simpa using hmove

/-- `putCharArray` reports its check, and moves the cursor where that holds. -/
theorem HMessage.putCharArray_spec (pData : List UInt8) (iLen : Int) (hmg : HMessage) :
    (hmg.putCharArray pData iLen).1 = checkPutAt hmg.iPos iLen ∧
      (checkPutAt hmg.iPos iLen = true →
        (hmg.putCharArray pData iLen).2.iPos = hmg.iPos + iLen) :=
  checked_spec rfl

/-- `putUShort` reports its check, and moves the cursor where that holds. -/
theorem HMessage.putUShort_spec (data : UInt16) (hmg : HMessage) :
    (hmg.putUShort data).1 = checkPutAt hmg.iPos 2 ∧
      (checkPutAt hmg.iPos 2 = true → (hmg.putUShort data).2.iPos = hmg.iPos + 2) :=
  checked_spec rfl

namespace Put

/-- A put reports whether its checks hold, and moves the cursor by its size if so. -/
theorem run_spec (put : Put) (hmg : HMessage) :
    (put.run hmg).1 = put.fits hmg.iPos ∧
      (put.fits hmg.iPos = true → (put.run hmg).2.iPos = hmg.iPos + put.size) := by
  cases put with
  | char data => exact HMessage.checked_spec rfl
  | uShort data => exact HMessage.putUShort_spec data hmg
  | uInt data => exact HMessage.checked_spec rfl
  | charArray pData iLen => exact HMessage.putCharArray_spec pData iLen hmg
  | string str =>
    obtain ⟨hreport, hcursor⟩ :=
      HMessage.putUShort_spec (UInt16.ofInt (toInt str.length)) hmg
    simp only [run, HMessage.putString, fits, size, hreport]
    cases hlen : checkPutAt hmg.iPos 2 with
    | false => simp
    | true =>
      obtain ⟨hreport', hcursor'⟩ := HMessage.putCharArray_spec str (toInt str.length)
        (hmg.putUShort (UInt16.ofInt (toInt str.length))).2
      rw [hcursor hlen] at hreport' hcursor'
      simp only [Bool.true_eq_false, if_false, Bool.true_and, hreport', true_and]
      intro hfits
      rw [hcursor' hfits]
      ring

end Put

/-- All puts of a sequence succeed exactly where each fits behind the ones before it. -/
theorem runPuts_reports (puts : List Put) (hmg : HMessage) :
    (∀ ok ∈ (runPuts Put.run puts hmg).1, ok = true) ↔ fitAll hmg.iPos puts = true := by
  induction puts generalizing hmg with
  | nil => simp [fitAll]
  | cons put puts ih =>
    obtain ⟨hreport, hcursor⟩ := put.run_spec hmg
    rw [runPuts_cons_fst, List.forall_mem_cons, hreport, fitAll, Bool.and_eq_true]
    apply and_congr_right
    intro hfits
    rw [ih, hcursor hfits]

/-- Some put reports failure exactly if not all of them fit. -/
theorem false_mem_reports (puts : List Put) (hmg : HMessage) :
    false ∈ (runPuts Put.run puts hmg).1 ↔ fitAll hmg.iPos puts = false := by
  rw [← Bool.not_eq_true, ← runPuts_reports]
  simp

/-- A sequence that succeeds moves the cursor by the sizes of its puts. -/
theorem iPos_runPuts {puts : List Put} {hmg : HMessage} (h : fitAll hmg.iPos puts = true) :
    (runPuts Put.run puts hmg).2.iPos = hmg.iPos + encodedSize puts := by
  induction puts generalizing hmg with
  | nil => simp
  | cons put puts ih =>
    rw [fitAll, Bool.and_eq_true] at h
    have hcursor := (put.run_spec hmg).2 h.1
    rw [runPuts_cons_snd, ih (by rw [hcursor]; exact h.2), hcursor, encodedSize_cons, add_assoc]

/-! ## Lengths that an `int` holds -/

/-- The length of a put is far from where an `int` wraps. -/
def Put.Ordinary : Put → Prop
  | charArray _ iLen => 0 ≤ iLen ∧ iLen < 2 ^ 30
  | string str => str.length < 2 ^ 30
  | _ => True

/-- The array or the string of a put is at most `2 ^ 30` bytes long. -/
def Put.Bounded : Put → Prop
  | charArray _ iLen => 0 ≤ iLen ∧ iLen ≤ 2 ^ 30
  | string str => str.length ≤ 2 ^ 30
  | _ => True

/-- A put with a single copy, and so with a single check. -/
def Put.Primitive : Put → Prop
  | string _ => False
  | _ => True

/-- Without a wrap around, `CheckPut` compares the sum with 10000. -/
theorem checkPutAt_iff {iPos iSize : Int} (hpos : 0 ≤ iPos) (hlt : iPos < 10000)
    (hsize : 0 ≤ iSize) (hsmall : iSize ≤ 2 ^ 30) :
    checkPutAt iPos iSize = true ↔ iPos + iSize < 10000 := by
  unfold checkPutAt
  rw [HMessage.toInt_eq_self (by omega) (by omega), decide_eq_true_iff]

namespace Put

/-- An ordinary put does not move the cursor back. -/
theorem Ordinary.size_nonneg {put : Put} (h : put.Ordinary) : 0 ≤ put.size := by
  cases put with
  | charArray pData iLen => exact h.1
  | string str =>
    have hlen : str.length < 2 ^ 30 := h
    rw [size, HMessage.toInt_eq_self (by omega) (by omega)]
    omega
  | _ => simp [size]

/-- An ordinary put fits exactly if it ends below 10000. -/
theorem Ordinary.fits_iff {put : Put} (h : put.Ordinary) {iPos : Int} (hpos : 0 ≤ iPos)
    (hlt : iPos < 10000) : put.fits iPos = true ↔ iPos + put.size < 10000 := by
  cases put with
  | charArray pData iLen => exact checkPutAt_iff hpos hlt h.1 h.2.le
  | string str =>
    have hlen : str.length < 2 ^ 30 := h
    have hint : toInt str.length = str.length :=
      HMessage.toInt_eq_self (by omega) (by omega)
    rw [fits, size, hint, Bool.and_eq_true, checkPutAt_iff hpos hlt (by omega) (by omega)]
    constructor
    · rintro ⟨hhead, hbytes⟩
      rw [checkPutAt_iff (by omega) hhead (by omega) (by omega)] at hbytes
      omega
    · intro htotal
      have hhead : iPos + 2 < 10000 := by omega
      rw [checkPutAt_iff (by omega) hhead (by omega) (by omega)]
      omega
  | char data => exact checkPutAt_iff hpos hlt (by omega) (by omega)
  | uShort data => exact checkPutAt_iff hpos hlt (by omega) (by omega)
  | uInt data => exact checkPutAt_iff hpos hlt (by omega) (by omega)

end Put

/-- Puts of ordinary lengths all fit where their sizes add up to less than the capacity. -/
theorem fitAll_iff {puts : List Put} (hord : ∀ put ∈ puts, put.Ordinary) {iPos : Int}
    (hpos : 0 ≤ iPos) (hlt : iPos < 10000) :
    fitAll iPos puts = true ↔ iPos + encodedSize puts < 10000 := by
  induction puts generalizing iPos with
  | nil => simpa [fitAll] using hlt
  | cons put puts ih =>
    rw [List.forall_mem_cons] at hord
    have hsize := hord.1.size_nonneg
    have hrest : 0 ≤ encodedSize puts := by
      apply List.sum_nonneg
      intro n hn
      obtain ⟨put', hput', rfl⟩ := List.mem_map.mp hn
      exact (hord.2 put' hput').size_nonneg
    rw [fitAll, Bool.and_eq_true, hord.1.fits_iff hpos hlt, encodedSize_cons]
    constructor
    · rintro ⟨hfirst, hothers⟩
      rw [ih hord.2 (by omega) hfirst] at hothers
      omega
    · intro htotal
      have hfirst : iPos + put.size < 10000 := by omega
      rw [ih hord.2 (by omega) hfirst]
      exact ⟨hfirst, by omega⟩

end ShootGame.Model
