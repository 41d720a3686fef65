import ShootGame.Library.Memory

/-!
# The message buffer

`HMessage` of `MyMsg.h`: a byte buffer with one cursor for both writing and
reading.  The fixed-width and string operations are embedded one by one as
functions from the message to their result and the message afterwards.

The buffer is modelled as the memory behind `m_pData`.  Offsets `0 … 9999` are
`m_byBuffer`; what lies at any other offset belongs to somebody else, and the
getters, which check nothing, can reach it.  `accesses` is history: it records
which offsets were touched and no operation reads it.

A C `int` is an `Int`.  The two places where the width of `int` decides something
keep it: the length of a string is converted by `putString`, and the sum in
`CheckPut` wraps.
-/

set_option autoImplicit false

namespace ShootGame.Model

open ShootGame.Library

/-- One contiguous run of byte offsets that an operation read or wrote. -/
structure Access where
  isWrite : Bool
  start : Int
  len : ℕ
deriving DecidableEq, Repr

def Access.Covers (a : Access) (i : Int) : Prop := a.start ≤ i ∧ i < a.start + a.len

/-- `class HMessage`. -/
structure HMessage where
  byBuffer : Memory
  iPos : Int
  iDataUseSize : Int
  iSessionID : Cell Int
  dynmicCode : Cell Int
  accesses : List Access

/-- What the storage of an `HMessage` holds before its constructor runs, and
around it. -/
structure Junk where
  byBuffer : Memory
  iSessionID : Int
  dynmicCode : Int

/-- Two's-complement conversion to a 32-bit `int`. -/
def toInt (x : Int) : Int := x.bmod (2 ^ 32)

/-- Conversion of an `int` to a 64-bit `size_t`. -/
def toSizeT (x : Int) : ℕ := (x % 2 ^ 64).toNat

namespace HMessage

/-- `HMessage()`. -/
def new (junk : Junk) : HMessage where
  byBuffer := junk.byBuffer
  iPos := 0
  iDataUseSize := 0
  iSessionID := .unset junk.iSessionID
  dynmicCode := .unset junk.dynmicCode
  accesses := []

/-- `HMessage(const char * data, int iLen)`, with `data` the `iLen` bytes read. -/
def ofData (junk : Junk) (data : List UInt8) : HMessage where
  byBuffer := junk.byBuffer.store 0 data
  iPos := 0
  iDataUseSize := data.length
  iSessionID := .unset junk.iSessionID
  dynmicCode := .unset junk.dynmicCode
  accesses := [⟨true, 0, data.length⟩]

/-- A copy of `bs` to the cursor. -/
def writeBytes (bs : List UInt8) (hmg : HMessage) : HMessage :=
  { hmg with
    byBuffer := hmg.byBuffer.store hmg.iPos bs
    accesses := hmg.accesses ++ [⟨true, hmg.iPos, bs.length⟩] }

def noteRead (n : ℕ) (hmg : HMessage) : HMessage :=
  { hmg with accesses := hmg.accesses ++ [⟨false, hmg.iPos, n⟩] }

def addPosition (iAddition : Int) (hmg : HMessage) : HMessage :=
  { hmg with
    iPos := hmg.iPos + iAddition
    iDataUseSize :=
      if hmg.iPos + iAddition > hmg.iDataUseSize then hmg.iPos + iAddition
      else hmg.iDataUseSize }

/-- `CheckPut`: the capacity is a literal. -/
def checkPut (iSize : Int) (hmg : HMessage) : Bool := toInt (hmg.iPos + iSize) < 10000

def putChar (data : UInt8) (hmg : HMessage) : Bool × HMessage :=
  if hmg.checkPut 1 = false then (false, hmg)
  else (true, (hmg.writeBytes [data]).addPosition 1)

/-- `putUInt`: most significant byte first. -/
def putUInt (data : UInt32) (hmg : HMessage) : Bool × HMessage :=
  if hmg.checkPut 4 = false then (false, hmg)
  else (true, (hmg.writeBytes (beBytes data)).addPosition 4)

/-- `putUShort`: a plain 16-bit store. -/
def putUShort (data : UInt16) (hmg : HMessage) : Bool × HMessage :=
  if hmg.checkPut 2 = false then (false, hmg)
  else (true, (hmg.writeBytes (leBytes data)).addPosition 2)

/-- `getUShort`: a plain 16-bit load, without a check. -/
def getUShort (hmg : HMessage) : UInt16 × HMessage :=
  (hmg.byBuffer.wordAt hmg.iPos, (hmg.noteRead 2).addPosition 2)

/-- `getUInt`: most significant byte first, without a check. -/
def getUInt (hmg : HMessage) : UInt32 × HMessage :=
  (hmg.byBuffer.dwordAt hmg.iPos, (hmg.noteRead 4).addPosition 4)

/-- `getByte`, without a check. -/
def getByte (hmg : HMessage) : UInt8 × HMessage :=
  (hmg.byBuffer hmg.iPos, (hmg.noteRead 1).addPosition 1)

/-- The first `n` bytes at a `char` pointer to `pData`; a copy longer than the
string runs on into whatever follows, taken to be zeros. -/
def charArray (pData : List UInt8) (n : ℕ) : List UInt8 :=
  (List.range n).map fun k => pData.getD k 0

/-- `putCharArray`: moves the cursor without `AddPosition`. -/
def putCharArray (pData : List UInt8) (iLen : Int) (hmg : HMessage) : Bool × HMessage :=
  if hmg.checkPut iLen = false then (false, hmg)
  else (true, { hmg.writeBytes (charArray pData (toSizeT iLen)) with iPos := hmg.iPos + iLen })

/-- `putString`: a 16-bit length, then the bytes. -/
def putString (str : List UInt8) (hmg : HMessage) : Bool × HMessage :=
  let iLen := toInt str.length
  let r := hmg.putUShort (UInt16.ofInt iLen)
  if r.1 = false then (false, r.2) else r.2.putCharArray str iLen

/-- `getString`: copies as many bytes as the length says, wherever they lie, and
keeps what stands before the first NUL. -/
def getString (hmg : HMessage) : List UInt8 × HMessage :=
  let r := hmg.getUShort
  let iLen := r.1.toNat
  let pData := r.2.byBuffer.load r.2.iPos iLen
  (cString pData, { r.2.noteRead iLen with iPos := r.2.iPos + iLen })

/-- `GetPosition`: the final length is stamped over the first two bytes. -/
def getPosition (hmg : HMessage) : Int × HMessage :=
  (hmg.iPos,
    { hmg with
      byBuffer := hmg.byBuffer.store 0 (leBytes (UInt16.ofInt hmg.iPos))
      accesses := hmg.accesses ++ [⟨true, 0, 2⟩] })

/-- `GetData()[0, iLen)`. -/
def getData (iLen : Int) (hmg : HMessage) : List UInt8 := hmg.byBuffer.load 0 iLen.toNat

/-- The bytes a sender hands to the socket: `GetData()[0, GetPosition())`. -/
def finished (hmg : HMessage) : List UInt8 := hmg.getPosition.2.getData hmg.getPosition.1

end HMessage

/-! ## What a getter does -/

namespace HMessage

variable (hmg : HMessage)

/-- `getUShort` yields the word at the cursor. -/
@[simp] theorem getUShort_fst : hmg.getUShort.1 = hmg.byBuffer.wordAt hmg.iPos := rfl

/-- `getUShort` leaves the bytes as they are. -/
@[simp] theorem getUShort_byBuffer : hmg.getUShort.2.byBuffer = hmg.byBuffer := rfl

/-- `getUShort` moves the cursor by two. -/
@[simp] theorem getUShort_iPos : hmg.getUShort.2.iPos = hmg.iPos + 2 := rfl

/-- `getUShort` reads two bytes. -/
@[simp] theorem getUShort_accesses :
    hmg.getUShort.2.accesses = hmg.accesses ++ [⟨false, hmg.iPos, 2⟩] := rfl

/-- `getUInt` yields the 32-bit word at the cursor. -/
@[simp] theorem getUInt_fst : hmg.getUInt.1 = hmg.byBuffer.dwordAt hmg.iPos := rfl

/-- `getUInt` leaves the bytes as they are. -/
@[simp] theorem getUInt_byBuffer : hmg.getUInt.2.byBuffer = hmg.byBuffer := rfl

/-- `getUInt` moves the cursor by four. -/
@[simp] theorem getUInt_iPos : hmg.getUInt.2.iPos = hmg.iPos + 4 := rfl

/-- `getUInt` reads four bytes. -/
@[simp] theorem getUInt_accesses :
    hmg.getUInt.2.accesses = hmg.accesses ++ [⟨false, hmg.iPos, 4⟩] := rfl

/-- `getString` yields what stands behind the length, up to the first NUL. -/
@[simp] theorem getString_fst :
    hmg.getString.1 = cString
      (hmg.byBuffer.load (hmg.iPos + 2) (hmg.byBuffer.wordAt hmg.iPos).toNat) := rfl

/-- `getString` leaves the bytes as they are. -/
@[simp] theorem getString_byBuffer : hmg.getString.2.byBuffer = hmg.byBuffer := rfl

/-- `getString` moves the cursor behind as many bytes as the length says. -/
@[simp] theorem getString_iPos :
    hmg.getString.2.iPos = hmg.iPos + 2 + (hmg.byBuffer.wordAt hmg.iPos).toNat := rfl

/-- `getString` reads the length and as many bytes as it says. -/
@[simp] theorem getString_accesses :
    hmg.getString.2.accesses = hmg.accesses ++ [⟨false, hmg.iPos, 2⟩] ++
      [⟨false, hmg.iPos + 2, (hmg.byBuffer.wordAt hmg.iPos).toNat⟩] := rfl

end HMessage

/-! ## What a put that fits does -/

/-- The message `hmg'` is `hmg` with `bs` written at the cursor. -/
structure Extends (hmg hmg' : HMessage) (bs : List UInt8) : Prop where
  byBuffer : hmg'.byBuffer = hmg.byBuffer.store hmg.iPos bs
  iPos : hmg'.iPos = hmg.iPos + bs.length

namespace HMessage

/-- A new message has its cursor at the beginning. -/
@[simp] theorem new_iPos (junk : Junk) : (new junk).iPos = 0 := rfl

/-- A number that an `int` holds is not changed. -/
theorem toInt_eq_self {x : Int} (hlo : 0 ≤ x) (hhi : x < 2 ^ 31) : toInt x = x := by
  unfold toInt
  exact Int.bmod_eq_of_le (by omega) (by omega)

/-- From `2 ^ 31` on a conversion to `int` wraps around. -/
theorem toInt_of_ge {x : Int} (hlo : 2 ^ 31 ≤ x) (hhi : x < 2 ^ 32) : toInt x = x - 2 ^ 32 := by
  unfold toInt
  have hsum : x = (x - 2 ^ 32) + (2 ^ 32 : ℕ) := by omega
  rw [hsum, Int.add_bmod_right, Int.bmod_eq_of_le (by omega) (by omega)]
  omega

/-- `CheckPut` accepts what ends below 10000. -/
theorem checkPut_eq_true {hmg : HMessage} {n : Int} (hpos : 0 ≤ hmg.iPos + n)
    (hfit : hmg.iPos + n < 10000) : hmg.checkPut n = true := by
  rw [checkPut, toInt_eq_self hpos (by omega)]
  exact decide_eq_true hfit

/-- A read that stays inside the string reads the string. -/
theorem charArray_length (pData : List UInt8) : charArray pData pData.length = pData := by
  apply List.ext_getElem?
  intro k
  by_cases hk : k < pData.length
  · simp [charArray, hk]
  · simp [charArray, hk]

def stringBytes (str : List UInt8) : List UInt8 :=
  leBytes (UInt16.ofNat str.length) ++ str

/-- A string takes two bytes more than it has. -/
@[simp] theorem stringBytes_length (str : List UInt8) :
    (stringBytes str).length = 2 + str.length := by
  simp [stringBytes]

end HMessage

namespace Extends

variable {start hmg hmg' : HMessage} {bs cs : List UInt8}

/-- A message extends itself by nothing. -/
theorem refl (hmg : HMessage) : Extends hmg hmg [] where
  byBuffer := (Memory.store_nil _ _).symm
  iPos := by simp

/-- Two extensions are one. -/
theorem trans (h : Extends start hmg bs) (h' : Extends hmg hmg' cs) :
    Extends start hmg' (bs ++ cs) where
  byBuffer := by rw [h'.byBuffer, h.iPos, h.byBuffer, Memory.store_append]
  iPos := by rw [h'.iPos, h.iPos, List.length_append]; push_cast; ring

variable (h : Extends start hmg bs) (hpos : 0 ≤ start.iPos)

include h hpos

/-- `putChar` writes its byte where there is room. -/
theorem putChar (b : UInt8) (hfit : start.iPos + bs.length + 1 < 10000) :
    Extends start (hmg.putChar b).2 (bs ++ [b]) := by
  refine h.trans ?_
  rw [← h.iPos] at hfit
  rw [HMessage.putChar, HMessage.checkPut_eq_true (by rw [h.iPos]; omega) hfit]
  exact ⟨rfl, rfl⟩

/-- `putUInt` writes its four bytes where there is room. -/
theorem putUInt (w : UInt32) (hfit : start.iPos + bs.length + 4 < 10000) :
    Extends start (hmg.putUInt w).2 (bs ++ beBytes w) := by
  refine h.trans ?_
  rw [← h.iPos] at hfit
  rw [HMessage.putUInt, HMessage.checkPut_eq_true (by rw [h.iPos]; omega) hfit]
  exact ⟨rfl, rfl⟩

/-- `putUShort` writes its two bytes where there is room. -/
theorem putUShort (w : UInt16) (hfit : start.iPos + bs.length + 2 < 10000) :
    Extends start (hmg.putUShort w).2 (bs ++ leBytes w) := by
  refine h.trans ?_
  rw [← h.iPos] at hfit
  rw [HMessage.putUShort, HMessage.checkPut_eq_true (by rw [h.iPos]; omega) hfit]
  exact ⟨rfl, rfl⟩

/-- `putString` writes the length and the string where there is room. -/
theorem putString (str : List UInt8) (hfit : start.iPos + bs.length + 2 + str.length < 10000) :
    Extends start (hmg.putString str).2 (bs ++ HMessage.stringBytes str) := by
  have hlen : toInt str.length = str.length :=
    HMessage.toInt_eq_self (by omega) (by omega)
  have hsize : toSizeT str.length = str.length := by
    unfold toSizeT
    omega
  have hprefix := h.putUShort hpos (UInt16.ofNat str.length) (by omega)
  have hcursor := hprefix.iPos
  rw [List.length_append, leBytes_length] at hcursor
  have hok : (hmg.putUShort (UInt16.ofNat str.length)).1 = true := by
    rw [HMessage.putUShort, HMessage.checkPut_eq_true (by rw [h.iPos]; omega)
      (by rw [h.iPos]; omega)]
    rfl
  have hbody : Extends (hmg.putUShort (UInt16.ofNat str.length)).2 (hmg.putString str).2 str := by
    rw [HMessage.putString, hlen, ofInt_natCast]
    simp only [hok, Bool.true_eq_false, if_false]
    rw [HMessage.putCharArray, HMessage.checkPut_eq_true (by omega) (by omega), hsize,
      HMessage.charArray_length]
    exact ⟨rfl, rfl⟩
  rw [HMessage.stringBytes, ← List.append_assoc]
  exact hprefix.trans hbody

end Extends

/-- A finished buffer is the encoding with its length stamped over the size field. -/
theorem HMessage.finished_of_extends {hmg : HMessage} {junk : Junk} {bs : List UInt8} {w : UInt16}
    (h : Extends (HMessage.new junk) hmg (leBytes w ++ bs)) :
    hmg.finished = leBytes (UInt16.ofNat (bs.length + 2)) ++ bs := by
  have hpos : hmg.iPos = ((bs.length + 2 : ℕ) : Int) := by
    rw [h.iPos, List.length_append, leBytes_length, new_iPos]
    omega
  have hload : hmg.byBuffer.load 0 (2 + bs.length) = leBytes w ++ bs := by
    rw [h.byBuffer]
    have hall := Memory.load_store junk.byBuffer 0 (leBytes w ++ bs)
    rwa [List.length_append, leBytes_length] at hall
  have hrest : hmg.byBuffer.load 2 bs.length = bs := by
    rw [Memory.load_add] at hload
    exact (List.append_inj hload (by simp)).2
  simp only [finished, getData, getPosition, hpos, Int.toNat_natCast, ofInt_natCast]
  rw [Nat.add_comm bs.length 2, Memory.load_add,
    Memory.load_store_of_length _ _ (leBytes_length _),
    Memory.load_store_disjoint _ (by right; simp), zero_add, Nat.cast_ofNat, hrest]

end ShootGame.Model
