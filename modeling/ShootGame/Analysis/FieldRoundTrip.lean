import ShootGame.Model.Puts

/-!
# Fields survive the codec

A message is a sequence of typed fields, and the bytes it consists of are the bytes of
its fields, one behind the other.  `fields_written` is the writing side, `getFields_spec`
the reading side; they meet in these bytes, so that neither knows the other.
-/

set_option autoImplicit false

namespace ShootGame.Analysis

open ShootGame.Library ShootGame.Model

/-- A value that is written with one put and read with one getter. -/
inductive Field where
  | byte (data : UInt8)
  | uShort (data : UInt16)
  | uInt (data : UInt32)
  | string (str : List UInt8)
deriving DecidableEq, Repr

inductive FieldType where
  | byte
  | uShort
  | uInt
  | string
deriving DecidableEq, Repr

namespace Field

def type : Field → FieldType
  | byte _ => .byte
  | uShort _ => .uShort
  | uInt _ => .uInt
  | string _ => .string

/-- The put that writes the field. -/
def put : Field → Put
  | byte data => .char data
  | uShort data => .uShort data
  | uInt data => .uInt data
  | string str => .string str

def bytes : Field → List UInt8
  | byte data => [data]
  | uShort data => leBytes data
  | uInt data => beBytes data
  | string str => HMessage.stringBytes str

/-- The size of the encoding. -/
def size : Field → ℕ
  | byte _ => 1
  | uShort _ => 2
  | uInt _ => 4
  | string str => 2 + str.length

def NulFree : Field → Prop
  | string str => 0 ∉ str
  | _ => True

/-- A field is encoded in as many bytes as its size. -/
@[simp] theorem bytes_length (field : Field) : field.bytes.length = field.size := by
  cases field <;> simp [bytes, size]

end Field

/-- The getter for a type. -/
def FieldType.get : FieldType → HMessage → Field × HMessage
  | byte, hmg => (.byte hmg.getByte.1, hmg.getByte.2)
  | uShort, hmg => (.uShort hmg.getUShort.1, hmg.getUShort.2)
  | uInt, hmg => (.uInt hmg.getUInt.1, hmg.getUInt.2)
  | string, hmg => (.string hmg.getString.1, hmg.getString.2)

/-- One getter after the other. -/
def getFields : List FieldType → HMessage → List Field × HMessage
  | [], hmg => ([], hmg)
  | type :: types, hmg =>
    let r := type.get hmg
    let rs := getFields types r.2
    (r.1 :: rs.1, rs.2)

def fieldsSize (fields : List Field) : ℕ := (fields.map Field.size).sum

/-- The size of the first field and of the others. -/
@[simp] theorem fieldsSize_cons (field : Field) (fields : List Field) :
    fieldsSize (field :: fields) = field.size + fieldsSize fields := by
  simp [fieldsSize]

/-- The encodings together have the size of the fields. -/
theorem flatMap_bytes_length (fields : List Field) :
    (fields.flatMap Field.bytes).length = fieldsSize fields := by
  simp [fieldsSize, List.length_flatMap]

/-! ## Writing -/

/-- A field that fits is written at the cursor. -/
theorem Field.put_extends (field : Field) {start hmg : HMessage} {bs : List UInt8}
    (h : Extends start hmg bs) (hpos : 0 ≤ start.iPos)
    (hfit : start.iPos + bs.length + field.size < 10000) :
    Extends start (field.put.run hmg).2 (bs ++ field.bytes) := by
  cases field with
  | byte data => exact h.putChar hpos data hfit
  | uShort data => exact h.putUShort hpos data hfit
  | uInt data => exact h.putUInt hpos data hfit
  | string str =>
    apply h.putString hpos str
    rw [size] at hfit
    push_cast at hfit
    omega

/-- The put of a field has its size. -/
theorem Field.put_size (field : Field) (hsize : field.size < 10000) :
    field.put.size = field.size := by
  cases field with
  | string str =>
    rw [size] at hsize
    rw [put, Put.size, HMessage.toInt_eq_self (by omega) (by omega), size]
    push_cast
    rfl
  | _ => rfl

/-- The put of a field that fits is ordinary. -/
theorem Field.put_ordinary (field : Field) (hsize : field.size < 10000) :
    field.put.Ordinary := by
  cases field with
  | string str =>
    change str.length < 2 ^ 30
    rw [size] at hsize
    omega
  | _ => trivial

/-- All fields together, by induction on them; `bs` is what was written before. -/
theorem fields_written {fields : List Field} {start hmg : HMessage} {bs : List UInt8}
    (h : Extends start hmg bs) (hpos : 0 ≤ start.iPos)
    (hfit : start.iPos + bs.length + fieldsSize fields < 10000) :
    Extends start (runPuts Put.run (fields.map Field.put) hmg).2
      (bs ++ fields.flatMap Field.bytes) := by
  induction fields generalizing hmg bs with
  | nil => simpa using h
  | cons field fields ih =>
    rw [fieldsSize_cons] at hfit
    push_cast at hfit
    have hfield := field.put_extends h hpos (by omega)
    rw [List.map_cons, runPuts_cons_snd, List.flatMap_cons, ← List.append_assoc]
    apply ih hfield
    rw [List.length_append, Field.bytes_length]
    push_cast
    omega

/-- No field is larger than all of them. -/
theorem mem_size_le {field : Field} {fields : List Field} (h : field ∈ fields) :
    field.size ≤ fieldsSize fields :=
  List.single_le_sum (by simp) _ (List.mem_map_of_mem h)

/-- The puts of the fields have their size together. -/
theorem encodedSize_fields {fields : List Field} (hfit : fieldsSize fields < 10000) :
    encodedSize (fields.map Field.put) = fieldsSize fields := by
  induction fields with
  | nil => rfl
  | cons field fields ih =>
    rw [fieldsSize_cons] at hfit
    rw [List.map_cons, encodedSize_cons, field.put_size (by omega), ih (by omega),
      fieldsSize_cons]
    push_cast
    rfl

/-- Fields that fit together all report success. -/
theorem fields_reports {fields : List Field} (hfit : fieldsSize fields < 10000) (junk : Junk) :
    ∀ ok ∈ (runPuts Put.run (fields.map Field.put) (HMessage.new junk)).1, ok = true := by
  have hord : ∀ put ∈ fields.map Field.put, put.Ordinary := by
    intro put hput
    obtain ⟨field, hfield, rfl⟩ := List.mem_map.mp hput
    exact field.put_ordinary (lt_of_le_of_lt (mem_size_le hfield) hfit)
  rw [runPuts_reports, HMessage.new_iPos, fitAll_iff hord le_rfl (by omega),
    encodedSize_fields hfit]
  omega

/-! ## Reading -/

/-- A getter finds the field whose bytes stand at the cursor. -/
theorem Field.get_spec {field : Field} (hnul : field.NulFree) (hsize : field.size < 10000)
    {hmg : HMessage} (hload : hmg.byBuffer.load hmg.iPos field.size = field.bytes) :
    (field.type.get hmg).1 = field ∧ (field.type.get hmg).2.byBuffer = hmg.byBuffer ∧
      (field.type.get hmg).2.iPos = hmg.iPos + field.size := by
  cases field with
  | byte data =>
    rw [size, Memory.load_succ, Memory.load_zero] at hload
    exact ⟨congrArg Field.byte (List.cons.inj hload).1, rfl, rfl⟩
  | uShort data => exact ⟨congrArg Field.uShort (Memory.wordAt_of_load hload), rfl, rfl⟩
  | uInt data => exact ⟨congrArg Field.uInt (Memory.dwordAt_of_load hload), rfl, rfl⟩
  | string str =>
    rw [size] at hsize
    rw [size, Memory.load_add] at hload
    obtain ⟨hlen, hstr⟩ := List.append_inj hload (by simp)
    have hword : (hmg.byBuffer.wordAt hmg.iPos).toNat = str.length := by
      rw [Memory.wordAt_of_load hlen,
        UInt16.toNat_ofNat_of_lt' (show str.length < 2 ^ 16 by omega)]
    refine ⟨?_, rfl, ?_⟩
    · have hbytes : hmg.byBuffer.load (hmg.iPos + 2) str.length = str := by exact_mod_cast hstr
      simp only [FieldType.get, type, HMessage.getString_fst, hword, hbytes]
      rw [cString_eq_self hnul]
    · simp only [FieldType.get, type, HMessage.getString_iPos, hword, size]
      push_cast
      ring

/-- By induction on the fields: the first getter leaves the cursor at the bytes of the
others. -/
theorem getFields_spec {fields : List Field} (hnul : ∀ field ∈ fields, field.NulFree)
    (hfit : fieldsSize fields < 10000) {hmg : HMessage}
    (hload : hmg.byBuffer.load hmg.iPos (fieldsSize fields) = fields.flatMap Field.bytes) :
    (getFields (fields.map Field.type) hmg).1 = fields ∧
      (getFields (fields.map Field.type) hmg).2.iPos = hmg.iPos + fieldsSize fields := by
  induction fields generalizing hmg with
  | nil => simp [getFields, fieldsSize]
  | cons field fields ih =>
    rw [List.forall_mem_cons] at hnul
    rw [fieldsSize_cons] at hfit hload ⊢
    rw [Memory.load_add, List.flatMap_cons] at hload
    obtain ⟨hfirst, hothers⟩ := List.append_inj hload (by simp)
    obtain ⟨hvalue, hbuffer, hcursor⟩ := Field.get_spec hnul.1 (by omega) hfirst
    rw [← hcursor, ← hbuffer] at hothers
    obtain ⟨hvalues, hend⟩ := ih hnul.2 (by omega) hothers
    simp only [List.map_cons, getFields, hvalue, hvalues, hend, hcursor, true_and]
    push_cast
    ring

/-! ## Both sides -/

/-- The bytes from the start of the buffer to the cursor. -/
def writtenBytes (hmg : HMessage) : List UInt8 := hmg.getData hmg.iPos

/-- What was written into a new message are the bytes it was extended by. -/
theorem writtenBytes_of_extends {hmg : HMessage} {junk : Junk} {bs : List UInt8}
    (h : Extends (HMessage.new junk) hmg bs) : writtenBytes hmg = bs := by
  unfold writtenBytes HMessage.getData
  rw [h.byBuffer, h.iPos, HMessage.new_iPos, zero_add, Int.toNat_natCast]
  exact Memory.load_store _ 0 bs

/-- Fields that are written into a new message are read from any message that starts with
the bytes written. -/
theorem fields_round_trip {fields : List Field} (hnul : ∀ field ∈ fields, field.NulFree)
    (hfit : fieldsSize fields < 10000) (junk junk' : Junk) :
    let written := runPuts Put.run (fields.map Field.put) (HMessage.new junk)
    (∀ ok ∈ written.1, ok = true) ∧
      ∀ rest, (writtenBytes written.2 ++ rest).length ≤ 10000 →
        let hmg := HMessage.ofData junk' (writtenBytes written.2 ++ rest)
        (getFields (fields.map Field.type) hmg).1 = fields ∧
          (getFields (fields.map Field.type) hmg).2.iPos =
            (writtenBytes written.2).length := by
  intro written
  refine ⟨fields_reports hfit junk, ?_⟩
  intro rest _ hmg
  have hwritten : Extends (HMessage.new junk) written.2 (fields.flatMap Field.bytes) := by
    have hempty := Extends.refl (HMessage.new junk)
    simpa using fields_written hempty le_rfl (by simpa using hfit)
  have hbytes : writtenBytes written.2 = fields.flatMap Field.bytes :=
    writtenBytes_of_extends hwritten
  have hload : hmg.byBuffer.load hmg.iPos (fieldsSize fields) = fields.flatMap Field.bytes := by
    have hslice := Memory.load_store_slice junk'.byBuffer [] (fields.flatMap Field.bytes) rest
      rfl (flatMap_bytes_length fields).symm
    rw [List.nil_append, ← hbytes] at hslice
    rw [← hbytes]
    exact hslice
  obtain ⟨hvalues, hend⟩ := getFields_spec hnul hfit hload
  refine ⟨hvalues, ?_⟩
  rw [hend, hbytes, flatMap_bytes_length]
  exact zero_add _

/-- Five fields of all kinds. -/
theorem fields_round_trip_mixed :
    let fields := [Field.uShort 0x0102, .string [], .byte 7, .string [65, 66], .uInt 0x03040506]
    let written := runPuts Put.run (fields.map Field.put) (HMessage.new ⟨fun _ => 0xff, 0, 0⟩)
    (∀ ok ∈ written.1, ok = true) ∧
      ∀ rest, (writtenBytes written.2 ++ rest).length ≤ 10000 →
        let hmg := HMessage.ofData ⟨fun _ => 0, 0, 0⟩ (writtenBytes written.2 ++ rest)
        (getFields (fields.map Field.type) hmg).1 = fields ∧
          (getFields (fields.map Field.type) hmg).2.iPos =
            (writtenBytes written.2).length :=
  fields_round_trip (by simp [Field.NulFree]) (by decide) _ _

end ShootGame.Analysis
