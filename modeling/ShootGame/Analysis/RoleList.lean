import ShootGame.Analysis.Decoding
import ShootGame.Analysis.MessageDrift

/-!
# The list of roles

`DS2C_A_GetAllRole::put` writes how many roles follow, `get` reads a name in its place.
The count of the object that is read into stays what it was, and the names are looked for
from the middle of the written count on.  `role_list_never_reads_back` says that no list
survives this, unless the object held its length by chance and the list is long.
-/

set_option autoImplicit false

namespace ShootGame.Analysis

open ShootGame.Library ShootGame.Model

/-- What the uninitialised fields of a message and of the object put into it hold. -/
structure RoleJunk where
  hMsg : Junk
  size : UInt16
  iCount : UInt32

/-! ## Writing and reading a list -/

/-- `put` with the count set, then one `putRole` for each name. -/
def writeRoles (junk : RoleJunk) (names : List (List UInt8)) : HMessage :=
  let msg := DS2CAGetAllRole.new junk.size junk.iCount
  names.foldl (fun hmg name => { msg with rolename := name }.putRole hmg)
    ({ msg with iCount := UInt32.ofNat names.length }.put (HMessage.new junk.hMsg))

/-- So many calls of `getRole`. -/
def readRoles : ℕ → DS2CAGetAllRole → HMessage → List (List UInt8) × HMessage
  | 0, _, hmg => ([], hmg)
  | n + 1, msg, hmg =>
    let role := msg.getRole hmg
    let roles := readRoles n role.1 role.2
    (role.1.rolename :: roles.1, roles.2)

/-- `BaseMessage::get`, `get` and as many calls of `getRole` as the count says: the count,
the names and the offset behind them. -/
def readAnswer (junk : RoleJunk) (data : List UInt8) : UInt32 × List (List UInt8) × Int :=
  let base := BaseMessage.get (HMessage.ofData junk.hMsg data)
  let head := (DS2CAGetAllRole.new junk.size junk.iCount).get base.2
  let roles := readRoles head.1.iCount.toNat head.1 head.2
  (head.1.iCount, roles.1, roles.2.iPos)

/-- `writeRoles` with the client's functions. -/
def gameWriteRoles (junk : RoleJunk) (names : List (List UInt8)) : HMessage :=
  let msg := GameHMsg.DS2CAGetAllRole.new junk.size junk.iCount
  names.foldl (fun hmg name => { msg with rolename := name }.putRole hmg)
    ({ msg with iCount := UInt32.ofNat names.length }.put (HMessage.new junk.hMsg))

def gameReadRoles : ℕ → GameHMsg.DS2CAGetAllRole → HMessage → List (List UInt8) × HMessage
  | 0, _, hmg => ([], hmg)
  | n + 1, msg, hmg =>
    let role := msg.getRole hmg
    let roles := gameReadRoles n role.1 role.2
    (role.1.rolename :: roles.1, roles.2)

/-- `readAnswer` with the client's functions. -/
def gameReadAnswer (junk : RoleJunk) (data : List UInt8) : UInt32 × List (List UInt8) × Int :=
  let base := GameHMsg.BaseMessage.get (HMessage.ofData junk.hMsg data)
  let head := (GameHMsg.DS2CAGetAllRole.new junk.size junk.iCount).get base.2
  let roles := gameReadRoles head.1.iCount.toNat head.1 head.2
  (head.1.iCount, roles.1, roles.2.iPos)

/-- The client writes the list as the server does. -/
theorem gameWriteRoles_eq : gameWriteRoles = writeRoles := rfl

/-- It reads the names as the server does. -/
theorem gameReadRoles_eq (n : ℕ) (msg : GameHMsg.DS2CAGetAllRole) (hmg : HMessage) :
    gameReadRoles n msg hmg = readRoles n msg.toServer hmg := by
  induction n generalizing msg hmg with
  | zero => rfl
  | succ n ih =>
    simp only [gameReadRoles, readRoles, ih]
    rfl

/-- It reads the answer as the server does. -/
theorem gameReadAnswer_eq : gameReadAnswer = readAnswer := by
  funext junk data
  simp only [gameReadAnswer, gameReadRoles_eq]
  rfl

/-- The two copies of the class. -/
inductive Side where
  | server
  | client

def Side.write : Side → RoleJunk → List (List UInt8) → HMessage
  | server => writeRoles
  | client => gameWriteRoles

def Side.read : Side → RoleJunk → List UInt8 → UInt32 × List (List UInt8) × Int
  | server => readAnswer
  | client => gameReadAnswer

/-- What `writer` wrote is read by `reader` as the same count and the same names, up to the
end of the written bytes. -/
def ReadsBack (writer reader : Side) (junk junk' : RoleJunk) (names : List (List UInt8)) : Prop :=
  let data := writtenBytes (writer.write junk names)
  reader.read junk' data = (UInt32.ofNat names.length, names, (data.length : Int))

/-- Both sides write alike. -/
theorem Side.write_eq (side : Side) : side.write = writeRoles := by
  cases side with
  | server => rfl
  | client => exact gameWriteRoles_eq

/-- Both sides read alike. -/
theorem Side.read_eq (side : Side) : side.read = readAnswer := by
  cases side with
  | server => rfl
  | client => exact gameReadAnswer_eq

/-- So which side wrote and which one reads does not matter. -/
theorem readsBack_iff (writer reader : Side) (junk junk' : RoleJunk)
    (names : List (List UInt8)) :
    ReadsBack writer reader junk junk' names ↔
      readAnswer junk' (writtenBytes (writeRoles junk names)) =
        (UInt32.ofNat names.length, names,
          ((writtenBytes (writeRoles junk names)).length : Int)) := by
  unfold ReadsBack
  rw [writer.write_eq, reader.read_eq]

/-! ## The written bytes -/

/-- The size of the encodings of the names. -/
def namesSize (names : List (List UInt8)) : ℕ := (names.map fun name => 2 + name.length).sum

/-- No names take no bytes. -/
@[simp] theorem namesSize_nil : namesSize [] = 0 := rfl

/-- A name takes two bytes more than it has. -/
@[simp] theorem namesSize_cons (name : List UInt8) (names : List (List UInt8)) :
    namesSize (name :: names) = 2 + name.length + namesSize names := by
  simp [namesSize]

/-- The fields of a whole answer. -/
def answerFields (msg : DS2CAGetAllRole) (names : List (List UInt8)) : List Field :=
  roleFields { msg with iCount := UInt32.ofNat names.length } ++ names.map Field.string

/-- The answer has ten bytes in front of its names. -/
theorem fieldsSize_answer (msg : DS2CAGetAllRole) (names : List (List UInt8)) :
    fieldsSize (answerFields msg names) = 10 + namesSize names := by
  simp only [fieldsSize, answerFields, roleFields, headerFields, namesSize, List.map_append,
    List.sum_append, List.map_cons, List.map_nil, List.sum_cons, List.sum_nil, List.map_map,
    Field.size]
  rfl

/-- The roles are put as so many strings. -/
theorem foldl_putRole (msg : DS2CAGetAllRole) (names : List (List UInt8)) (hmg : HMessage) :
    names.foldl (fun hmg name => { msg with rolename := name }.putRole hmg) hmg =
      (runPuts Put.run ((names.map Field.string).map Field.put) hmg).2 := by
  induction names generalizing hmg with
  | nil => rfl
  | cons name names ih => exact ih _

/-- Writing the list is putting the count and then the names. -/
theorem writeRoles_eq_runPuts (junk : RoleJunk) (names : List (List UInt8)) :
    writeRoles junk names =
      (runPuts Put.run
        ((answerFields (DS2CAGetAllRole.new junk.size junk.iCount) names).map Field.put)
        (HMessage.new junk.hMsg)).2 := by
  have hhead := MessageClass.serverPut_eq_runPuts .ds2cAGetAllRole
    { DS2CAGetAllRole.new junk.size junk.iCount with iCount := UInt32.ofNat names.length }
    (HMessage.new junk.hMsg)
  unfold writeRoles answerFields
  rw [foldl_putRole, List.map_append, runPuts_append]
  exact congrArg (fun hmg => (runPuts Put.run _ hmg).2) hhead

/-- The header and the count, then the names. -/
theorem writtenBytes_writeRoles (junk : RoleJunk) {names : List (List UInt8)}
    (hfit : 10 + namesSize names < 10000) :
    ∃ header : List UInt8, header.length = 6 ∧
      writtenBytes (writeRoles junk names) =
        header ++ (beBytes (UInt32.ofNat names.length) ++ names.flatMap HMessage.stringBytes) := by
  have hempty := Extends.refl (HMessage.new junk.hMsg)
  rw [← fieldsSize_answer (DS2CAGetAllRole.new junk.size junk.iCount)] at hfit
  have hwritten := fields_written hempty le_rfl (by simpa using hfit)
  rw [writeRoles_eq_runPuts, writtenBytes_of_extends hwritten]
  refine ⟨(headerFields (DS2CAGetAllRole.new junk.size junk.iCount).toBaseMessage).flatMap
    Field.bytes, rfl, ?_⟩
  simp only [answerFields, roleFields, List.nil_append, List.append_assoc, List.flatMap_append,
    List.flatMap_map]
  rfl

/-! ## Reading them -/

/-- Names that were read need not be where the bytes are, but they took up their room. -/
theorem readRoles_iPos (n : ℕ) (msg : DS2CAGetAllRole) (hmg : HMessage) :
    hmg.iPos + namesSize (readRoles n msg hmg).1 ≤ (readRoles n msg hmg).2.iPos := by
  induction n generalizing msg hmg with
  | zero => simp [readRoles]
  | succ n ih =>
    have hrest := ih (msg.getRole hmg).1 (msg.getRole hmg).2
    have hname := cString_length_le
      (hmg.byBuffer.load (hmg.iPos + 2) (hmg.byBuffer.wordAt hmg.iPos).toNat)
    rw [Memory.load_length] at hname
    have hcursor : (msg.getRole hmg).2.iPos =
        hmg.iPos + 2 + (hmg.byBuffer.wordAt hmg.iPos).toNat := HMessage.getString_iPos hmg
    have hvalue : (msg.getRole hmg).1.rolename = cString
        (hmg.byBuffer.load (hmg.iPos + 2) (hmg.byBuffer.wordAt hmg.iPos).toNat) := rfl
    simp only [readRoles, namesSize_cons, hvalue]
    push_cast
    omega

/-- A name cut out of its own encoding: the prefix is read as the first two bytes. -/
theorem cString_prefix_ne {name bs : List UInt8} {n : ℕ} (hn : 0 < n) (hlen : bs.length = 256 * n)
    (hinitial : bs <+: HMessage.stringBytes name) : cString bs ≠ name := by
  intro heq
  have hnul : 0 ∉ name := by
    rw [← heq]
    exact zero_notMem_cString bs
  match bs, hlen, hinitial, heq with
  | [], hlen, _, _ => simp at hlen; omega
  | [lo], hlen, _, _ => simp at hlen; omega
  | lo :: hi :: tail, hlen, hinitial, heq =>
    unfold HMessage.stringBytes leBytes at hinitial
    simp only [List.cons_append, List.nil_append, List.cons_prefix_cons] at hinitial
    obtain ⟨hlo, hhi, htail⟩ := hinitial
    have hle := htail.length_le
    simp only [List.length_cons] at hlen
    by_cases hlo0 : lo = 0
    · rw [hlo0] at heq
      have hempty : name = [] := heq.symm
      rw [hempty, List.length_nil] at hle
      omega
    · by_cases hhi0 : hi = 0
      · have hone : name = [lo] := by
          rw [← heq, hhi0]
          simp [cString, hlo0]
        rw [hone, List.length_singleton] at hle
        omega
      · -- no NUL anywhere, so that the name has the length that was read
        have hfree : 0 ∉ lo :: hi :: tail := by
          intro hmem
          rcases List.mem_cons.mp hmem with hzero | hmem
          · exact hlo0 hzero.symm
          rcases List.mem_cons.mp hmem with hzero | hmem
          · exact hhi0 hzero.symm
          · exact hnul (htail.subset hmem)
        rw [cString_eq_self hfree] at heq
        apply hlo0
        rw [hlo, ← heq, List.length_cons, List.length_cons, hlen]
        apply UInt8.toNat_inj.mp
        rw [UInt16.toNat_toUInt8, UInt16.toNat_ofNat']
        simp

/-- The two bytes of a short count that are read as a length, and the two before them. -/
theorem beBytes_short {n : ℕ} (hn : n < 256) :
    beBytes (UInt32.ofNat n) = leBytes 0 ++ leBytes (leWord 0 (UInt8.ofNat n)) := by
  have hword : UInt32.ofNat n = beWord 0 0 0 (UInt8.ofNat n) := by
    apply UInt32.toNat_inj.mp
    rw [beWord_toNat, UInt32.toNat_ofNat_of_lt' (show n < 2 ^ 32 by omega),
      UInt8.toNat_ofNat_of_lt' (show n < 2 ^ 8 by omega)]
    simp
  rw [hword, beBytes_beWord, leBytes_leWord]
  rfl

/-- A small count, read where a name's length should be, is 256 times as large. -/
theorem leWord_count {n : ℕ} (hn : n < 256) : (leWord 0 (UInt8.ofNat n)).toNat = 256 * n := by
  rw [leWord_toNat, UInt8.toNat_ofNat_of_lt' (show n < 2 ^ 8 by omega)]
  simp
  omega

section Reading

variable {names : List (List UInt8)} {header : List UInt8} (mem : Memory)

/-- The memory of a received answer to fewer than 256 names. -/
theorem answer_words (hheader : header.length = 6) (hn : names.length < 256) :
    let mem' := mem.store 0
      (header ++ (beBytes (UInt32.ofNat names.length) ++ names.flatMap HMessage.stringBytes))
    mem'.wordAt 6 = 0 ∧ (mem'.wordAt 8).toNat = 256 * names.length ∧
      mem'.load 10 (namesSize names) = names.flatMap HMessage.stringBytes := by
  intro mem'
  have hcount : mem'.load 6 4 = beBytes (UInt32.ofNat names.length) := by
    apply Memory.load_store_slice
    · rw [hheader]
      rfl
    · rfl
  rw [beBytes_short hn, show 4 = 2 + 2 from rfl, Memory.load_add] at hcount
  obtain ⟨hfirst, hsecond⟩ := List.append_inj hcount (by simp)
  have hword : mem'.wordAt 8 = leWord 0 (UInt8.ofNat names.length) :=
    Memory.wordAt_of_load hsecond
  refine ⟨Memory.wordAt_of_load hfirst, ?_, ?_⟩
  · rw [hword, leWord_count hn]
  · have hslice := Memory.load_store_slice mem
      (header ++ beBytes (UInt32.ofNat names.length)) (names.flatMap HMessage.stringBytes) []
      (q := 10) (n := namesSize names) (by simp [hheader])
      (by simp [namesSize, List.length_flatMap])
    simpa [mem'] using hslice

end Reading

/-- The count comes from the object, and the names from behind what was taken for one. -/
theorem readAnswer_spec (junk : RoleJunk) (data : List UInt8) :
    ∃ (msg : DS2CAGetAllRole) (hmg : HMessage), hmg.byBuffer = junk.hMsg.byBuffer.store 0 data ∧
      hmg.iPos = 8 + ((junk.hMsg.byBuffer.store 0 data).wordAt 6).toNat ∧
      readAnswer junk data = (junk.iCount, (readRoles junk.iCount.toNat msg hmg).1,
        (readRoles junk.iCount.toNat msg hmg).2.iPos) := by
  obtain ⟨-, -, hbuffer, hcursor, -⟩ :=
    baseMessage_get_spec (HMessage.ofData junk.hMsg data) rfl
  refine ⟨_, (BaseMessage.get (HMessage.ofData junk.hMsg data)).2.getString.2, ?_, ?_, rfl⟩
  · rw [HMessage.getString_byBuffer, hbuffer]
    rfl
  · rw [HMessage.getString_iPos, hcursor, hbuffer]
    rfl

/-- Names that are read from two bytes before them, where their count stands, do not end
where they do. -/
theorem readRoles_end_ne {names : List (List UInt8)} (msg : DS2CAGetAllRole) {hmg : HMessage}
    (hcursor : hmg.iPos = 8) (hcount : (hmg.byBuffer.wordAt 8).toNat = 256 * names.length)
    (hnames : hmg.byBuffer.load 10 (namesSize names) = names.flatMap HMessage.stringBytes)
    (hroles : (readRoles names.length msg hmg).1 = names) :
    (readRoles names.length msg hmg).2.iPos ≠ 10 + namesSize names := by
  intro hend
  cases names with
  | nil =>
    have hnil : hmg.iPos = 10 := hend
    omega
  | cons name names =>
    rw [List.length_cons] at hroles hend hcount
    simp only [readRoles, List.cons.injEq] at hroles hend
    obtain ⟨hname, hothers⟩ := hroles
    -- the first call already goes behind where the first name ends
    have hbound := readRoles_iPos names.length (msg.getRole hmg).1 (msg.getRole hmg).2
    have hfirst : (msg.getRole hmg).2.iPos = hmg.iPos + 2 + (hmg.byBuffer.wordAt hmg.iPos).toNat :=
      HMessage.getString_iPos hmg
    rw [hothers, hend, hfirst, hcursor, hcount, namesSize_cons] at hbound
    have hle : 256 * (names.length + 1) ≤ 2 + name.length := by
      push_cast at hbound
      omega
    have hvalue : cString (hmg.byBuffer.load (hmg.iPos + 2) (hmg.byBuffer.wordAt hmg.iPos).toNat) =
        name := hname
    rw [hcursor, hcount] at hvalue
    refine cString_prefix_ne (n := names.length + 1) (Nat.succ_pos _) ?_ ?_ hvalue
    · rw [Memory.load_length]
    · rw [List.flatMap_cons, namesSize_cons, Memory.load_add] at hnames
      obtain ⟨hbytes, -⟩ := List.append_inj hnames (by simp)
      obtain ⟨k, hk⟩ := Nat.exists_eq_add_of_le hle
      rw [hk, Memory.load_add] at hbytes
      exact ⟨_, hbytes⟩

/-- Fewer than 256 names are not read back, whatever the object that is read into held. -/
theorem not_readsBack_short {names : List (List UInt8)} (hfit : 10 + namesSize names < 10000)
    (hn : names.length < 256) (junk junk' : RoleJunk) :
    readAnswer junk' (writtenBytes (writeRoles junk names)) ≠
      (UInt32.ofNat names.length, names,
        ((writtenBytes (writeRoles junk names)).length : Int)) := by
  obtain ⟨header, hheader, hdata⟩ := writtenBytes_writeRoles junk hfit
  have hlength : (writtenBytes (writeRoles junk names)).length = 10 + namesSize names := by
    rw [hdata]
    simp [hheader, namesSize, List.length_flatMap]
    omega
  obtain ⟨hword, hcount, hnames⟩ := answer_words junk'.hMsg.byBuffer hheader hn
  obtain ⟨msg, hmg, hbuffer, hcursor, hread⟩ :=
    readAnswer_spec junk' (writtenBytes (writeRoles junk names))
  rw [← hdata, ← hbuffer] at hword hcount hnames
  rw [← hbuffer, hword] at hcursor
  intro heq
  rw [hread, hlength, Prod.mk.injEq, Prod.mk.injEq] at heq
  obtain ⟨hfield, hroles, hend⟩ := heq
  have hcalls : junk'.iCount.toNat = names.length := by
    rw [hfield, UInt32.toNat_ofNat_of_lt' (show names.length < 2 ^ 32 by omega)]
  rw [hcalls] at hroles hend
  exact readRoles_end_ne msg hcursor hcount hnames hroles hend

/-! ## No list survives -/

/-- A list of role names that fits the buffer is not read back into an object whose count
is not by chance that of the list, and a list of fewer than 256 names into no object. -/
theorem role_list_never_reads_back {names : List (List UInt8)}
    (hfit : 10 + namesSize names < 10000) (writer reader : Side) (junk : RoleJunk) :
    (¬ ∀ junk', ReadsBack writer reader junk junk' names) ∧
      ∀ junk', ReadsBack writer reader junk junk' names →
        junk'.iCount = UInt32.ofNat names.length ∧ 256 ≤ names.length := by
  have hcases : ∀ junk', ReadsBack writer reader junk junk' names →
      junk'.iCount = UInt32.ofNat names.length ∧ 256 ≤ names.length := by
    intro junk' hreads
    rw [readsBack_iff] at hreads
    constructor
    · exact congrArg Prod.fst hreads
    · by_contra hshort
      exact not_readsBack_short hfit (Nat.lt_of_not_le hshort) junk junk' hreads
  refine ⟨?_, hcases⟩
  intro hall
  have hchance := (hcases _ (hall ⟨zeroed, 0, UInt32.ofNat names.length + 1⟩)).1
  simp at hchance

/-- Two roles, written by the server and read by the client. -/
theorem role_list_never_reads_back_two :
    (¬ ∀ junk', ReadsBack .server .client ⟨zeroed, 0, 0⟩ junk' [[65], [66, 67]]) ∧
      ∀ junk', ReadsBack .server .client ⟨zeroed, 0, 0⟩ junk' [[65], [66, 67]] →
        junk'.iCount = UInt32.ofNat 2 ∧ 256 ≤ 2 := by
  have hfit : 10 + namesSize [[65], [66, 67]] < 10000 := by decide
  exact role_list_never_reads_back hfit .server .client ⟨zeroed, 0, 0⟩

/-- A single role, read into an object that holds its count: the low half of the count is
taken for the length 256, and the length in front of the name for the name. -/
theorem not_role_list_reads_back :
    ¬ ∀ (writer reader : Side) (junk junk' : RoleJunk) (names : List (List UInt8)),
      (∀ name ∈ names, 0 ∉ name) → 10 + namesSize names < 10000 →
        ReadsBack writer reader junk junk' names := by
  intro h
  have hreads := h .server .server ⟨zeroed, 0, 0⟩ ⟨zeroed, 0, 1⟩ [[65]] (by simp) (by decide)
  rw [readsBack_iff] at hreads
  exact not_readsBack_short (by decide) (by decide) _ _ hreads

end ShootGame.Analysis
