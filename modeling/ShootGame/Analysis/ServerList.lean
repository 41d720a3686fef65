import ShootGame.Analysis.Encoding
import ShootGame.Model.WaitNodes

/-!
# The server list in the login answer

`DoDBSql` collects the rows of the server-list query and `DoLogic` writes them behind
the header of its answer.  `reply_sent` gives the bytes of the answer: the count in its
header is the `0` of the constructor, and the name of an entry is empty, since nothing
assigns the two fields.

`not_listDelivered` is what a client makes of it: whatever the table holds, no entry of
the answer is read.
-/

set_option autoImplicit false

namespace ShootGame.Analysis

open ShootGame.Library ShootGame.Model

/-! ## The bytes of an answer -/

/-- One entry of the list as `DoLogic` writes it. -/
def entryBytes (data : ServerData) : List UInt8 :=
  beBytes data.dwID ++ HMessage.stringBytes [] ++ HMessage.stringBytes data.strIP ++
    leBytes data.wPort ++ [data.byState]

/-- The fields of an answer behind its header. -/
def replyBytes (code dynmicCode : UInt32) (entries : List ServerData) : List UInt8 :=
  beBytes code ++ beBytes dynmicCode ++ beBytes 0 ++ entries.flatMap entryBytes

def replyFrame (code dynmicCode : UInt32) (entries : List ServerData) : List UInt8 :=
  sized (body .fmZdqLogin .zs2cALogin (replyBytes code dynmicCode entries ++ [10]))

/-- A server's data that fits is put behind what is there. -/
theorem putServerData_extends {start hmg : HMessage} {bs : List UInt8} {sendMsg : ZS2CALogin}
    (data : ServerData) (h : Extends start hmg bs) (hpos : 0 ≤ start.iPos)
    (hname : sendMsg.strName = [])
    (hfit : start.iPos + bs.length + (entryBytes data).length < 10000) :
    Extends start ((CLoginWaitNode.fillEntry data sendMsg).putServerData hmg)
      (bs ++ entryBytes data) := by
  simp only [entryBytes, List.length_append, beBytes_length, HMessage.stringBytes_length,
    leBytes_length, List.length_nil, List.length_singleton] at hfit
  have h₁ := h.putUInt hpos data.dwID (by omega)
  have h₂ := h₁.putString hpos [] (by simp; omega)
  have h₃ := h₂.putString hpos data.strIP (by simp; omega)
  have h₄ := h₃.putUShort hpos data.wPort (by simp; omega)
  have h₅ := h₄.putChar hpos data.byState (by simp; omega)
  simpa only [ZS2CALogin.putServerData, CLoginWaitNode.fillEntry, hname, entryBytes,
    List.append_assoc] using h₅

/-- The loop of `DoLogic` writes the entries one behind the other. -/
theorem entryLoop_extends {start hmg : HMessage} {bs : List UInt8} {sendMsg : ZS2CALogin}
    (entries : List ServerData) (h : Extends start hmg bs) (hpos : 0 ≤ start.iPos)
    (hname : sendMsg.strName = [])
    (hfit : start.iPos + bs.length + (entries.flatMap entryBytes).length < 10000) :
    Extends start (CLoginWaitNode.entryLoop entries sendMsg hmg)
      (bs ++ entries.flatMap entryBytes) := by
  induction entries generalizing hmg bs sendMsg with
  | nil => simpa [CLoginWaitNode.entryLoop] using h
  | cons data rest ih =>
    rw [List.flatMap_cons, List.length_append] at hfit
    have hentry := putServerData_extends data h hpos hname (by omega)
    rw [List.flatMap_cons, ← List.append_assoc]
    exact ih hentry hname (by simp only [List.length_append]; omega)

/-- A successful answer fits the buffer, newline included. -/
def ReplyFits (outside : ℕ → ServerData) (vecServerList : List ServerData)
    (node : CLoginWaitNode) : Prop :=
  node.succeeded = true →
    (replyFrame LoginErrorCode.loginOk.code node.dwDynamicCode
      (node.entries outside vecServerList)).length < 10000

/-- The answer to a successful login. -/
theorem reply_sent_of_succeeded (outside : ℕ → ServerData) (junk : DealJunk)
    {vecServerList : List ServerData} {node : CLoginWaitNode} (hok : node.succeeded = true)
    (hfit : ReplyFits outside vecServerList node) :
    sentFrame (node.reply outside junk vecServerList) =
      replyFrame LoginErrorCode.loginOk.code node.dwDynamicCode
        (node.entries outside vecServerList) := by
  let sendMsg : ZS2CALogin := { ZS2CALogin.new junk.wSize junk.field with
    iErrorCode := LoginErrorCode.loginOk.code, dynmicCode := node.dwDynamicCode }
  have hlen := hfit hok
  simp only [replyFrame, sized_length, body_length, replyBytes, List.length_append,
    beBytes_length, List.length_singleton] at hlen
  have hheader : Extends (HMessage.new junk.sendHmg) (sendMsg.put (HMessage.new junk.sendHmg))
      (leBytes sendMsg.wSize ++ leBytes sendMsg.iMainProtocol ++ leBytes sendMsg.iSubProtocol ++
        beBytes LoginErrorCode.loginOk.code ++ beBytes node.dwDynamicCode ++ beBytes 0) :=
    loginAnswer_put_extends sendMsg junk.sendHmg
  have hname : sendMsg.strName = [] := rfl
  have hentries := entryLoop_extends (node.entries outside vecServerList) hheader le_rfl hname
    (by
      simp only [List.length_append, beBytes_length, leBytes_length, HMessage.new_iPos]
      omega)
  have hline := hentries.putChar le_rfl 10 (by
    simp only [List.length_append, beBytes_length, leBytes_length, HMessage.new_iPos]
    omega)
  have hfinished : ((CLoginWaitNode.entryLoop (node.entries outside vecServerList) sendMsg
      (sendMsg.put (HMessage.new junk.sendHmg))).putChar 10).2.finished =
      replyFrame LoginErrorCode.loginOk.code node.dwDynamicCode
        (node.entries outside vecServerList) :=
    finished_of_put sendMsg.toBaseMessage rfl rfl
      (by simpa only [replyBytes, List.append_assoc] using hline)
  unfold sentFrame CLoginWaitNode.reply
  rw [if_pos hok]
  exact hfinished

/-- The answer to a login that failed has no entries. -/
theorem reply_sent_of_failed (outside : ℕ → ServerData) (junk : DealJunk)
    (vecServerList : List ServerData) {node : CLoginWaitNode} (hfail : node.succeeded = false) :
    sentFrame (node.reply outside junk vecServerList) =
      replyFrame LoginErrorCode.loginFail.code 0 [] := by
  have hsent := loginAnswer_sent { ZS2CALogin.new junk.wSize junk.field with
    iErrorCode := LoginErrorCode.loginFail.code } junk.sendHmg rfl rfl
  unfold CLoginWaitNode.reply
  rw [hfail]
  exact hsent

/-! ## Decoding an answer -/

/-- `iCount` calls of `getServerData` on one object, and the entries they yield. -/
def readEntries : ℕ → ZS2CALogin → HMessage → List ServerData
  | 0, _, _ => []
  | iCount + 1, msg, hmg =>
    let r := msg.getServerData hmg
    ⟨r.1.iID, r.1.strName, r.1.strIP, r.1.wPort, r.1.state⟩ :: readEntries iCount r.1 r.2

/-- The header, the fields of the answer, and as many entries as it announces. -/
def decodeReply (junk : DealJunk) (hmg : HMessage) : List ServerData :=
  let base := BaseMessage.get hmg
  let msg := { ZS2CALogin.new junk.wSize junk.field with toBaseMessage := base.1 }.get base.2
  readEntries msg.1.iCount.toNat msg.1 msg.2

/-- A login's reply makes the client loop over no server at all. -/
theorem decodeReply_replyFrame (junk : DealJunk) (junkMsg : Junk) (code dynmicCode : UInt32)
    (entries : List ServerData) (rest : List UInt8) :
    decodeReply junk (HMessage.ofData junkMsg (replyFrame code dynmicCode entries ++ rest)) =
      [] := by
  have hload := Memory.load_store_slice junkMsg.byBuffer
    (leBytes (UInt16.ofNat ((body .fmZdqLogin .zs2cALogin
      (replyBytes code dynmicCode entries ++ [10])).length + 2)) ++
      leBytes MainProtocol.fmZdqLogin.code ++ leBytes SubProtocol.zs2cALogin.code ++
      beBytes code ++ beBytes dynmicCode)
    (beBytes 0) (entries.flatMap entryBytes ++ [10] ++ rest) (q := 14) (n := 4) rfl rfl
  have hcount : (junkMsg.byBuffer.store 0
      (replyFrame code dynmicCode entries ++ rest)).dwordAt 14 = 0 := by
    apply Memory.dwordAt_of_load
    simpa only [replyFrame, sized, body, replyBytes, List.append_assoc] using hload
  simp only [decodeReply, ZS2CALogin.get, BaseMessage.get, HMessage.getUInt_fst,
    HMessage.getUInt_byBuffer, HMessage.getUInt_iPos, HMessage.getUShort_byBuffer,
    HMessage.getUShort_iPos]
  have hbuf : (HMessage.ofData junkMsg (replyFrame code dynmicCode entries ++ rest)).byBuffer =
    junkMsg.byBuffer.store 0 (replyFrame code dynmicCode entries ++ rest) := rfl
  have hpos : (HMessage.ofData junkMsg (replyFrame code dynmicCode entries ++ rest)).iPos = 0 :=
    rfl
  rw [hbuf, hpos, show (0 : Int) + 2 + 2 + 2 + 4 + 4 = 14 by norm_num, hcount]
  rfl

/-- No entry is read from an answer of `DoLogic`. -/
theorem decodeReply_reply (outside : ℕ → ServerData) (junk : DealJunk) (junkMsg : Junk)
    {vecServerList : List ServerData} {node : CLoginWaitNode}
    (hfit : ReplyFits outside vecServerList node) :
    decodeReply junk (HMessage.ofData junkMsg
      (sentFrame (node.reply outside junk vecServerList))) = [] := by
  cases hok : node.succeeded with
  | true =>
    rw [reply_sent_of_succeeded outside junk hok hfit]
    simpa only [List.append_nil] using decodeReply_replyFrame junk junkMsg _ _ _ []
  | false =>
    rw [reply_sent_of_failed outside junk vecServerList hok]
    simpa only [List.append_nil] using decodeReply_replyFrame junk junkMsg _ _ _ []

/-! ## A login with a server list -/

/-- The credentials are valid and the server-list query yields `rows`, with every column
`DoDBSql` converts in the range of its field. -/
structure ListedLogin (database : List UInt8 → DBAnswer) (node : CLoginWaitNode)
    (rows : List MysqlRow) (fieldCount : UInt32) : Prop where
  valid : CLoginWaitNode.checkLoginData database node.strAccount node.strPassword = true
  answered : ∃ iret, 0 < iret ∧
    database (cString CLoginWaitNode.serverListSql) = ⟨true, iret, some ⟨rows, fieldCount⟩⟩
  rows_ne : rows ≠ []
  columns : 8 ≤ fieldCount.toNat
  nonNull : ∀ row ∈ rows, ∀ j < fieldCount.toNat, (row j).isSome
  inRange : ∀ row ∈ rows, ∀ s,
    (row 0 = some s → 0 ≤ atoi s ∧ atoi s < 2 ^ 32) ∧
      (row 3 = some s → 0 ≤ atoi s ∧ atoi s < 2 ^ 16) ∧
      (row 7 = some s → 0 ≤ atoi s ∧ atoi s < 2 ^ 8)

/-- The answer to the login decodes to the rows of the table; the list was empty before. -/
def ListDelivered (outside : ℕ → ServerData) (junk : DealJunk) (junkCount : Int)
    (database : List UInt8 → DBAnswer) (node : CLoginWaitNode) (rows : List MysqlRow)
    (junkMsg : Junk) : Prop :=
  let r := node.doDBSql database junkCount []
  decodeReply junk (HMessage.ofData junkMsg (sentFrame (r.1.reply outside junk r.2))) =
    rows.map ServerData.ofRow

/-- No login delivers its server list. -/
theorem not_listDelivered {database : List UInt8 → DBAnswer} {node : CLoginWaitNode}
    {rows : List MysqlRow} {fieldCount : UInt32} (h : ListedLogin database node rows fieldCount)
    (outside : ℕ → ServerData) (junk : DealJunk) (junkCount : Int) (junkMsg : Junk)
    (hfit : ReplyFits outside (node.doDBSql database junkCount []).2
      (node.doDBSql database junkCount []).1) :
    ¬ ListDelivered outside junk junkCount database node rows junkMsg := by
  intro hrows
  simp only [ListDelivered, decodeReply_reply outside junk junkMsg hfit] at hrows
  exact h.rows_ne (List.map_eq_nil_iff.mp hrows.symm)

/-- Eight rows of eight columns, so that `DoLogic` visits the rows and nothing else. -/
def eightRows : List MysqlRow := List.replicate 8 fun _ => some [49]

/-- A database that knows every account and lists eight servers. -/
def eightServers : List UInt8 → DBAnswer := fun sql =>
  if sql = cString CLoginWaitNode.serverListSql then ⟨true, 1, some ⟨eightRows, 8⟩⟩
  else ⟨true, 1, some ⟨[fun _ => none], 1⟩⟩

def someLogin : CLoginWaitNode := CLoginWaitNode.new [65] [66] 7 0 false

/-- The eight servers are listed by a login that succeeds. -/
theorem listedLogin_eightServers : ListedLogin eightServers someLogin eightRows 8 where
  valid := by decide
  answered := ⟨1, by decide, if_pos rfl⟩
  rows_ne := by decide
  columns := by decide
  nonNull := by simp [eightRows]
  inRange := by
    have hone : atoi [49] = 1 := by decide
    intro row hrow s
    obtain ⟨-, rfl⟩ := List.mem_replicate.mp hrow
    refine ⟨?_, ?_, ?_⟩ <;> rintro ⟨⟩ <;> rw [hone] <;> decide

def noServer : ℕ → ServerData := fun _ => ⟨0, [], [], 0, 0⟩

/-- Their reply fits into a frame. -/
theorem replyFits_eightServers :
    ReplyFits noServer (someLogin.doDBSql eightServers 0 []).2
      (someLogin.doDBSql eightServers 0 []).1 := by
  intro _
  decide

/-- They are not delivered. -/
theorem not_listDelivered_eightServers :
    ¬ ListDelivered noServer zeroedDeal 0 eightServers someLogin eightRows zeroed :=
  not_listDelivered listedLogin_eightServers noServer zeroedDeal 0 zeroed replyFits_eightServers

/-- All three together: listed, fitting and not delivered. -/
theorem server_list_lost :
    ListedLogin eightServers someLogin eightRows 8 ∧
      ReplyFits noServer (someLogin.doDBSql eightServers 0 []).2
        (someLogin.doDBSql eightServers 0 []).1 ∧
      ¬ ListDelivered noServer zeroedDeal 0 eightServers someLogin eightRows zeroed := by
  refine ⟨listedLogin_eightServers, replyFits_eightServers, fun h => ?_⟩
  have hnil := decodeReply_reply noServer zeroedDeal zeroed replyFits_eightServers
  simp only [ListDelivered, hnil] at h
  cases h

end ShootGame.Analysis
