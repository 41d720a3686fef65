import ShootGame.Analysis.ClientEncoder
import ShootGame.Analysis.ServerList

/-!
# Sending without looking at the puts

`put` of a message class throws away what its puts report, and so do the three
functions that send what it has built.  A message is therefore complete only where all
fields fit; `sends_only_complete_iff` states this for the two senders of the client and
for `DoLogic`, in the lengths of their strings.

On the client a field that `CheckPut` accepts may run over the end of `m_byBuffer`, and
the copy then overwrites `m_pData`, `m_iPos` and `m_iDataUseSize`.  What the puts behind it
report and write is not modelled, so that the rule for the client asks for the copies to
stay inside as well.
-/

set_option autoImplicit false

namespace ShootGame.Analysis

open ShootGame.Library ShootGame.Model

/-- If one of the puts into a new message reports failure, the message they make is not
sent. -/
def OnlyComplete (run : Put → HMessage → Bool × HMessage) (puts : List Put) (junk : Junk)
    (sent : List HMessage) : Prop :=
  false ∈ (runPuts run puts (HMessage.new junk)).1 →
    (runPuts run puts (HMessage.new junk)).2 ∉ sent

/-- The same for the client, whose copies have to stay inside of `m_byBuffer` for the message
to be what its puts make of it. -/
def OnlyCompleteInside (puts : List Put) (junk : Junk) (sent : List HMessage) : Prop :=
  WritesInside (runPuts Put.gameRun puts (HMessage.new junk)).2 ∧
    OnlyComplete Put.gameRun puts junk sent

/-- A sender that always sends meets the rule where nothing can fail. -/
theorem onlyComplete_iff_of_sent {puts : List Put} {junk : Junk} {sent : List HMessage}
    (h : sent = [(runPuts Put.run puts (HMessage.new junk)).2]) :
    OnlyComplete Put.run puts junk sent ↔ fitAll 0 puts = true := by
  unfold OnlyComplete
  rw [false_mem_reports, HMessage.new_iPos, h]
  cases fitAll 0 puts <;> simp

/-! ## The client's requests -/

/-- The puts of a request of the client. -/
def requestPuts (sub : SubProtocol) (junk : GameHMsg.SendJunk) (account password : List UInt8) :
    List Put :=
  GameHMsg.AccountRequest.puts { GameHMsg.AccountRequest.new sub junk.size with
    strAccount := account, strPassword := password }

/-- What `CheckPut` decides about an account and a password of these lengths. -/
def requestPasses (account password : ℕ) : Bool :=
  checkPutAt 8 (toInt account) && checkPutAt (8 + toInt account) 2 &&
    checkPutAt (10 + toInt account) (toInt password)

/-- The puts of a request fit if its lengths pass. -/
theorem fitAll_requestPuts (sub : SubProtocol) (junk : GameHMsg.SendJunk) (a p : List UInt8) :
    fitAll 0 (requestPuts sub junk a p) = requestPasses a.length p.length := by
  have hheader : checkPutAt 0 2 = true ∧ checkPutAt 2 2 = true ∧ checkPutAt 4 2 = true ∧
      checkPutAt 6 2 = true := by decide
  have hoff : (6 : Int) + (2 + toInt a.length) = 8 + toInt a.length := by ring
  have hoff' : (8 : Int) + toInt a.length + 2 = 10 + toInt a.length := by ring
  simp only [requestPuts, GameHMsg.AccountRequest.puts, GameHMsg.BaseMessage.puts,
    List.cons_append, List.nil_append, fitAll, Put.fits, Put.size, zero_add, Int.reduceAdd,
    hheader, hoff, hoff', requestPasses, Bool.true_and, Bool.and_true, Bool.and_assoc]

/-- The bytes that these puts write. -/
theorem writesInside_request (sub : SubProtocol) (junk : GameHMsg.SendJunk) (a p : List UInt8) :
    WritesInside (runPuts Put.gameRun (requestPuts sub junk a p) (HMessage.new junk.hMsg)).2 ↔
      RoomFor 0 (requestCopies a p) := by
  rw [requestPuts, ← GameHMsg.AccountRequest.put_eq_runPuts, writesInside_accountRequest]

/-- The whole request has room in the client's buffer. -/
def requestFits (account password : ℕ) : Prop :=
  0 ≤ toInt account ∧ 0 ≤ toInt password ∧
    10 + toInt account + toInt password ≤ GameHMsg.bufferSize

instance (account password : ℕ) : Decidable (requestFits account password) :=
  inferInstanceAs (Decidable (_ ∧ _ ∧ _))

/-- For lengths that an `int` holds, this is a bound on their sum. -/
theorem requestFits_iff {account password : ℕ} (ha : account < 2 ^ 31) (hp : password < 2 ^ 31) :
    requestFits account password ↔ 10 + account + password ≤ 4096 := by
  have hlenA : toInt account = account := HMessage.toInt_eq_self (by omega) (by omega)
  have hlenP : toInt password = password := HMessage.toInt_eq_self (by omega) (by omega)
  unfold requestFits GameHMsg.bufferSize
  rw [hlenA, hlenP]
  omega

/-- The copies of a request, one after the other. -/
theorem roomFor_request (a p : List UInt8) :
    RoomFor 0 (requestCopies a p) ↔
      RoomFor 8 [toInt a.length] ∧ RoomFor (8 + shortSum [toInt a.length]) [2] ∧
        RoomFor (8 + shortSum [toInt a.length] + 2) [toInt p.length] := by
  have hcopies : requestCopies a p =
      [2, 2, 2, 2] ++ ([toInt a.length] ++ ([2] ++ [toInt p.length])) := rfl
  have hheader : RoomFor 0 [2, 2, 2, 2] := by decide
  have hsum : (0 : Int) + shortSum [2, 2, 2, 2] = 8 := rfl
  have hword : shortSum [2] = 2 := rfl
  rw [hcopies, roomFor_append, and_iff_right hheader, hsum, roomFor_append, roomFor_append, hword]

/-- Where the copies stay in the buffer and no put fails, there is room for all of the
request: a copy that is too long for the buffer is refused or runs over its end. -/
theorem requestFits_of_inside {a p : List UInt8} (hroom : RoomFor 0 (requestCopies a p))
    (hpasses : requestPasses a.length p.length = true) : requestFits a.length p.length := by
  obtain ⟨hloA, hhiA⟩ := toInt_range a.length
  obtain ⟨hloP, hhiP⟩ := toInt_range p.length
  rw [roomFor_request] at hroom
  obtain ⟨hroomA, hroomLen, hroomP⟩ := hroom
  simp only [requestPasses, Bool.and_eq_true] at hpasses
  obtain ⟨⟨hpassA, -⟩, hpassP⟩ := hpasses
  by_cases hA : Short (toInt a.length)
  · have hsum : shortSum [toInt a.length] = toInt a.length := by
      rw [shortSum_cons_of_short hA]
      exact add_zero _
    have htwo : Short 2 := by decide
    rw [hsum, roomFor_short htwo] at hroomLen
    rw [hsum] at hroomP
    unfold Short at hA
    by_cases hP : Short (toInt p.length)
    · rw [roomFor_short hP] at hroomP
      unfold Short at hP
      unfold requestFits
      omega
    · rw [roomFor_long hP hroomLen] at hroomP
      rw [checkPutAt_from_buffer (by omega) (by omega) hloP hhiP] at hpassP
      omega
  · rw [roomFor_long hA (by decide)] at hroomA
    rw [checkPutAt_from_buffer (by omega) (by decide) hloA hhiA] at hpassA
    omega

/-- A request that has room is copied whole. -/
theorem inside_of_requestFits {a p : List UInt8} (h : requestFits a.length p.length) :
    RoomFor 0 (requestCopies a p) ∧ requestPasses a.length p.length = true := by
  obtain ⟨hA, hP, hle⟩ := h
  have hshortA : Short (toInt a.length) := ⟨hA, by omega⟩
  have hshortP : Short (toInt p.length) := ⟨hP, by omega⟩
  have htwo : Short 2 := by decide
  have hsum : shortSum [toInt a.length] = toInt a.length := by
    rw [shortSum_cons_of_short hshortA]
    exact add_zero _
  constructor
  · rw [roomFor_request, hsum, roomFor_short hshortA, roomFor_short htwo, roomFor_short hshortP]
    omega
  · simp only [requestPasses, Bool.and_eq_true]
    unfold GameHMsg.bufferSize at hle
    refine ⟨⟨?_, ?_⟩, ?_⟩
    all_goals
      rw [checkPutAt_iff (by omega) (by omega) (by omega) (by omega)]
      omega

/-- `GameLogicLogin` sends what its puts leave. -/
theorem gameLogicLogin_sent (junk : GameHMsg.SendJunk) (a p : List UInt8) :
    GameHMsg.gameLogicLogin junk a p =
      [(runPuts Put.run (requestPuts .c2zsRLogin junk a p) (HMessage.new junk.hMsg)).2] := by
  rw [← GameHMsg.gameRun_eq, requestPuts, ← GameHMsg.AccountRequest.put_eq_runPuts]
  rfl

/-- `GameLogicRegister` sends what its puts leave. -/
theorem gameLogicRegister_sent (junk : GameHMsg.SendJunk) (a p : List UInt8) :
    GameHMsg.gameLogicRegister junk a p =
      [(runPuts Put.run (requestPuts .c2zsRRegister junk a p) (HMessage.new junk.hMsg)).2] := by
  rw [← GameHMsg.gameRun_eq, requestPuts, ← GameHMsg.AccountRequest.put_eq_runPuts]
  rfl

/-! ## The server's answer to a login -/

/-- What `CheckPut` decides about the entries of an answer, which start at offset 18. -/
def replyPasses (outside : ℕ → ServerData) (vecServerList : List ServerData)
    (node : CLoginWaitNode) : Bool :=
  !node.succeeded ||
    fitAll 18 ((node.entries outside vecServerList).flatMap CLoginWaitNode.entryPuts)

/-- The head of a login answer fits and has 18 bytes. -/
theorem fitAll_loginPuts (msg : ZS2CALogin) :
    fitAll 0 msg.puts = true ∧ encodedSize msg.puts = 18 := by
  constructor <;> rfl

/-- The puts of the reply fit if its entries pass. -/
theorem fitAll_replyPuts (outside : ℕ → ServerData) (junk : DealJunk)
    (vecServerList : List ServerData) (node : CLoginWaitNode) :
    fitAll 0 (node.replyPuts outside junk vecServerList) =
      replyPasses outside vecServerList node := by
  cases hok : node.succeeded with
  | true =>
    simp only [CLoginWaitNode.replyPuts, replyPasses, hok, if_true, fitAll_append,
      fitAll_loginPuts, zero_add, Bool.true_and, Bool.not_true, Bool.false_or]
  | false =>
    simp only [CLoginWaitNode.replyPuts, replyPasses, hok, Bool.false_eq_true, if_false,
      fitAll_loginPuts, Bool.not_false, Bool.true_or]

/-- Addresses below `2 ^ 30` bytes make ordinary puts. -/
theorem ordinary_entryPuts {entries : List ServerData}
    (hip : ∀ data ∈ entries, data.strIP.length < 2 ^ 30) :
    ∀ put ∈ entries.flatMap CLoginWaitNode.entryPuts, put.Ordinary := by
  intro put hput
  obtain ⟨data, hdata, hmem⟩ := List.mem_flatMap.mp hput
  simp only [CLoginWaitNode.entryPuts, List.mem_cons, List.not_mem_nil, or_false] at hmem
  rcases hmem with rfl | rfl | rfl | rfl | rfl
  · trivial
  · exact Nat.two_pow_pos 30
  · exact hip data hdata
  · trivial
  · trivial

/-- An entry takes eleven bytes and its address. -/
theorem encodedSize_entryPuts {entries : List ServerData}
    (hip : ∀ data ∈ entries, data.strIP.length < 2 ^ 30) :
    encodedSize (entries.flatMap CLoginWaitNode.entryPuts) =
      ((entries.map fun data => 11 + data.strIP.length).sum : ℕ) := by
  induction entries with
  | nil => rfl
  | cons data rest ih =>
    rw [List.forall_mem_cons] at hip
    have hlen : toInt data.strIP.length = data.strIP.length :=
      HMessage.toInt_eq_self (by omega) (by have := hip.1; omega)
    have hname : toInt (([] : List UInt8).length) = 0 := rfl
    rw [List.flatMap_cons, encodedSize_append, ih hip.2, List.map_cons, List.sum_cons]
    simp only [CLoginWaitNode.entryPuts, encodedSize_cons, encodedSize_nil, Put.size, hlen, hname]
    push_cast
    ring

/-- For addresses of ordinary lengths, the whole answer has to stay below the capacity. -/
theorem replyPasses_iff {outside : ℕ → ServerData} {vecServerList : List ServerData}
    {node : CLoginWaitNode} (hok : node.succeeded = true)
    (hip : ∀ data ∈ node.entries outside vecServerList, data.strIP.length < 2 ^ 30) :
    replyPasses outside vecServerList node = true ↔
      18 + ((node.entries outside vecServerList).map fun data => 11 + data.strIP.length).sum <
        10000 := by
  have hfits := fitAll_iff (ordinary_entryPuts hip) (show (0 : Int) ≤ 18 by omega)
    (show (18 : Int) < 10000 by omega)
  rw [encodedSize_entryPuts hip] at hfits
  unfold replyPasses
  rw [hok, Bool.not_true, Bool.false_or, hfits]
  omega

/-- `DoLogic` sends what its puts leave. -/
theorem doLogic_sent (outside : ℕ → ServerData) (junk : DealJunk) (now : Int64)
    (vecServerList : List ServerData) (db : DBMS) (node : CLoginWaitNode) :
    (node.doLogic outside junk now vecServerList db).2.map Prod.snd =
      [(runPuts Put.run (node.replyPuts outside junk vecServerList)
        (HMessage.new junk.sendHmg)).2] := by
  rw [← CLoginWaitNode.reply_eq_runPuts]
  rfl

/-- A client that always sends meets its rule where the whole request has room. -/
theorem onlyCompleteInside_iff {sub : SubProtocol} {junk : GameHMsg.SendJunk}
    {a p : List UInt8} {sent : List HMessage}
    (h : sent = [(runPuts Put.run (requestPuts sub junk a p) (HMessage.new junk.hMsg)).2]) :
    OnlyCompleteInside (requestPuts sub junk a p) junk.hMsg sent ↔
      requestFits a.length p.length := by
  unfold OnlyCompleteInside
  rw [writesInside_request, GameHMsg.gameRun_eq, onlyComplete_iff_of_sent h, fitAll_requestPuts]
  constructor
  · rintro ⟨hroom, hpasses⟩
    exact requestFits_of_inside hroom hpasses
  · exact inside_of_requestFits

/-- The three senders send complete messages only, exactly where everything fits. -/
theorem sends_only_complete_iff (sendJunk : GameHMsg.SendJunk) (account password : List UInt8)
    (outside : ℕ → ServerData) (junk : DealJunk) (now : Int64)
    (vecServerList : List ServerData) (db : DBMS) (node : CLoginWaitNode) :
    (OnlyCompleteInside (requestPuts .c2zsRLogin sendJunk account password) sendJunk.hMsg
        (GameHMsg.gameLogicLogin sendJunk account password) ↔
      requestFits account.length password.length) ∧
    (OnlyCompleteInside (requestPuts .c2zsRRegister sendJunk account password)
        sendJunk.hMsg (GameHMsg.gameLogicRegister sendJunk account password) ↔
      requestFits account.length password.length) ∧
    (OnlyComplete Put.run (node.replyPuts outside junk vecServerList) junk.sendHmg
        ((node.doLogic outside junk now vecServerList db).2.map Prod.snd) ↔
      replyPasses outside vecServerList node = true) := by
  refine ⟨onlyCompleteInside_iff (gameLogicLogin_sent _ _ _),
    onlyCompleteInside_iff (gameLogicRegister_sent _ _ _), ?_⟩
  rw [onlyComplete_iff_of_sent (doLogic_sent outside junk now vecServerList db node),
    fitAll_replyPuts]

/-! ## Messages that do not fit -/

/-- A login that succeeded, with eight entries to send. -/
def listLogin : CLoginWaitNode :=
  { CLoginWaitNode.new [65] [66] 7 0 false with
    checkisOK := .assigned true, servercount := .assigned 8 }

/-- A list of eight servers with addresses of 1300 bytes. -/
def longAddresses : List ServerData :=
  List.replicate 8 ⟨1, [], List.replicate 1300 65, 0, 0⟩

/-- The account is refused and the password put behind its length, without a byte outside of
the client's buffer; the message is sent. -/
theorem not_sends_only_complete :
    (WritesInside (runPuts Put.gameRun
          (requestPuts .c2zsRLogin ⟨zeroed, 0⟩ (List.replicate 10000 65) [66])
          (HMessage.new zeroed)).2 ∧
        ¬ OnlyComplete Put.gameRun
          (requestPuts .c2zsRLogin ⟨zeroed, 0⟩ (List.replicate 10000 65) [66]) zeroed
          (GameHMsg.gameLogicLogin ⟨zeroed, 0⟩ (List.replicate 10000 65) [66])) ∧
      (WritesInside (runPuts Put.gameRun
          (requestPuts .c2zsRRegister ⟨zeroed, 0⟩ (List.replicate 10000 65) [66])
          (HMessage.new zeroed)).2 ∧
        ¬ OnlyComplete Put.gameRun
          (requestPuts .c2zsRRegister ⟨zeroed, 0⟩ (List.replicate 10000 65) [66]) zeroed
          (GameHMsg.gameLogicRegister ⟨zeroed, 0⟩ (List.replicate 10000 65) [66])) ∧
      ¬ OnlyComplete Put.run
        (listLogin.replyPuts noServer zeroedDeal longAddresses) zeroedDeal.sendHmg
        ((listLogin.doLogic noServer zeroedDeal 0 longAddresses
          DBMS.empty).2.map Prod.snd) := by
  have hrequest : ¬ requestPasses (List.replicate 10000 (65 : UInt8)).length
      [(66 : UInt8)].length = true := by
    rw [List.length_replicate]
    decide
  have hinside : ∀ sub : SubProtocol, WritesInside (runPuts Put.gameRun
      (requestPuts sub ⟨zeroed, 0⟩ (List.replicate 10000 65) [66]) (HMessage.new zeroed)).2 := by
    intro sub
    rw [writesInside_request sub ⟨zeroed, 0⟩, requestCopies, List.length_replicate]
    decide
  have hentries : listLogin.entries noServer longAddresses = longAddresses :=
    rfl
  have hreply : ¬ replyPasses noServer longAddresses listLogin = true := by
    have hip : ∀ data ∈ longAddresses, data.strIP.length = 1300 := by
      intro data hdata
      obtain ⟨-, rfl⟩ := List.mem_replicate.mp hdata
      exact List.length_replicate
    have hlen : (longAddresses.map fun data => 11 + data.strIP.length) = List.replicate 8 1311 := by
      rw [longAddresses, List.map_replicate, List.length_replicate]
    rw [replyPasses_iff rfl (by rw [hentries]; intro data hdata; rw [hip data hdata]; omega),
      hentries, hlen]
    decide
  refine ⟨⟨hinside _, ?_⟩, ⟨hinside _, ?_⟩, ?_⟩
  · rw [GameHMsg.gameRun_eq, onlyComplete_iff_of_sent (gameLogicLogin_sent _ _ _),
      fitAll_requestPuts]
    exact hrequest
  · rw [GameHMsg.gameRun_eq, onlyComplete_iff_of_sent (gameLogicRegister_sent _ _ _),
      fitAll_requestPuts]
    exact hrequest
  · rw [onlyComplete_iff_of_sent (doLogic_sent _ _ _ _ _ _), fitAll_replyPuts]
    exact hreply

end ShootGame.Analysis
