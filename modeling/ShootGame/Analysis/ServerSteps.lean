import ShootGame.Analysis.Encoding
import ShootGame.Model.Server

/-!
# What a step of the server can do

`stepped_of_step` inverts `Server.step` once: a step is an accept, a read, one of the
three moves of the main loop around a batch, or one iteration of `DealMsg`, each with
the state and the effects it leads to, so that no later proof opens a handler again.
`exists_dealing` does the same for the iterations.
-/

set_option autoImplicit false

namespace ShootGame.Analysis

open ShootGame.Library ShootGame.Model

/-- Events that can all be executed are a run. -/
theorem exists_serverRun (rand : UInt32) (es : List Event)
    (h : (exec Server.step (Server.start rand) es).isSome = true) :
    ∃ h s, ServerRun rand h s ∧ inputs h = es :=
  exists_runs_of_exec h

/-! ## The handler of a read -/

/-- The table once the read of a session has completed. -/
def tableAfterRead (session : SessionClient) (error : Bool)
    (table : Std.TreeMap Int (Option SessionClient)) : Std.TreeMap Int (Option SessionClient) :=
  if error ∧ session.iID ∈ table then table.erase session.iID else table

/-- The entry that a read completion removes, where it removes one. -/
def erasedByRead (session : SessionClient) (error : Bool)
    (table : Std.TreeMap Int (Option SessionClient)) : List Effect :=
  if error then
    (table[session.iID]?.map fun old => Effect.erase session.object session.iID old).toList
  else []

/-- A failed read leaves no entry under the session's id, and every other entry alone. -/
theorem getElem?_tableAfterRead (session : SessionClient) (error : Bool)
    (table : Std.TreeMap Int (Option SessionClient)) (key : Int) :
    (tableAfterRead session error table)[key]? =
      if error = true ∧ session.iID = key then none else table[key]? := by
  unfold tableAfterRead
  by_cases herror : error = true
  · by_cases hin : session.iID ∈ table
    · rw [if_pos ⟨herror, hin⟩, Std.TreeMap.getElem?_erase]
      simp [herror]
    · rw [if_neg fun h => hin h.2]
      split_ifs with hkey
      · rw [← hkey.2]
        exact Std.TreeMap.getElem?_eq_none hin
      · rfl
  · rw [if_neg fun h => herror h.1, if_neg fun h => herror h.1]

/-- A read erases the session's entry, where it fails and there is one. -/
theorem mem_erasedByRead {session : SessionClient} {error : Bool}
    {table : Std.TreeMap Int (Option SessionClient)} {eff : Effect} :
    eff ∈ erasedByRead session error table ↔
      error = true ∧ ∃ old, table[session.iID]? = some old ∧
        eff = .erase session.object session.iID old := by
  unfold erasedByRead
  cases error with
  | false => simp
  | true => simp [eq_comm]

/-- `Handle_Read`, whether the read failed or not. -/
theorem handleRead_eq (net : MyZServerNetwork) (session : SessionClient) (error : Bool)
    (data : List UInt8) (junk : Junk) :
    net.handleRead session error data junk =
      ({ net with
          mapAllClientSock := tableAfterRead session error net.mapAllClientSock
          vecAllClientMsg :=
            net.vecAllClientMsg ++ [MyZServerNetwork.receivedMsg session data junk]
          reading := net.reading ++ [session] },
        erasedByRead session error net.mapAllClientSock ++
          [.enqueue session.object (MyZServerNetwork.receivedMsg session data junk),
            .armRead session.object]) := by
  unfold MyZServerNetwork.handleRead MyZServerNetwork.dropSession tableAfterRead erasedByRead
  cases error with
  | false => simp
  | true =>
    cases hentry : net.mapAllClientSock[session.iID]? with
    | none =>
      have hnotin : session.iID ∉ net.mapAllClientSock := by
        rw [← Std.TreeMap.isSome_getElem?_iff_mem, hentry]
        simp
      simp [hnotin]
    | some old =>
      have hin : session.iID ∈ net.mapAllClientSock := by
        rw [← Std.TreeMap.isSome_getElem?_iff_mem, hentry]
        rfl
      simp [hin]

/-! ## Inversion of a step -/

/-- The steps of a process that is still running. -/
inductive Stepped (s : Server) : Event → Server → List Effect → Prop
  | accept (error : Bool) (junk : UInt32) (session : SessionClient) (rest : List SessionClient)
      (haccepting : s.network.accepting = session :: rest) :
      Stepped s (.acceptDone error junk)
        { s with network :=
            { mapAllClientSock :=
                s.network.mapAllClientSock.insert s.network.iCurrentID (some session)
              vecAllClientMsg := s.network.vecAllClientMsg
              iCurrentID := MyZServerNetwork.nextID s.network.iCurrentID
              accepting := rest ++
                [⟨s.network.created, MyZServerNetwork.nextID s.network.iCurrentID, .unset junk⟩]
              reading := s.network.reading ++ [session]
              created := s.network.created + 1 } }
        [.armRead session.object,
          .store s.network.iCurrentID session s.network.mapAllClientSock[s.network.iCurrentID]?]
  | read (object : ℕ) (error : Bool) (data : List UInt8) (junk : Junk) (session : SessionClient)
      (hreading : s.network.reading.find? (fun c => c.object == object) = some session)
      (hlen : data.length ≤ 4000) :
      Stepped s (.readDone object error data junk)
        { s with network :=
            { mapAllClientSock := tableAfterRead session error s.network.mapAllClientSock
              vecAllClientMsg :=
                s.network.vecAllClientMsg ++ [MyZServerNetwork.receivedMsg session data junk]
              iCurrentID := s.network.iCurrentID
              accepting := s.network.accepting
              reading := (s.network.reading.eraseP fun c => c.object == object) ++ [session]
              created := s.network.created } }
        (erasedByRead session error s.network.mapAllClientSock ++
          [.enqueue session.object (MyZServerNetwork.receivedMsg session data junk),
            .armRead session.object])
  | fetch (junk : DealJunk) (outcome : WriteOutcome) (hpc : s.pc = .getAllMsg) :
      Stepped s (.mainStep junk outcome)
        { s with
          network := { s.network with vecAllClientMsg := [] }
          pc := .getvecMsg s.network.vecAllClientMsg } []
  | hand (junk : DealJunk) (outcome : WriteOutcome) (vecTmpMsgList : List HMessage)
      (hpc : s.pc = .getvecMsg vecTmpMsgList) :
      Stepped s (.mainStep junk outcome)
        { s with
          msgLogic := { s.msgLogic with vecAllClientMsg := vecTmpMsgList }
          pc := .dealMsg 0 } []
  | finish (junk : DealJunk) (outcome : WriteOutcome) (i : ℕ) (hpc : s.pc = .dealMsg i)
      (hdone : s.msgLogic.vecAllClientMsg[i]? = none) :
      Stepped s (.mainStep junk outcome)
        { s with msgLogic := { s.msgLogic with vecAllClientMsg := [] }, pc := .getAllMsg } []
  | deal (junk : DealJunk) (outcome : WriteOutcome) (i : ℕ) (hmg : HMessage)
      (hpc : s.pc = .dealMsg i) (hmsg : s.msgLogic.vecAllClientMsg[i]? = some hmg) :
      Stepped s (.mainStep junk outcome) (s.dealStep junk outcome i hmg).1
        (s.dealStep junk outcome i hmg).2

/-- Every step of the server is one of those listed. -/
theorem stepped_of_step {s t : Server} {e : Event} {o : List Effect}
    (h : Server.step s e = some (t, o)) : s.halted = none ∧ Stepped s e t o := by
  unfold Server.step at h
  split_ifs at h with hhalted
  have hrunning : s.halted = none := by simpa using hhalted
  refine ⟨hrunning, ?_⟩
  cases e with
  | acceptDone error junk =>
    cases haccepting : s.network.accepting with
    | nil => simp [haccepting] at h
    | cons session rest =>
      simp only [haccepting, MyZServerNetwork.handleAccept, Option.some.injEq, Prod.mk.injEq] at h
      obtain ⟨rfl, rfl⟩ := h
      exact .accept error junk session rest haccepting
  | readDone object error data junk =>
    cases hreading : s.network.reading.find? (fun c => c.object == object) with
    | none => simp [hreading] at h
    | some session =>
      simp only [hreading] at h
      split_ifs at h with hlen
      simp only [handleRead_eq, Option.some.injEq, Prod.mk.injEq] at h
      obtain ⟨rfl, rfl⟩ := h
      exact .read object error data junk session hreading (by omega)
  | mainStep junk outcome =>
    simp only [Option.some.injEq] at h
    rw [Server.mainStep] at h
    cases hpc : s.pc with
    | getAllMsg =>
      simp only [hpc, Prod.mk.injEq] at h
      obtain ⟨rfl, rfl⟩ := h
      exact .fetch junk outcome hpc
    | getvecMsg vecTmpMsgList =>
      simp only [hpc, Prod.mk.injEq] at h
      obtain ⟨rfl, rfl⟩ := h
      exact .hand junk outcome vecTmpMsgList hpc
    | dealMsg i =>
      cases hmsg : s.msgLogic.vecAllClientMsg[i]? with
      | none =>
        simp only [hpc, hmsg, Prod.mk.injEq] at h
        obtain ⟨rfl, rfl⟩ := h
        exact .finish junk outcome i hpc hmsg
      | some hmg =>
        simp only [hpc, hmsg] at h
        have hdeal := Stepped.deal junk outcome i hmg hpc hmsg
        rw [h] at hdeal
        exact hdeal

/-! ## One iteration of `DealMsg` -/

/-- The frame a request is answered with while the copy of the client table is empty. -/
def answerTo : Request → Option (List UInt8)
  | .registerAccount _ _ => none
  | .login _ _ => some loginFrame
  | .checkDynmicCode _ _ d => some (checkFrame .checkDynmicCodeFail d)

def answerOf (hmg : HMessage) : Option (List UInt8) := (decoded hmg.byBuffer).bind answerTo

/-- With no client recorded a request is answered as it stands. -/
theorem answerFrame_of_isEmpty {logic : MsgLogic} (hempty : logic.mapAllClient = ∅)
    (q : Option Request) : answerFrame logic q = q.bind answerTo := by
  rcases q with _ | (⟨a, p⟩ | ⟨a, p⟩ | ⟨c, s, d⟩) <;> try rfl
  rw [answerFrame, verdict_of_isEmpty hempty]
  rfl

/-- With no client recorded no null pointer is met. -/
theorem meetsNull_of_isEmpty {logic : MsgLogic} (hempty : logic.mapAllClient = ∅)
    (q : Option Request) : meetsNull logic q = false := by
  rcases q with _ | (⟨a, p⟩ | ⟨a, p⟩ | ⟨c, s, d⟩) <;> try rfl
  rw [meetsNull, verdict_of_isEmpty hempty]
  rfl

section Deal

variable (s : Server) (junk : DealJunk) (outcome : WriteOutcome) (i : ℕ) (hmg : HMessage)

/-- The four ways in which a message is dealt with: the network, the halt and the
effects afterwards. -/
inductive Dealing : MyZServerNetwork → Option Halt → List Effect → Prop
  | silent (hanswer : answerOf hmg = none) :
      Dealing s.network s.halted [.dealt hmg (decoded hmg.byBuffer)]
  | missing (table : Std.TreeMap Int (Option SessionClient)) (frame : List UInt8)
      (hanswer : answerOf hmg = some frame)
      (hentry : ∀ session, s.network.mapAllClientSock[hmg.iSessionID.read]? ≠ some (some session))
      (htable : ∀ (key : Int) (session : SessionClient), table[key]? = some (some session) →
        s.network.mapAllClientSock[key]? = some (some session)) :
      Dealing { s.network with mapAllClientSock := table } (some .nullSession)
        [.dealt hmg (decoded hmg.byBuffer), .lookup hmg.iSessionID.read none frame]
  | written (frame : List UInt8) (session : SessionClient) (n : ℕ)
      (hanswer : answerOf hmg = some frame)
      (hentry : s.network.mapAllClientSock[hmg.iSessionID.read]? = some (some session))
      (houtcome : outcome = .accepts n) :
      Dealing s.network none
        [.dealt hmg (decoded hmg.byBuffer), .lookup hmg.iSessionID.read (some session) frame,
          .write session.object frame (min n frame.length)]
  | threw (frame : List UInt8) (session : SessionClient) (hanswer : answerOf hmg = some frame)
      (hentry : s.network.mapAllClientSock[hmg.iSessionID.read]? = some (some session))
      (houtcome : outcome = .throws) :
      Dealing s.network (some .uncaughtException)
        [.dealt hmg (decoded hmg.byBuffer), .lookup hmg.iSessionID.read (some session) frame]

/-- `DealMsg` on a fresh message with an empty client table is one of these. -/
theorem exists_dealing (hpos : hmg.iPos = 0) (hempty : s.msgLogic.mapAllClient = ∅) :
    ∃ net halted o, Dealing s outcome hmg net halted o ∧
      s.dealStep junk outcome i hmg =
        ({ network := net
           msgLogic :=
            { s.msgLogic with
              vecAllClientMsg :=
                s.msgLogic.vecAllClientMsg.set i (s.msgLogic.dealOne junk hmg).hmg }
           pc := .dealMsg (i + 1)
           halted := halted }, o) := by
  have hspec := dealOne_spec junk s.msgLogic hmg hpos
  have hnull := meetsNull_of_isEmpty hempty (decoded hmg.byBuffer)
  have hframe : (replyTo junk s.msgLogic (decoded hmg.byBuffer)).map sentFrame = answerOf hmg := by
    rw [map_sentFrame_replyTo, answerFrame_of_isEmpty hempty, answerOf]
  unfold Server.dealStep
  simp only [hspec.request, hspec.reply, hspec.nullEntry, hnull, Bool.false_eq_true, if_false]
  cases hreply : replyTo junk s.msgLogic (decoded hmg.byBuffer) with
  | none =>
    rw [hreply] at hframe
    exact ⟨_, _, _, .silent hframe.symm, rfl⟩
  | some sendHmg =>
    have hanswer : answerOf hmg = some (sentFrame sendHmg) := by rw [← hframe, hreply]; rfl
    simp only [MyZServerNetwork.sendMsgBySessionID]
    cases hentry : s.network.mapAllClientSock[hmg.iSessionID.read]? with
    | none =>
      refine ⟨_, _, _, .missing _ _ hanswer (by simp [hentry]) fun key session h => ?_, rfl⟩
      rw [Std.TreeMap.getElem?_insert] at h
      split_ifs at h
      · simp at h
      · exact h
    | some entry =>
      cases entry with
      | none =>
        exact ⟨_, _, _, .missing s.network.mapAllClientSock _ hanswer (by simp [hentry])
          fun _ _ h => h, rfl⟩
      | some session =>
        cases outcome with
        | accepts n => exact ⟨_, _, _, .written _ session n hanswer hentry rfl, rfl⟩
        | throws => exact ⟨_, _, _, .threw _ session hanswer hentry rfl, rfl⟩

end Deal

end ShootGame.Analysis
