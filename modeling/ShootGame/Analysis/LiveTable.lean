import ShootGame.Analysis.SessionTable
import ShootGame.Model.NetworkCalls

/-!
# Who is listed in the session table

`Called` inverts a call of the network layer.  An entry of the table is live when its
session was accepted without an error and no read on it has failed: failed reads always
remove their session, since it stands under its own id, but an accept is stored with
its error unseen and a send to an unlisted id leaves a null entry.  `live_table_iff`
says that nothing else spoils the table.
-/

set_option autoImplicit false

namespace ShootGame.Analysis

open ShootGame.Library ShootGame.Model

/-! ## Inversion of a call -/

/-- The calls of a process that is still running. -/
inductive Called (s : NetworkLayer) : NetworkCall → NetworkLayer → List Effect → Prop
  | accept (error : Bool) (junk : UInt32) (session : SessionClient) (rest : List SessionClient)
      (haccepting : s.network.accepting = session :: rest) :
      Called s (.acceptDone error junk)
        { s with network :=
            { mapAllClientSock :=
                s.network.mapAllClientSock.insert s.network.iCurrentID (some session)
              vecAllClientMsg := s.network.vecAllClientMsg
              iCurrentID := MyZServerNetwork.nextID s.network.iCurrentID
              accepting := rest ++
                [⟨s.network.created, MyZServerNetwork.nextID s.network.iCurrentID, .unset junk⟩]
              reading := s.network.reading ++ [session]
              created := s.network.created + 1 } }
        [.armRead session.object,
          .store s.network.iCurrentID session s.network.mapAllClientSock[s.network.iCurrentID]?]
  | read (object : ℕ) (error : Bool) (data : List UInt8) (junk : Junk) (session : SessionClient)
      (hreading : s.network.reading.find? (fun c => c.object == object) = some session) :
      Called s (.readDone object error data junk)
        { s with network :=
            { mapAllClientSock := tableAfterRead session error s.network.mapAllClientSock
              vecAllClientMsg :=
                s.network.vecAllClientMsg ++ [MyZServerNetwork.receivedMsg session data junk]
              iCurrentID := s.network.iCurrentID
              accepting := s.network.accepting
              reading := (s.network.reading.eraseP fun c => c.object == object) ++ [session]
              created := s.network.created } }
        (erasedByRead session error s.network.mapAllClientSock ++
          [.enqueue session.object (MyZServerNetwork.receivedMsg session data junk),
            .armRead session.object])
  | fetch :
      Called s .getAllMsg { s with network := { s.network with vecAllClientMsg := [] } } []
  | missing (iSessionID : Int) (hmg : HMessage) (outcome : WriteOutcome)
      (hentry : s.network.mapAllClientSock[iSessionID]? = none) :
      Called s (.sendMsgBySessionID iSessionID hmg outcome)
        { network :=
            { s.network with
              mapAllClientSock := s.network.mapAllClientSock.insert iSessionID none }
          halted := some .nullSession }
        [.lookup iSessionID none (sentFrame hmg)]
  | null (iSessionID : Int) (hmg : HMessage) (outcome : WriteOutcome)
      (hentry : s.network.mapAllClientSock[iSessionID]? = some none) :
      Called s (.sendMsgBySessionID iSessionID hmg outcome)
        { s with halted := some .nullSession } [.lookup iSessionID none (sentFrame hmg)]
  | written (iSessionID : Int) (hmg : HMessage) (n : ℕ) (session : SessionClient)
      (hentry : s.network.mapAllClientSock[iSessionID]? = some (some session)) :
      Called s (.sendMsgBySessionID iSessionID hmg (.accepts n)) s
        [.lookup iSessionID (some session) (sentFrame hmg),
          .write session.object (sentFrame hmg) (min n (sentFrame hmg).length)]
  | threw (iSessionID : Int) (hmg : HMessage) (session : SessionClient)
      (hentry : s.network.mapAllClientSock[iSessionID]? = some (some session)) :
      Called s (.sendMsgBySessionID iSessionID hmg .throws)
        { s with halted := some .uncaughtException }
        [.lookup iSessionID (some session) (sentFrame hmg)]

/-- Every call of the network layer is one of those listed. -/
theorem called_of_step {s t : NetworkLayer} {call : NetworkCall} {o : List Effect}
    (h : s.step call = some (t, o)) : s.halted = none ∧ Called s call t o := by
  unfold NetworkLayer.step at h
  split_ifs at h with hhalted
  have hrunning : s.halted = none := by simpa using hhalted
  refine ⟨hrunning, ?_⟩
  cases call with
  | acceptDone error junk =>
    cases haccepting : s.network.accepting with
    | nil => simp [haccepting] at h
    | cons session rest =>
      simp only [haccepting, MyZServerNetwork.handleAccept, Option.some.injEq, Prod.mk.injEq] at h
      obtain ⟨rfl, rfl⟩ := h
      exact .accept error junk session rest haccepting
  | readDone object error data junk =>
    cases hreading : s.network.reading.find? (fun c => c.object == object) with
    | none => simp [hreading] at h
    | some session =>
      simp only [hreading] at h
      split_ifs at h with hlen
      simp only [handleRead_eq, Option.some.injEq, Prod.mk.injEq] at h
      obtain ⟨rfl, rfl⟩ := h
      exact .read object error data junk session hreading
  | sendMsgBySessionID iSessionID hmg outcome =>
    simp only [MyZServerNetwork.sendMsgBySessionID] at h
    cases hentry : s.network.mapAllClientSock[iSessionID]? with
    | none =>
      simp only [hentry, Option.some.injEq, Prod.mk.injEq] at h
      obtain ⟨rfl, rfl⟩ := h
      exact .missing iSessionID hmg outcome hentry
    | some entry =>
      cases entry with
      | none =>
        simp only [hentry, Option.some.injEq, Prod.mk.injEq] at h
        obtain ⟨rfl, rfl⟩ := h
        exact .null iSessionID hmg outcome hentry
      | some session =>
        cases outcome with
        | accepts n =>
          simp only [hentry, Option.some.injEq, Prod.mk.injEq] at h
          obtain ⟨rfl, rfl⟩ := h
          rw [← hrunning]
          exact .written iSessionID hmg n session hentry
        | throws =>
          simp only [hentry, Option.some.injEq, Prod.mk.injEq] at h
          obtain ⟨rfl, rfl⟩ := h
          exact .threw iSessionID hmg session hentry
  | getAllMsg =>
    simp only [MyZServerNetwork.getAllMsg, Option.some.injEq, Prod.mk.injEq] at h
    obtain ⟨rfl, rfl⟩ := h
    exact .fetch

/-! ## Sessions over a run -/

def isAcceptCall : NetworkCall → Bool
  | .acceptDone _ _ => true
  | _ => false

/-- How many accepts have completed. -/
def acceptCalls (calls : List NetworkCall) : ℕ := calls.countP isAcceptCall

/-- The accepts in two lists of calls. -/
@[simp] theorem acceptCalls_append (calls calls' : List NetworkCall) :
    acceptCalls (calls ++ calls') = acceptCalls calls + acceptCalls calls' := List.countP_append

/-- A call keeps the invariant. -/
theorem netInv_call {calls : List NetworkCall} {s t : NetworkLayer} {call : NetworkCall}
    {o : List Effect} (hinv : NetInv (acceptCalls calls) s.network) (h : Called s call t o) :
    NetInv (acceptCalls (calls ++ [call])) t.network := by
  rw [acceptCalls_append]
  cases h with
  | accept error junk session rest haccepting => exact hinv.accept haccepting junk
  | read object error data junk session hreading => exact hinv.read hreading error _
  | fetch => exact hinv.withTable [] fun _ _ h => h
  | missing iSessionID hmg outcome hentry =>
    refine hinv.withTable s.network.vecAllClientMsg fun key session h => ?_
    rw [Std.TreeMap.getElem?_insert] at h
    split_ifs at h
    · simp at h
    · exact h
  | _ => exact hinv

/-- The invariant in every run of calls. -/
theorem netInv_of_run {rand : UInt32} {h : List (NetworkCall × List Effect)} {s : NetworkLayer}
    (hrun : NetworkRun rand h s) : NetInv (acceptCalls (inputs h)) s.network := by
  refine hrun.invariant (fun h s => NetInv (acceptCalls (inputs h)) s.network) ?_ ?_
  · exact tableInv_iff.mp (tableInv_start rand)
  · intro h u call v o _ hinv hstep
    rw [inputs_append]
    exact netInv_call hinv (called_of_step hstep).2

/-! ## Live entries -/

/-- The accept of the session completed without an error. -/
def AcceptedOk (h : List (NetworkCall × List Effect)) (session : SessionClient) : Prop :=
  ∃ junk o key old, (.acceptDone false junk, o) ∈ h ∧ .store key session old ∈ o

/-- A read on the socket of the session completed with an error. -/
def ReadFailed (h : List (NetworkCall × List Effect)) (session : SessionClient) : Prop :=
  ∃ data junk o, (.readDone session.object true data junk, o) ∈ h

def LiveTable (h : List (NetworkCall × List Effect)) (net : MyZServerNetwork) : Prop :=
  ∀ (key : Int) (entry : Option SessionClient), net.mapAllClientSock[key]? = some entry →
    ∃ session, entry = some session ∧ AcceptedOk h session ∧ ¬ ReadFailed h session

/-- An accept that completes without an error, and a send to an id that is listed. -/
def Harmless (s : NetworkLayer) : NetworkCall → Prop
  | .acceptDone error _ => error = false
  | .sendMsgBySessionID iSessionID _ _ => iSessionID ∈ s.network.mapAllClientSock
  | _ => True

/-- An accept stays an accept. -/
theorem AcceptedOk.append {h : List (NetworkCall × List Effect)} {session : SessionClient}
    (hok : AcceptedOk h session) (k : List (NetworkCall × List Effect)) :
    AcceptedOk (h ++ k) session := by
  obtain ⟨junk, o, key, old, hmem, hstore⟩ := hok
  exact ⟨junk, o, key, old, List.mem_append_left _ hmem, hstore⟩

/-- A session's read has failed if it had before or fails now. -/
theorem readFailed_concat {h : List (NetworkCall × List Effect)} {session : SessionClient}
    {call : NetworkCall} {o : List Effect} :
    ReadFailed (h ++ [(call, o)]) session ↔
      ReadFailed h session ∨ ∃ data junk, call = .readDone session.object true data junk := by
  simp only [ReadFailed, List.mem_append, List.mem_singleton, Prod.mk.injEq]
  constructor
  · rintro ⟨data, junk, o', hmem | ⟨hcall, -⟩⟩
    · exact .inl ⟨data, junk, o', hmem⟩
    · exact .inr ⟨data, junk, hcall.symm⟩
  · rintro (⟨data, junk, o', hmem⟩ | ⟨data, junk, hcall⟩)
    · exact ⟨data, junk, o', .inl hmem⟩
    · exact ⟨data, junk, o, .inr ⟨hcall.symm, rfl⟩⟩

section Run

variable {rand : UInt32} {h : List (NetworkCall × List Effect)} {s t : NetworkLayer}

/-- A read completes only on a session accepted before. -/
theorem object_lt_of_readFailed (hrun : NetworkRun rand h s) {session : SessionClient}
    (hfailed : ReadFailed h session) : session.object < acceptCalls (inputs h) := by
  obtain ⟨data, junk, o, hmem⟩ := hfailed
  obtain ⟨h₁, h₂, rfl⟩ := List.append_of_mem hmem
  obtain ⟨u, v, hu, hstep, -⟩ := hrun.step_of_split
  cases (called_of_step hstep).2 with
  | read object error data junk session' hreading =>
    have hlt := ((netInv_of_run hu).of_find? hreading).2.1
    rw [inputs_append, acceptCalls_append]
    omega

/-- The session whose accept is pending has the number of accepts so far. -/
theorem object_of_accepting (hrun : NetworkRun rand h s) {session : SessionClient}
    {rest : List SessionClient} (haccepting : s.network.accepting = session :: rest) :
    session.object = acceptCalls (inputs h) := by
  obtain ⟨pending, hpending, hobject, -⟩ := (netInv_of_run hrun).accepting
  rw [haccepting, List.cons.injEq] at hpending
  rw [hpending.1, hobject]

/-- A session is stored when its accept completes, and sessions are numbered by it. -/
theorem object_lt_of_acceptedOk (hrun : NetworkRun rand h s) {session : SessionClient}
    (hok : AcceptedOk h session) : session.object < acceptCalls (inputs h) := by
  obtain ⟨junk, o, key, old, hmem, hstore⟩ := hok
  obtain ⟨h₁, h₂, rfl⟩ := List.append_of_mem hmem
  obtain ⟨u, v, hu, hstep, -⟩ := hrun.step_of_split
  cases (called_of_step hstep).2 with
  | accept error junk pending rest haccepting =>
    have hobject := object_of_accepting hu haccepting
    simp only [List.mem_cons, reduceCtorEq, Effect.store.injEq, List.not_mem_nil, or_false,
      false_or] at hstore
    obtain ⟨-, rfl, -⟩ := hstore
    rw [inputs_append, inputs_cons, acceptCalls_append, hobject]
    simp [acceptCalls, isAcceptCall]

/-- A harmless call keeps the table live. -/
theorem LiveTable.step (hrun : NetworkRun rand h s) (hlive : LiveTable h s.network)
    {call : NetworkCall} {o : List Effect} (hcall : Called s call t o)
    (hharmless : Harmless s call) : LiveTable (h ++ [(call, o)]) t.network := by
  -- an entry that stays is live still, unless it is the session's read that failed
  have hkeep : ∀ {key : Int} {entry : Option SessionClient},
      s.network.mapAllClientSock[key]? = some entry →
      (∀ session, entry = some session → ∀ data junk,
        call ≠ .readDone session.object true data junk) →
      ∃ session, entry = some session ∧ AcceptedOk (h ++ [(call, o)]) session ∧
        ¬ ReadFailed (h ++ [(call, o)]) session := by
    intro key entry hentry hother
    obtain ⟨session, hsession, hok, hread⟩ := hlive key entry hentry
    refine ⟨session, hsession, hok.append _, ?_⟩
    rw [readFailed_concat]
    rintro (hfailed | ⟨data, junk, hfailed⟩)
    · exact hread hfailed
    · exact hother session hsession data junk hfailed
  intro key entry hentry
  cases hcall with
  | accept error junk session rest haccepting =>
    rw [Std.TreeMap.getElem?_insert] at hentry
    split_ifs at hentry with hkey
    · simp only [Option.some.injEq] at hentry
      refine ⟨session, hentry.symm, ?_, ?_⟩
      · obtain rfl : error = false := hharmless
        exact ⟨junk, _, _, _, List.mem_append_right _ List.mem_cons_self,
          List.mem_cons_of_mem _ List.mem_cons_self⟩
      · rw [readFailed_concat]
        rintro (hfailed | ⟨data, junk', hfailed⟩)
        · have := object_lt_of_readFailed hrun hfailed
          rw [object_of_accepting hrun haccepting] at this
          omega
        · simp at hfailed
    · exact hkeep hentry (by simp)
  | read object error data junk session hreading =>
    rw [getElem?_tableAfterRead] at hentry
    split_ifs at hentry with hsame
    refine hkeep hentry fun session' hsession' data' junk' heq => hsame ?_
    simp only [NetworkCall.readDone.injEq] at heq
    have hinv := netInv_of_run hrun
    obtain ⟨-, hnum', hkey⟩ := hinv.entries key session' (hsession' ▸ hentry)
    obtain ⟨hobject, -, hnum⟩ := hinv.of_find? hreading
    exact ⟨heq.2.1, by rw [hnum.iID, hobject, heq.1, ← hnum'.iID, hkey]⟩
  | missing iSessionID hmg outcome hmissing =>
    have hlisted : iSessionID ∈ s.network.mapAllClientSock := hharmless
    rw [← Std.TreeMap.isSome_getElem?_iff_mem, hmissing] at hlisted
    cases hlisted
  | _ => exact hkeep hentry (by simp)

/-- At first nobody is accepted and nobody listed. -/
theorem liveTable_start (rand : UInt32) : LiveTable [] (NetworkLayer.start rand).network := by
  intro key entry hentry
  simp [NetworkLayer.start, MyZServerNetwork.acceptConnect, MyZServerNetwork.empty] at hentry

/-- A call that leaves the table live was harmless. -/
theorem harmless_of_liveTable (hrun : NetworkRun rand h s) {call : NetworkCall}
    {o : List Effect} (hcall : Called s call t o)
    (hafter : LiveTable (h ++ [(call, o)]) t.network) : Harmless s call := by
  cases hcall with
  | accept error junk session rest haccepting =>
    obtain ⟨_, hsession, ⟨junk', o', key, old, hmem, hstore⟩, -⟩ :=
      hafter s.network.iCurrentID (some session) Std.TreeMap.getElem?_insert_self
    simp only [Option.some.injEq] at hsession
    subst hsession
    rcases List.mem_append.mp hmem with hmem | hmem
    · have hlt := object_lt_of_acceptedOk hrun ⟨junk', o', key, old, hmem, hstore⟩
      rw [object_of_accepting hrun haccepting] at hlt
      omega
    · simp only [List.mem_singleton, Prod.mk.injEq, NetworkCall.acceptDone.injEq] at hmem
      exact hmem.1.1.symm
  | missing iSessionID hmg outcome hmissing =>
    obtain ⟨_, hnull, -⟩ := hafter iSessionID none Std.TreeMap.getElem?_insert_self
    cases hnull
  | read | fetch => trivial
  | null iSessionID hmg outcome hentry | written iSessionID hmg n session hentry
  | threw iSessionID hmg session hentry =>
    exact Std.TreeMap.isSome_getElem?_iff_mem.mp (by rw [hentry]; rfl)

/-- The table lists only live sessions throughout a run exactly if every accept of the
run completes without an error and every send names an id that is listed then. -/
theorem live_table_iff (hrun : NetworkRun rand h s) :
    (∀ k l t, h = k ++ l → NetworkRun rand k t → LiveTable k t.network) ↔
      ∀ k call o l t, h = k ++ (call, o) :: l → NetworkRun rand k t → Harmless t call := by
  constructor
  · rintro hlive k call o l t rfl ht
    obtain ⟨t', v, ht', hstep, -⟩ := hrun.step_of_split
    obtain rfl := ht.state_unique ht'
    have hafter := hlive (k ++ [(call, o)]) l v (by simp) (ht.next hstep)
    exact harmless_of_liveTable ht (called_of_step hstep).2 hafter
  · intro hharmless k
    induction k using List.reverseRecOn with
    | nil =>
      rintro l t - ht
      rw [ht.eq_of_nil]
      exact liveTable_start rand
    | append_singleton k x ih =>
      rintro l t rfl ht
      obtain ⟨call, o⟩ := x
      obtain ⟨u, hu, hstep⟩ := ht.last
      have hlive := ih ((call, o) :: l) u (by simp) hu
      exact hlive.step hu (called_of_step hstep).2 (hharmless k call o l u (by simp) hu)

end Run

/-- A client connects and sends a login, which is answered. -/
theorem live_table_iff_answered :
    ∃ h s, NetworkRun 7 h s ∧
      inputs h = [.acceptDone false 5, .readDone 0 false [0, 0] zeroed, .getAllMsg,
        .sendMsgBySessionID 1 (HMessage.new zeroed) (.accepts 100)] ∧
      ((∀ k l t, h = k ++ l → NetworkRun 7 k t → LiveTable k t.network) ↔
        ∀ k call o l t, h = k ++ (call, o) :: l → NetworkRun 7 k t → Harmless t call) := by
  have hexec : (exec NetworkLayer.step (NetworkLayer.start 7)
      [.acceptDone false 5, .readDone 0 false [0, 0] zeroed, .getAllMsg,
        .sendMsgBySessionID 1 (HMessage.new zeroed) (.accepts 100)]).isSome = true := rfl
  obtain ⟨h, s, hrun, hin⟩ := exists_runs_of_exec hexec
  exact ⟨h, s, hrun, hin, live_table_iff hrun⟩

/-- An accept that fails is listed, and so is, as a null entry, a client that has
disconnected and is sent an answer. -/
theorem not_liveTable :
    (∃ h s, NetworkRun 7 h s ∧ inputs h = [.acceptDone true 5] ∧ ¬ LiveTable h s.network) ∧
      ∃ h s, NetworkRun 7 h s ∧
        inputs h = [.acceptDone false 5, .readDone 0 true [] zeroed,
          .sendMsgBySessionID 1 (HMessage.new zeroed) (.accepts 100)] ∧
        ¬ LiveTable h s.network := by
  constructor
  · refine ⟨_, _, Runs.single rfl, rfl, fun hlive => ?_⟩
    obtain ⟨session, -, ⟨junk, o, key, old, hmem, -⟩, -⟩ :=
      hlive 1 (some ⟨0, 1, .assigned 7⟩) rfl
    simp at hmem
  · refine ⟨_, _, ((Runs.start.next rfl).next rfl).next rfl, rfl, fun hlive => ?_⟩
    obtain ⟨session, hnull, -⟩ := hlive 1 none rfl
    cases hnull

end ShootGame.Analysis
