import ShootGame.Analysis.MessageFlow

/-!
# Session ids and the session table

The `n`-th session gets the id `sessionId n`, counted round from `1` to `999999999`.
`TableInv` says where sessions are and that each of them is numbered so; it explains
why `Handle_accept` may store a session under the global counter
(`stored_under_own_id`).

Whatever message is under way was received on one of these sessions
(`origin_of_waiting`).
-/

set_option autoImplicit false

namespace ShootGame.Analysis

open ShootGame.Library ShootGame.Model

/-! ## Numbering -/

/-- The id of the `n`-th session allocated. -/
def sessionId (n : ℕ) : Int := n % 999999999 + 1

def isAccept : Event → Bool
  | .acceptDone _ _ => true
  | _ => false

def accepts (es : List Event) : ℕ := es.countP isAccept

/-- The numbers follow one another as the code counts them. -/
theorem nextID_sessionId (n : ℕ) : MyZServerNetwork.nextID (sessionId n) = sessionId (n + 1) := by
  simp only [MyZServerNetwork.nextID, sessionId]
  split_ifs <;> push_cast <;> omega

/-- They stay between 1 and 999999999. -/
theorem sessionId_mem_range (n : ℕ) : 1 ≤ sessionId n ∧ sessionId n ≤ 999999999 := by
  unfold sessionId
  omega

/-- Two of them are equal only after a wrap. -/
theorem sessionId_inj {m n : ℕ} (hm : m < 999999999) (hn : n < 999999999)
    (h : sessionId m = sessionId n) : m = n := by
  unfold sessionId at h
  omega

/-- The accepts in two lists of events. -/
@[simp] theorem accepts_append (es fs : List Event) :
    accepts (es ++ fs) = accepts es + accepts fs := List.countP_append

/-- An accept is one. -/
@[simp] theorem accepts_acceptDone (error : Bool) (junk : UInt32) :
    accepts [.acceptDone error junk] = 1 := rfl

/-- A read is none. -/
@[simp] theorem accepts_readDone (object : ℕ) (error : Bool) (data : List UInt8) (junk : Junk) :
    accepts [.readDone object error data junk] = 0 := rfl

/-- Nor is a step of the main loop. -/
@[simp] theorem accepts_mainStep (junk : DealJunk) (outcome : WriteOutcome) :
    accepts [.mainStep junk outcome] = 0 := rfl

/-- A session has the id of its number, and a dynamic code only if it is the first. -/
structure Numbered (session : SessionClient) : Prop where
  iID : session.iID = sessionId session.object
  dynmicCode : session.dynmicCode.IsAssigned ↔ session.object = 0

/-- Where the sessions are after some events. -/
structure TableInv (es : List Event) (s : Server) : Prop where
  created : s.network.created = accepts es + 1
  currentID : s.network.iCurrentID = sessionId (accepts es)
  accepting : ∃ session,
    s.network.accepting = [session] ∧ session.object = accepts es ∧ Numbered session
  reading : ∀ session ∈ s.network.reading, session.object < accepts es ∧ Numbered session
  armed : ∀ n < accepts es, ∃ session ∈ s.network.reading, session.object = n
  entries : ∀ key session, s.network.mapAllClientSock[key]? = some (some session) →
    session.object < accepts es ∧ Numbered session ∧ session.iID = key

/-- The same of a network on its own, after `n` accepts. -/
structure NetInv (n : ℕ) (net : MyZServerNetwork) : Prop where
  created : net.created = n + 1
  currentID : net.iCurrentID = sessionId n
  accepting : ∃ session, net.accepting = [session] ∧ session.object = n ∧ Numbered session
  reading : ∀ session ∈ net.reading, session.object < n ∧ Numbered session
  armed : ∀ k < n, ∃ session ∈ net.reading, session.object = k
  entries : ∀ key session, net.mapAllClientSock[key]? = some (some session) →
    session.object < n ∧ Numbered session ∧ session.iID = key

/-- The invariant is one of the network, at the number of accepts. -/
theorem tableInv_iff {es : List Event} {s : Server} :
    TableInv es s ↔ NetInv (accepts es) s.network :=
  ⟨fun h => ⟨h.created, h.currentID, h.accepting, h.reading, h.armed, h.entries⟩,
    fun h => ⟨h.created, h.currentID, h.accepting, h.reading, h.armed, h.entries⟩⟩

def Listed (s : Server) (id : Int) : Prop :=
  ∃ session, s.network.mapAllClientSock[id]? = some (some session)

/-- It holds before the first accept. -/
theorem tableInv_start (rand : UInt32) : TableInv [] (Server.start rand) where
  created := rfl
  currentID := rfl
  accepting := ⟨_, rfl, rfl, rfl, iff_of_true trivial rfl⟩
  reading := by simp [Server.start, MyZServerNetwork.acceptConnect, MyZServerNetwork.empty]
  armed n hn := absurd hn (by simp [accepts])
  entries := by simp [Server.start, MyZServerNetwork.acceptConnect, MyZServerNetwork.empty]

namespace NetInv

variable {n : ℕ} {net : MyZServerNetwork}

/-- The session a completed read finds is the one that it was armed for. -/
theorem of_find? (hinv : NetInv n net) {object : ℕ} {session : SessionClient}
    (h : net.reading.find? (fun c => c.object == object) = some session) :
    session.object = object ∧ object < n ∧ Numbered session := by
  have hobject : session.object = object := by simpa using List.find?_some h
  obtain ⟨hlt, hnum⟩ := hinv.reading session (List.mem_of_find?_eq_some h)
  exact ⟨hobject, hobject ▸ hlt, hnum⟩

/-- The pending session is stored under its own id, and the next one is numbered on. -/
theorem accept (hinv : NetInv n net) {session : SessionClient} {rest : List SessionClient}
    (haccepting : net.accepting = session :: rest) (junk : UInt32) :
    NetInv (n + 1)
      { net with
        mapAllClientSock := net.mapAllClientSock.insert net.iCurrentID (some session)
        iCurrentID := MyZServerNetwork.nextID net.iCurrentID
        accepting := rest ++
          [⟨net.created, MyZServerNetwork.nextID net.iCurrentID, .unset junk⟩]
        reading := net.reading ++ [session]
        created := net.created + 1 } := by
  obtain ⟨pending, hpending, hobject, hnum⟩ := hinv.accepting
  rw [hpending, List.cons.injEq] at haccepting
  obtain ⟨rfl, rfl⟩ := haccepting
  constructor
  · simp [hinv.created]
  · rw [hinv.currentID, nextID_sessionId]
  · rw [hinv.currentID, nextID_sessionId, hinv.created]
    exact ⟨_, rfl, rfl, rfl, iff_of_false id (Nat.succ_ne_zero _)⟩
  · intro session hmem
    simp only [List.mem_append, List.mem_singleton] at hmem
    rcases hmem with hmem | rfl
    · exact ⟨by have := (hinv.reading session hmem).1; omega, (hinv.reading session hmem).2⟩
    · exact ⟨by omega, hnum⟩
  · intro k hk
    by_cases hold : k < n
    · obtain ⟨session, hmem, hsession⟩ := hinv.armed k hold
      exact ⟨session, List.mem_append_left _ hmem, hsession⟩
    · exact ⟨pending, by simp, by omega⟩
  · intro key session hentry
    rw [Std.TreeMap.getElem?_insert] at hentry
    split_ifs at hentry with hkey
    · simp only [Option.some.injEq] at hentry
      subst hentry
      refine ⟨by rw [hobject]; omega, hnum, ?_⟩
      rw [hnum.iID, hobject, ← hinv.currentID]
      exact Std.LawfulEqCmp.eq_of_compare hkey
    · obtain ⟨hlt, hrest⟩ := hinv.entries key session hentry
      exact ⟨by omega, hrest⟩

/-- A read leaves every session where it is and may remove an entry. -/
theorem read (hinv : NetInv n net) {object : ℕ} {session : SessionClient}
    (hreading : net.reading.find? (fun c => c.object == object) = some session)
    (error : Bool) (queue : List HMessage) :
    NetInv n
      { net with
        mapAllClientSock := tableAfterRead session error net.mapAllClientSock
        vecAllClientMsg := queue
        reading := (net.reading.eraseP fun c => c.object == object) ++ [session] } := by
  obtain ⟨hobject, hlt, hnum⟩ := hinv.of_find? hreading
  refine ⟨hinv.created, hinv.currentID, hinv.accepting, ?_, ?_, ?_⟩
  · intro session' hmem
    simp only [List.mem_append, List.mem_singleton] at hmem
    rcases hmem with hmem | rfl
    · exact hinv.reading session' (List.mem_of_mem_eraseP hmem)
    · exact ⟨hobject ▸ hlt, hnum⟩
  · intro k hk
    by_cases hsame : k = object
    · exact ⟨session, by simp, hobject.trans hsame.symm⟩
    · obtain ⟨session', hmem, hsession'⟩ := hinv.armed k hk
      refine ⟨session', List.mem_append_left _ ?_, hsession'⟩
      exact (List.mem_eraseP_of_neg (by simp [hsession', hsame])).mpr hmem
  · intro key session' hentry
    rw [getElem?_tableAfterRead] at hentry
    split_ifs at hentry
    exact hinv.entries key session' hentry

/-- Nothing else puts a session into the table. -/
theorem withTable (hinv : NetInv n net) (queue : List HMessage)
    {table : Std.TreeMap Int (Option SessionClient)}
    (htable : ∀ (key : Int) (session : SessionClient), table[key]? = some (some session) →
      net.mapAllClientSock[key]? = some (some session)) :
    NetInv n { net with mapAllClientSock := table, vecAllClientMsg := queue } :=
  ⟨hinv.created, hinv.currentID, hinv.accepting, hinv.reading, hinv.armed,
    fun key session h => hinv.entries key session (htable key session h)⟩

end NetInv

/-- The same, said of the server. -/
theorem TableInv.of_find? {es : List Event} {s : Server} (hinv : TableInv es s) {object : ℕ}
    {session : SessionClient}
    (h : s.network.reading.find? (fun c => c.object == object) = some session) :
    session.object = object ∧ object < accepts es ∧ Numbered session :=
  (tableInv_iff.mp hinv).of_find? h

/-- Every step keeps the invariant. -/
theorem tableInv_step {es : List Event} {s t : Server} {e : Event} {o : List Effect}
    (hflow : FlowInv s) (hinv : TableInv es s) (h : Stepped s e t o) :
    TableInv (es ++ [e]) t := by
  rw [tableInv_iff] at hinv ⊢
  cases h with
  | accept error junk session rest haccepting =>
    rw [accepts_append, accepts_acceptDone]
    exact hinv.accept haccepting junk
  | read object error data junk session hreading hlen =>
    rw [accepts_append, accepts_readDone]
    exact hinv.read hreading error _
  | deal junk outcome i hmg hpc hmsg =>
    obtain ⟨net, halted, o, hdeal, heq⟩ := hflow.dealStep_eq hpc hmsg junk outcome
    rw [heq, accepts_append, accepts_mainStep]
    cases hdeal with
    | missing table frame hanswer hentry htable => exact hinv.withTable _ htable
    | _ => exact hinv
  | fetch =>
    rw [accepts_append, accepts_mainStep]
    exact hinv.withTable [] fun _ _ h => h
  | _ =>
    rw [accepts_append, accepts_mainStep]
    exact hinv

/-- It holds throughout a run. -/
theorem tableInv_of_run {rand : UInt32} {h : List (Event × List Effect)} {s : Server}
    (hrun : ServerRun rand h s) : TableInv (inputs h) s := by
  refine hrun.invariant (fun h s => TableInv (inputs h) s) (tableInv_start rand) ?_
  intro h u i v o hprefix hinv hstep
  rw [inputs_append]
  exact tableInv_step (flowInv_of_run hprefix) hinv (stepped_of_step hstep).2

/-- An accept can complete whenever the server runs, and does not halt it. -/
theorem exists_accept_step {rand : UInt32} {h : List (Event × List Effect)} {s : Server}
    (hrun : ServerRun rand h s) (hrunning : s.halted = none) (error : Bool) (junk : UInt32) :
    ∃ t o, Server.step s (.acceptDone error junk) = some (t, o) ∧ t.halted = none := by
  obtain ⟨pending, hpending, -, -⟩ := (tableInv_of_run hrun).accepting
  simp only [Server.step, hrunning, hpending, Option.isSome_none, Bool.false_eq_true, if_false]
  exact ⟨_, _, rfl, rfl⟩

/-- A read can complete on every connection accepted so far. -/
theorem exists_read_step {rand : UInt32} {h : List (Event × List Effect)} {s : Server}
    (hrun : ServerRun rand h s) (hrunning : s.halted = none) {object : ℕ}
    (hobject : object < accepts (inputs h)) (error : Bool) {data : List UInt8}
    (hlen : data.length ≤ 4000) (junk : Junk) :
    ∃ t o, Server.step s (.readDone object error data junk) = some (t, o) ∧ t.halted = none := by
  obtain ⟨session, hmem, hsession⟩ := (tableInv_of_run hrun).armed object hobject
  have hwaits : (s.network.reading.find? fun c => c.object == object).isSome := by
    rw [List.find?_isSome]
    exact ⟨session, hmem, by simpa using hsession⟩
  obtain ⟨found, hfound⟩ := Option.isSome_iff_exists.mp hwaits
  simp only [Server.step, hrunning, hfound, Option.isSome_none, Bool.false_eq_true, if_false,
    if_neg (Nat.not_lt.mpr hlen)]
  exact ⟨_, _, rfl, rfl⟩

/-- Any number of clients can connect. -/
theorem exists_run_accepts (rand : UInt32) (n : ℕ) :
    ∃ h s, ServerRun rand h s ∧ s.halted = none ∧
      inputs h = List.replicate n (.acceptDone false 0) := by
  induction n with
  | zero => exact ⟨[], _, .start, rfl, rfl⟩
  | succ n ih =>
    obtain ⟨h, s, hrun, hrunning, hin⟩ := ih
    obtain ⟨t, o, hstep, hrunning'⟩ := exists_accept_step hrun hrunning false 0
    refine ⟨h ++ [(.acceptDone false 0, o)], t, hrun.next hstep, hrunning', ?_⟩
    rw [inputs_append, hin, List.replicate_succ']
    rfl

/-! ## Keys and ids -/

/-- Only an accept stores: the pending session, under the global counter. -/
theorem stepped_of_store {s t : Server} {e : Event} {o : List Effect} (hflow : FlowInv s)
    (h : Stepped s e t o) {key : Int} {session : SessionClient}
    {old : Option (Option SessionClient)} (hmem : .store key session old ∈ o) :
    (∃ error junk, e = .acceptDone error junk) ∧ session ∈ s.network.accepting ∧
      key = s.network.iCurrentID ∧ old = s.network.mapAllClientSock[key]? := by
  cases h with
  | accept error junk pending rest haccepting =>
    simp only [List.mem_cons, Effect.store.injEq, reduceCtorEq, List.not_mem_nil, or_false,
      false_or] at hmem
    obtain ⟨rfl, rfl, rfl⟩ := hmem
    exact ⟨⟨error, junk, rfl⟩, by rw [haccepting]; simp, rfl, rfl⟩
  | read object error data junk session' hreading hlen =>
    simp [mem_erasedByRead] at hmem
  | deal junk outcome i hmg hpc hmsg =>
    obtain ⟨net, halted, o, hdeal, heq⟩ := hflow.dealStep_eq hpc hmsg junk outcome
    rw [heq] at hmem
    cases hdeal <;> simp at hmem
  | _ => simp at hmem

/-- Sessions are stored under their own id, which is in range, and the one session
pending in an accept has the id the counter stands at. -/
theorem stored_under_own_id {rand : UInt32} {h : List (Event × List Effect)} {s : Server}
    (hrun : ServerRun rand h s) :
    (∀ key session old, .store key session old ∈ outputs h →
      key = session.iID ∧ 1 ≤ session.iID ∧ session.iID ≤ 999999999) ∧
      ∃ session, s.network.accepting = [session] ∧ session.iID = s.network.iCurrentID := by
  constructor
  · intro key session old hmem
    obtain ⟨e, o, hentry, hstore⟩ := mem_outputs.mp hmem
    obtain ⟨k, t, v, hreach, hstep⟩ := hrun.step_of_mem hentry
    have hinv := tableInv_of_run hreach
    obtain ⟨-, haccepting, hkey, -⟩ :=
      stepped_of_store (flowInv_of_run hreach) (stepped_of_step hstep).2 hstore
    obtain ⟨pending, hpending, hobject, hnum⟩ := hinv.accepting
    rw [hpending, List.mem_singleton] at haccepting
    subst haccepting
    rw [hkey, hinv.currentID, hnum.iID, hobject]
    exact ⟨rfl, sessionId_mem_range _⟩
  · have hinv := tableInv_of_run hrun
    obtain ⟨pending, hpending, hobject, hnum⟩ := hinv.accepting
    exact ⟨pending, hpending, by rw [hnum.iID, hobject, hinv.currentID]⟩

/-- Two clients connect and the first one disconnects. -/
theorem stored_under_own_id_two_clients :
    ∃ h s, ServerRun 7 h s ∧
      inputs h = [.acceptDone false 5, .acceptDone false 6,
        .readDone 0 true [] zeroed] ∧
      (∀ key session old, .store key session old ∈ outputs h →
        key = session.iID ∧ 1 ≤ session.iID ∧ session.iID ≤ 999999999) ∧
      ∃ session, s.network.accepting = [session] ∧ session.iID = s.network.iCurrentID := by
  obtain ⟨h, s, hrun, hin⟩ := exists_serverRun 7
    [.acceptDone false 5, .acceptDone false 6, .readDone 0 true [] zeroed] rfl
  exact ⟨h, s, hrun, hin, stored_under_own_id hrun⟩

/-! ## Where messages come from -/

/-- The message was received on one of the sessions accepted so far. -/
def Origin (es : List Event) (hmg : HMessage) : Prop :=
  ∃ session data junk, hmg = MyZServerNetwork.receivedMsg session data junk ∧
    session.object < accepts es ∧ Numbered session

/-- Where a message came from does not change later on. -/
theorem Origin.append {es : List Event} {hmg : HMessage} (h : Origin es hmg) (fs : List Event) :
    Origin (es ++ fs) hmg := by
  obtain ⟨session, data, junk, heq, hlt, hnum⟩ := h
  exact ⟨session, data, junk, heq, by rw [accepts_append]; omega, hnum⟩

/-- A message that a step queues was received on a session. -/
theorem origin_of_queued {es : List Event} {s t : Server} {e : Event} {o : List Effect}
    (hflow : FlowInv s) (hinv : TableInv es s) (h : Stepped s e t o) {hmg : HMessage}
    (hmem : hmg ∈ o.filterMap queuedMsg) : Origin es hmg := by
  rcases queued_of_stepped hflow h with
    ⟨object, _, data, junk, session, -, hreading, hqueued⟩ | ⟨-, hnone⟩
  · rw [hqueued, List.mem_singleton] at hmem
    obtain ⟨hobject, hlt, hnum⟩ := hinv.of_find? hreading
    exact ⟨session, data, junk, hmem, hobject ▸ hlt, hnum⟩
  · rw [hnone] at hmem
    cases hmem

/-- So was every message that waits. -/
theorem origin_of_waiting {rand : UInt32} {h : List (Event × List Effect)} {s : Server}
    (hrun : ServerRun rand h s) : ∀ hmg ∈ waiting s, Origin (inputs h) hmg := by
  refine hrun.invariant (fun h s => ∀ hmg ∈ waiting s, Origin (inputs h) hmg) ?_ ?_
  · intro hmg hmem
    rw [show waiting (Server.start rand) = [] from rfl] at hmem
    cases hmem
  · intro h u i v o hprefix hinv hstep hmg hmem
    have hflow := flowInv_of_run hprefix
    have hstepped := (stepped_of_step hstep).2
    rw [inputs_append]
    rcases mem_waiting_step hflow hstepped hmem with hold | hnew
    · exact (hinv hmg hold).append _
    · exact (origin_of_queued hflow (tableInv_of_run hprefix) hstepped hnew).append _

end ShootGame.Analysis
