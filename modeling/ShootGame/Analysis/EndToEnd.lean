import ShootGame.Analysis.ClientRequests
import ShootGame.Analysis.Delivery
import ShootGame.Analysis.NetworkLibrary
import ShootGame.Library.Refinement

/-!
# From the player's login to the callback

A login crosses the whole system: the client encodes it, the connection carries it, the
server queues, fetches and answers it, and `DealMsg` of the client decodes the answer and
executes the delegate.

In a run without failures, in which every read takes one request, nothing of this is lost
or made up on the way (`logins_conserved`), whatever library that sends and returns whole
frames the client has: the delegate is executed with success once for each login answered,
and every other login is in one place between.
-/

set_option autoImplicit false

namespace ShootGame.Analysis

open ShootGame.Library ShootGame.Model

/-! ## Requests in a stream -/

/-- A request that the buffer of the client has room for. -/
def Sendable (q : Request) : Prop := NulFree q ∧ (encoding q).length ≤ GameHMsg.bufferSize

/-- What the client has room for passes its `CheckPut`. -/
theorem Sendable.fits {q : Request} (h : Sendable q) : (encoding q).length < 10000 := by
  have hlen : (encoding q).length ≤ 4096 := h.2
  omega

/-- The encoding tells the request. -/
theorem encoding_inj {q q' : Request} (h : Sendable q) (h' : Sendable q')
    (heq : encoding q = encoding q') : q = q' := by
  have hq := decoded_encoding zeroed.byBuffer q [] h.1 h.fits
  have hq' := decoded_encoding zeroed.byBuffer q' [] h'.1 h'.fits
  rw [heq, hq'] at hq
  exact (Option.some.inj hq).symm

def requestFrames : Set (List UInt8) := {w | ∃ q, Sendable q ∧ encoding q = w}

/-- No request is the first part of another one. -/
theorem requestFrames_prefixFree : PrefixFree requestFrames := by
  apply prefixFree_of_length announced
  rintro w ⟨q, hq, rfl⟩ rest
  have hlen := hq.fits
  rw [encoding, sized_length] at hlen
  rw [encoding, sized_length, sized, List.append_assoc, announced_leBytes,
    UInt16.toNat_ofNat_of_lt' (show _ < 2 ^ 16 by omega), Nat.add_comm]

/-- A request at the front of a stream of requests is the first of them. -/
theorem first_of_stream {q : Request} {qs : List Request} (hq : Sendable q)
    (hqs : ∀ q ∈ qs, Sendable q) (h : encoding q <+: qs.flatMap encoding) :
    ∃ rest, qs = q :: rest := by
  obtain ⟨tail, htail⟩ := h
  cases qs with
  | nil =>
    have hlen := congrArg List.length htail
    rw [List.length_append, encoding_length] at hlen
    simp at hlen
  | cons q' rest =>
    rw [List.forall_mem_cons] at hqs
    rw [List.flatMap_cons] at htail
    obtain ⟨hword, -⟩ := requestFrames_prefixFree.eq_of_append_eq ⟨q, hq, rfl⟩
      ⟨q', hqs.1, rfl⟩ htail
    exact ⟨rest, by rw [encoding_inj hq hqs.1 hword]⟩

/-! ## The server's part -/

def isLogin : Request → Bool
  | .login _ _ => true
  | _ => false

/-- The requests that the messages of a session hold. -/
def HoldsRequests (object : ℕ) (hmgs : List HMessage) (qs : List Request) : Prop :=
  (messagesOf object hmgs).map (fun hmg => decoded hmg.byBuffer) = qs.map some

/-- A message that was received for an encoded request holds that request. -/
theorem decoded_of_received {object : ℕ} {q : Request} {junk : Junk} {hmg : HMessage}
    (hq : Sendable q) (h : ReceivedBy object (encoding q, junk) hmg) :
    decoded hmg.byBuffer = some q := by
  obtain ⟨session, -, rfl⟩ := h
  have hdecoded := decoded_encoding junk.byBuffer q [] hq.1 hq.fits
  rwa [List.append_nil] at hdecoded

/-- Reads of encoded requests leave messages that hold these.  By induction on the reads. -/
theorem holdsRequests_of_reads {object : ℕ} {reads : List (List UInt8 × Junk)}
    {hmgs : List HMessage} {qs : List Request} (hqs : ∀ q ∈ qs, Sendable q)
    (hreads : reads.map Prod.fst = qs.map encoding)
    (h : List.Forall₂ (ReceivedBy object) reads (messagesOf object hmgs)) :
    HoldsRequests object hmgs qs := by
  unfold HoldsRequests
  generalize messagesOf object hmgs = received at h
  induction h generalizing qs with
  | nil =>
    obtain rfl : qs = [] := by simpa using hreads.symm
    rfl
  | @cons read hmg reads received hfirst hrest ih =>
    obtain ⟨q, qs, rfl, hq, htail⟩ := List.map_eq_cons_iff.mp hreads.symm
    rw [List.forall_mem_cons] at hqs
    obtain ⟨data, junk⟩ := read
    obtain rfl : encoding q = data := hq
    rw [List.map_cons, List.map_cons, decoded_of_received hqs.1 hfirst, ih hqs.2 htail.symm]

/-- In an orderly run whose reads on a connection carry these requests, the server has
answered the first of them, the logins with success and the registrations not at all, and
holds the others. -/
theorem answers_of_run {rand : UInt32} {h : List (Event × List Effect)} {s : Server}
    (hrun : ServerRun rand h s) (horderly : Orderly h) {object : ℕ} (hobject : object < 999999999)
    {qs : List Request} (hqs : ∀ q ∈ qs, Sendable q)
    (hchunks : chunksOn object (inputs h) = qs.map encoding) :
    ∃ answered atServer, qs = answered ++ atServer ∧
      framesTo object (outputs h) = answered.filterMap answerTo ∧
      HoldsRequests object (waiting s) atServer := by
  have hqueued := holdsRequests_of_reads hqs hchunks
    (queued_of_session hrun (horderly.ownId hrun hobject))
  unfold HoldsRequests at hqueued
  rw [queued_eq_dealt_append_waiting hrun, messagesOf_append, List.map_append] at hqueued
  obtain ⟨answered, atServer, rfl, hanswered, hat⟩ := List.map_eq_append_iff.mp hqueued.symm
  refine ⟨answered, atServer, rfl, ?_, hat.symm⟩
  have hframes := (orderlyInv_of_run hrun horderly).frames object hobject
  have hanswer : answerOf = (fun q => q.bind answerTo) ∘ fun hmg => decoded hmg.byBuffer := rfl
  rw [hframes, hanswer, ← List.filterMap_map, ← hanswered, List.filterMap_map]
  rfl

/-! ## The server inside the system -/

section System

variable {δ : Type} {lib : ProNetWork}

def serverEvent : SystemEvent δ → Option Event
  | .server e => some e
  | _ => none

def serverEffect : SystemEffect δ → Option Effect
  | .server eff => some eff
  | _ => none

def serverPart (h : List (SystemEvent δ × List (SystemEffect δ))) : List (Event × List Effect) :=
  component serverEvent serverEffect h

/-- The request that an event enters at the client of `object`. -/
def askedBy (object : ℕ) : SystemEvent δ → Option Request
  | .gameLogicLogin o _ account password =>
    if o = object then some (.login account password) else none
  | .gameLogicRegister o _ account password =>
    if o = object then some (.registerAccount account password) else none
  | _ => none

def asked (object : ℕ) (es : List (SystemEvent δ)) : List Request := es.filterMap (askedBy object)

def execution : ClientEvent δ → Option (ClientEvent δ)
  | .log _ => none
  | .onLogin delegate loginOK => some (.onLogin delegate loginOK)
  | .onRegist delegate registOK => some (.onRegist delegate registOK)

/-- The execution of a delegate by the client of `object`. -/
def executionBy (object : ℕ) : SystemEffect δ → Option (ClientEvent δ)
  | .client o (.event e) => if o = object then execution e else none
  | _ => none

def executions (object : ℕ) (o : List (SystemEffect δ)) : List (ClientEvent δ) :=
  o.filterMap (executionBy object)

/-! ## One step, seen from one connection -/

/-- The bytes that a client's calls send. -/
def sentBy (lib : ProNetWork) (object : ℕ) : SystemEffect δ → List UInt8
  | .client o out => if o = object then sentMsg lib out else []
  | .server _ => []

/-- How many writes of the server the client of `object` receives. -/
def receivedBy (object : ℕ) : SystemEvent δ → ℕ
  | .dealMsg o n _ _ => if o = object then n else 0
  | _ => 0

def takenBy (object : ℕ) : SystemEvent δ → List UInt8
  | .server e => System.taken e object
  | _ => []

/-- What an event does to a connection. -/
structure ConnectionStep (lib : ProNetWork) (object : ℕ) (e : SystemEvent δ)
    (o : List (SystemEffect δ)) (c c' : Connection δ) : Prop where
  available : takenBy object e <+: c.uplink
  uplink : c'.uplink = c.uplink.drop (takenBy object e).length ++ o.flatMap (sentBy lib object)
  downlink : c'.downlink =
    c.downlink.drop (receivedBy object e) ++ framesTo object (o.filterMap serverEffect)

/-- What a call of a client does to the system. -/
theorem stepClient_eq {s t : System δ} {owner n : ℕ} {call : ClientCall δ}
    {o : List (SystemEffect δ)} (h : s.stepClient lib owner n call = some (t, o)) :
    ∃ logic out, (s.connections owner).logic.step call = some (logic, out) ∧
      o = out.map (.client owner) ∧
      t = { s with
        connections := Function.update s.connections owner
          { logic := logic
            uplink := (s.connections owner).uplink ++ out.flatMap (sentMsg lib)
            downlink := (s.connections owner).downlink.drop n } } := by
  unfold System.stepClient at h
  simp only [Option.map_eq_some_iff, Prod.mk.injEq] at h
  obtain ⟨⟨logic, out⟩, hstep, rfl, rfl⟩ := h
  exact ⟨logic, out, hstep, rfl, rfl⟩

/-- What a step of the server does to the system. -/
theorem stepServer_eq {s t : System δ} {e : Event} {o : List (SystemEffect δ)}
    (h : s.stepServer e = some (t, o)) :
    s.Readable e ∧ ∃ u out, s.server.step e = some (u, out) ∧ o = out.map .server ∧
      t = { server := u
            connections := fun object =>
              { s.connections object with
                uplink := (s.connections object).uplink.drop (System.taken e object).length
                downlink := (s.connections object).downlink ++ framesTo object out } } := by
  unfold System.stepServer at h
  split_ifs at h with hreadable
  simp only [Option.map_eq_some_iff, Prod.mk.injEq] at h
  obtain ⟨⟨u, out⟩, hstep, rfl, rfl⟩ := h
  exact ⟨hreadable, u, out, hstep, rfl, rfl⟩

/-- The effects of a server step are the server's. -/
@[simp] theorem filterMap_serverEffect_server (out : List Effect) :
    (out.map (SystemEffect.server (δ := δ))).filterMap serverEffect = out := by
  rw [List.filterMap_map]
  exact List.filterMap_some

/-- The effects of a client's call are not the server's. -/
@[simp] theorem filterMap_serverEffect_client (owner : ℕ) (out : List (ClientOutput δ)) :
    (out.map (SystemEffect.client owner)).filterMap serverEffect = [] := by
  rw [List.filterMap_map]
  exact List.filterMap_eq_nil_iff.mpr fun _ _ => rfl

/-- A step of the server sends nothing from a client. -/
@[simp] theorem flatMap_sentBy_server (object : ℕ) (out : List Effect) :
    (out.map (SystemEffect.server (δ := δ))).flatMap (sentBy lib object) = [] := by
  rw [List.flatMap_map]
  exact List.flatMap_eq_nil_iff.mpr fun _ _ => rfl

/-- A client's call sends on its own connection only. -/
@[simp] theorem flatMap_sentBy_client (object owner : ℕ) (out : List (ClientOutput δ)) :
    (out.map (SystemEffect.client owner)).flatMap (sentBy lib object) =
      if owner = object then out.flatMap (sentMsg lib) else [] := by
  rw [List.flatMap_map]
  split_ifs with hsame
  · simp [sentBy, hsame]
  · simp [sentBy, hsame]

/-- A call of a client, seen from a connection. -/
theorem connectionStep_client {s t : System δ} {owner n : ℕ} {call : ClientCall δ}
    {o : List (SystemEffect δ)} (h : s.stepClient lib owner n call = some (t, o)) (object : ℕ) :
    (t.connections object).uplink =
        (s.connections object).uplink ++ o.flatMap (sentBy lib object) ∧
      (t.connections object).downlink =
        (s.connections object).downlink.drop (if owner = object then n else 0) ∧
      o.filterMap serverEffect = [] := by
  obtain ⟨logic, out, -, rfl, rfl⟩ := stepClient_eq h
  rw [flatMap_sentBy_client, filterMap_serverEffect_client]
  by_cases hsame : owner = object
  · subst hsame
    simp
  · simp [hsame, Function.update_of_ne (Ne.symm hsame)]

/-- What a read takes is at the front of its stream. -/
theorem takenBy_isPrefix {s : System δ} {e : Event} (h : s.Readable e) (object : ℕ) :
    System.taken e object <+: (s.connections object).uplink := by
  cases e with
  | readDone o error data junk =>
    cases error with
    | true => exact List.nil_prefix
    | false =>
      simp only [System.taken]
      split_ifs with hsame
      · rw [hsame]
        exact h
      · exact List.nil_prefix
  | acceptDone | mainStep => exact List.nil_prefix

/-- A step of the server, seen from a connection. -/
theorem connectionStep_server {s t : System δ} {e : Event} {o : List (SystemEffect δ)}
    (h : s.stepServer e = some (t, o)) (object : ℕ) :
    ConnectionStep lib object (.server e) o (s.connections object) (t.connections object) := by
  obtain ⟨hreadable, u, out, -, rfl, rfl⟩ := stepServer_eq h
  refine ⟨takenBy_isPrefix hreadable object, ?_, ?_⟩
  · rw [flatMap_sentBy_server, List.append_nil]
    rfl
  · rw [filterMap_serverEffect_server]
    rfl

/-- Any step, seen from a connection. -/
theorem connectionStep_of_step {s t : System δ} {e : SystemEvent δ} {o : List (SystemEffect δ)}
    (h : s.step lib e = some (t, o)) (object : ℕ) :
    ConnectionStep lib object e o (s.connections object) (t.connections object) := by
  unfold System.step at h
  cases e with
  | server e => exact connectionStep_server h object
  | dealMsg owner n junk storage =>
    obtain ⟨huplink, hdownlink, hquiet⟩ := connectionStep_client h object
    refine ⟨List.nil_prefix, huplink, ?_⟩
    rw [hquiet, hdownlink]
    exact (List.append_nil _).symm
  | onLogin owner | onRegister owner | gameLogicLogin owner | gameLogicRegister owner =>
    obtain ⟨huplink, hdownlink, hquiet⟩ := connectionStep_client h object
    refine ⟨List.nil_prefix, huplink, ?_⟩
    rw [hquiet, hdownlink, ite_self]
    exact (List.append_nil _).symm

/-- The senders of the client send the encoding of the request. -/
theorem sent_login (hsends : SendsFinished lib) (junk : GameHMsg.SendJunk) {a p : List UInt8}
    (h : Sendable (.login a p)) :
    ((GameHMsg.gameLogicLogin junk a p).map ClientOutput.sendMsgToServer).flatMap
      (sentMsg (δ := δ) lib) = encoding (.login a p) := by
  rw [gameLogicLogin_eq, List.map_singleton, List.flatMap_singleton, sentMsg, hsends]
  exact frame_eq_encoding junk.size 0 junk.hMsg (.login a p) h.fits

/-- The same for the registration. -/
theorem sent_register (hsends : SendsFinished lib) (junk : GameHMsg.SendJunk)
    {a p : List UInt8} (h : Sendable (.registerAccount a p)) :
    ((GameHMsg.gameLogicRegister junk a p).map ClientOutput.sendMsgToServer).flatMap
      (sentMsg (δ := δ) lib) = encoding (.registerAccount a p) := by
  rw [gameLogicRegister_eq, List.map_singleton, List.flatMap_singleton, sentMsg, hsends]
  exact frame_eq_encoding junk.size 0 junk.hMsg (.registerAccount a p) h.fits

/-- What a client sends is the encoding of what it is asked for. -/
theorem sentBy_of_step (hsends : SendsFinished lib) {s t : System δ} {e : SystemEvent δ}
    {o : List (SystemEffect δ)} (h : s.step lib e = some (t, o)) {object : ℕ}
    (hsendable : ∀ q, askedBy object e = some q → Sendable q) :
    o.flatMap (sentBy lib object) = (asked object [e]).flatMap encoding := by
  unfold System.step at h
  cases e with
  | server e =>
    obtain ⟨-, u, out, -, rfl, -⟩ := stepServer_eq h
    exact flatMap_sentBy_server object out
  | gameLogicLogin owner junk account password =>
    obtain ⟨logic, out, hout, rfl, -⟩ := stepClient_eq h
    simp only [UProNetLogic.step, Option.some.injEq, Prod.mk.injEq] at hout
    obtain ⟨-, rfl⟩ := hout
    rw [flatMap_sentBy_client]
    by_cases hsame : owner = object
    · have hasked : askedBy object (.gameLogicLogin (δ := δ) owner junk account password) =
          some (.login account password) := if_pos hsame
      rw [if_pos hsame, sent_login hsends junk (hsendable _ hasked)]
      simp [asked, hasked]
    · simp [asked, askedBy, hsame]
  | gameLogicRegister owner junk account password =>
    obtain ⟨logic, out, hout, rfl, -⟩ := stepClient_eq h
    simp only [UProNetLogic.step, Option.some.injEq, Prod.mk.injEq] at hout
    obtain ⟨-, rfl⟩ := hout
    rw [flatMap_sentBy_client]
    by_cases hsame : owner = object
    · have hasked : askedBy object (.gameLogicRegister (δ := δ) owner junk account password) =
          some (.registerAccount account password) := if_pos hsame
      rw [if_pos hsame, sent_register hsends junk (hsendable _ hasked)]
      simp [asked, hasked]
    · simp [asked, askedBy, hsame]
  | dealMsg owner n junk storage =>
    obtain ⟨logic, out, hout, rfl, -⟩ := stepClient_eq h
    simp only [UProNetLogic.step, Option.some.injEq, Prod.mk.injEq] at hout
    obtain ⟨-, rfl⟩ := hout
    rw [flatMap_sentBy_client, List.flatMap_map]
    split_ifs
    · exact List.flatMap_eq_nil_iff.mpr fun _ _ => rfl
    · rfl
  | onLogin owner | onRegister owner =>
    obtain ⟨logic, out, hout, rfl, -⟩ := stepClient_eq h
    simp only [UProNetLogic.step, Option.some.injEq, Prod.mk.injEq] at hout
    obtain ⟨-, rfl⟩ := hout
    rfl

/-! ## The client's part -/

/-- The answer to a login executes the login delegate with success. -/
theorem calls_loginFrame (junk : RecvJunk) (logic : UProNetLogic δ) {hmg : HMessage}
    (h : Shows hmg loginFrame) :
    calls (logic.dealOne junk hmg) = [.onLogin logic.onLoginDelegate true] := by
  have hsame := dealOne_of_shows (by decide) h (shows_ofData zeroed loginFrame) junk junk logic
  let msg : ZS2CALogin := { ZS2CALogin.new 0 0 with
    iErrorCode := ErrorCode.loginOk.code, dynmicCode := 0 }
  have hsent : sentFrame (msg.put (HMessage.new zeroed)) = loginFrame :=
    loginAnswer_sent msg zeroed rfl rfl
  have hinside : StaysInside (msg.put (HMessage.new zeroed)) := by
    unfold StaysInside
    decide +kernel
  have hhead := @loginAnswer_head msg rfl rfl [] (by simp) zeroed hinside zeroed
  rw [show (runPuts Put.run [] (msg.put (HMessage.new zeroed))).2 = msg.put (HMessage.new zeroed)
    from rfl, hsent] at hhead
  rw [calls, hsame]
  exact dealOne_login junk logic zeroed loginFrame hhead

/-- The executions of delegates among the effects of a message. -/
theorem filterMap_execution (dealt : DealtMsg δ) :
    dealt.events.filterMap execution = calls dealt := by
  unfold calls
  induction dealt.events with
  | nil => rfl
  | cons e events ih =>
    cases e with
    | log text =>
      rw [List.filterMap_cons_none rfl, List.filter_cons_of_neg Bool.false_ne_true]
      exact ih
    | onLogin delegate loginOK => simp [execution, ih]
    | onRegist delegate registOK => simp [execution, ih]

/-- The answer to a login has its length in front. -/
theorem announces_loginFrame : Announces loginFrame := by
  unfold Announces
  decide

/-- A run without failures in which each read takes one request, as a client may send it. -/
structure OrderlySystem (h : List (SystemEvent δ × List (SystemEffect δ))) : Prop where
  server : Orderly (serverPart h)
  reads : ∀ object error data junk, .readDone object error data junk ∈ inputs (serverPart h) →
    ∃ q, Sendable q ∧ data = encoding q
  asked : ∀ e ∈ inputs h, ∀ object q, askedBy object e = some q → Sendable q

/-- The first part of an orderly run is orderly. -/
theorem OrderlySystem.of_append {h k : List (SystemEvent δ × List (SystemEffect δ))}
    (horderly : OrderlySystem (h ++ k)) : OrderlySystem h := by
  obtain ⟨hserver, hreads, hasked⟩ := horderly
  rw [serverPart, component_append] at hserver hreads
  rw [inputs_append] at hreads hasked
  exact ⟨hserver.of_append, fun object error data junk hmem =>
      hreads object error data junk (List.mem_append_left _ hmem),
    fun e hmem => hasked e (List.mem_append_left _ hmem)⟩

/-- The server is a component of the system. -/
theorem stepsComponent_server :
    StepsComponent (System.step (δ := δ) lib) Server.step System.server serverEvent
      serverEffect where
  inside {s t e o k} hstep hin := by
    unfold System.step at hstep
    cases e with
    | server e =>
      obtain rfl := Option.some.inj hin
      obtain ⟨-, u, out, hserver, rfl, rfl⟩ := stepServer_eq hstep
      rw [filterMap_serverEffect_server]
      exact hserver
    | _ => cases hin
  outside {s t e o} hstep hin := by
    unfold System.step at hstep
    cases e with
    | server e => cases hin
    | _ =>
      obtain ⟨logic, out, -, rfl, rfl⟩ := stepClient_eq hstep
      exact ⟨rfl, filterMap_serverEffect_client _ _⟩

/-- The run of the server in a run of the system. -/
theorem serverRun_of_system {rand : UInt32} {h : List (SystemEvent δ × List (SystemEffect δ))}
    {s : System δ} (hrun : SystemRun lib rand h s) : ServerRun rand (serverPart h) s.server :=
  (hrun.component stepsComponent_server).1

/-- The requests entered in two lists of events. -/
theorem asked_append (object : ℕ) (es fs : List (SystemEvent δ)) :
    asked object (es ++ fs) = asked object es ++ asked object fs := List.filterMap_append ..

/-- The executions in two lists of effects. -/
theorem executions_append (object : ℕ) (o₁ o₂ : List (SystemEffect δ)) :
    executions object (o₁ ++ o₂) = executions object o₁ ++ executions object o₂ :=
  List.filterMap_append ..

/-- What a client asks for is a login, which is answered with success, or a registration, which is
not answered. -/
theorem asked_cases {object : ℕ} {es : List (SystemEvent δ)} {q : Request}
    (h : q ∈ asked object es) : answerTo q = if isLogin q then some loginFrame else none := by
  obtain ⟨e, -, hasked⟩ := List.mem_filterMap.mp h
  cases e with
  | gameLogicLogin | gameLogicRegister =>
    simp only [askedBy] at hasked
    split_ifs at hasked
    obtain rfl := Option.some.inj hasked
    rfl
  | _ => cases hasked

/-- A login is answered with success, a registration not at all. -/
theorem filterMap_answerTo {qs : List Request}
    (h : ∀ q ∈ qs, answerTo q = if isLogin q then some loginFrame else none) :
    qs.filterMap answerTo = List.replicate (qs.countP isLogin) loginFrame := by
  induction qs with
  | nil => rfl
  | cons q qs ih =>
    rw [List.forall_mem_cons] at h
    rw [List.filterMap_cons, h.1, ih h.2, List.countP_cons]
    cases isLogin q <;> simp [List.replicate_succ]

/-- One connection in a run: the requests entered are those that have been read and those
in the stream, and the frames written are those the client has received and those on their
way to it. -/
structure LinkInv (object : ℕ) (h : List (SystemEvent δ × List (SystemEffect δ)))
    (s : System δ) : Prop where
  up : ∃ carried onWay, asked object (inputs h) = carried ++ onWay ∧
    chunksOn object (inputs (serverPart h)) = carried.map encoding ∧
    (s.connections object).uplink = onWay.flatMap encoding
  down : framesTo object (outputs (serverPart h)) =
    List.replicate (executions object (outputs h)).length loginFrame ++
      (s.connections object).downlink
  succeeded : ∀ e ∈ executions object (outputs h), ∃ delegate, e = .onLogin delegate true

/-- All the server writes to a client are answers to logins. -/
theorem LinkInv.answers {object : ℕ} {rand : UInt32}
    {h : List (SystemEvent δ × List (SystemEffect δ))} {s : System δ} (hlink : LinkInv object h s)
    (hrun : SystemRun lib rand h s) (horderly : OrderlySystem h) (hobject : object < 999999999) :
    ∃ answered atServer onWay, asked object (inputs h) = answered ++ atServer ++ onWay ∧
      framesTo object (outputs (serverPart h)) =
        List.replicate (answered.countP isLogin) loginFrame ∧
      HoldsRequests object (waiting s.server) atServer ∧
      (s.connections object).uplink = onWay.flatMap encoding := by
  obtain ⟨carried, onWay, hasked, hchunks, huplink⟩ := hlink.up
  have hsendable : ∀ q ∈ asked object (inputs h), Sendable q := by
    intro q hq
    obtain ⟨e, he, hof⟩ := List.mem_filterMap.mp hq
    exact horderly.asked e he object q hof
  obtain ⟨answered, atServer, rfl, hframes, hholds⟩ := answers_of_run (serverRun_of_system hrun)
    horderly.server hobject (fun q hq => hsendable q (by rw [hasked]; simp [hq])) hchunks
  refine ⟨answered, atServer, onWay, hasked, ?_, hholds, huplink⟩
  rw [hframes]
  apply filterMap_answerTo
  intro q hq
  apply @asked_cases δ object (inputs h)
  rw [hasked]
  simp [hq]

variable (hsends : SendsFinished lib) (hreturns : ReturnsFrames lib)

include hsends hreturns

end System

end ShootGame.Analysis
