import ShootGame.Analysis.LiveTable
import ShootGame.Model.PublicNetwork

/-!
# Players and snapshots over a run

Nothing fills the table of players, so each player stands for session `0`, which no id
ever is.  A null entry comes into the session table only with a send that ends the
process, so a copy taken while it runs has none, and `CheckDynmicCode` answers for the
copy that was taken last.
-/

set_option autoImplicit false

namespace ShootGame.Analysis

open ShootGame.Library ShootGame.Model

/-! ## Tables of sessions -/

/-- A table without a null entry, in which every session stands under its own id. -/
def SessionsListed (table : Std.TreeMap Int (Option SessionClient)) : Prop :=
  ∀ (key : Int) (entry : Option SessionClient), table[key]? = some entry →
    ∃ session, entry = some session ∧ session.iID = key ∧ 1 ≤ key

/-- The search over the entries of such a table, one after the other. -/
theorem searchClient_of_sessions (id dc : Int) {entries : List (Int × Option SessionClient)}
    (hentries : ∀ e ∈ entries, ∃ session, e.2 = some session ∧ session.iID = e.1) :
    ∃ ok, MsgLogic.searchClient id dc entries = some ok ∧
      (ok = true ↔ ∃ session, (id, some session) ∈ entries ∧
        UInt32.ofInt dc = session.dynmicCode.read) := by
  induction entries with
  | nil => exact ⟨false, rfl, by simp⟩
  | cons e entries ih =>
    rw [List.forall_mem_cons] at hentries
    obtain ⟨⟨session, hsession, hid⟩, hothers⟩ := hentries
    obtain ⟨key, entry⟩ := e
    obtain rfl : entry = some session := hsession
    obtain rfl : session.iID = key := hid
    obtain ⟨ok, hok, hiff⟩ := ih hothers
    unfold MsgLogic.searchClient
    split_ifs with hmatch
    · obtain ⟨rfl, hcode⟩ := hmatch
      exact ⟨true, rfl, iff_of_true rfl ⟨session, List.mem_cons_self, hcode⟩⟩
    · refine ⟨ok, hok, hiff.trans ⟨?_, ?_⟩⟩
      · rintro ⟨other, hmem, hcode⟩
        exact ⟨other, List.mem_cons_of_mem _ hmem, hcode⟩
      · rintro ⟨other, hmem, hcode⟩
        rcases List.mem_cons.mp hmem with heq | htail
        · rw [Prod.mk.injEq, Option.some.injEq] at heq
          obtain ⟨rfl, rfl⟩ := heq
          exact absurd ⟨rfl, hcode⟩ hmatch
        · exact ⟨other, htail, hcode⟩

/-- The verdict on a table: some session has the id as its key and the code as its code. -/
def Knows (table : Std.TreeMap Int (Option SessionClient)) (id dc : Int) : Prop :=
  ∃ session, table[id]? = some (some session) ∧ UInt32.ofInt dc = session.dynmicCode.read

/-- A check over a table of sessions ends, and finds the sessions that it should. -/
theorem checkDynmicCode_of_sessions {logic : MsgLogic} (h : SessionsListed logic.mapAllClient)
    (id dc : Int) :
    ∃ ok, logic.checkDynmicCode id dc = some ok ∧ (ok = true ↔ Knows logic.mapAllClient id dc) := by
  have hentries : ∀ e ∈ logic.mapAllClient.toList,
      ∃ session, e.2 = some session ∧ session.iID = e.1 := by
    intro e he
    obtain ⟨key, entry⟩ := e
    rw [Std.TreeMap.mem_toList_iff_getElem?_eq_some] at he
    obtain ⟨session, hsession, hid, -⟩ := h key entry he
    exact ⟨session, hsession, hid⟩
  obtain ⟨ok, hok, hiff⟩ := searchClient_of_sessions id dc hentries
  refine ⟨ok, hok, hiff.trans ?_⟩
  unfold Knows
  simp only [Std.TreeMap.mem_toList_iff_getElem?_eq_some]

/-! ## What a call does -/

/-- The calls of a process that is still running. -/
inductive PubliclyCalled (s : PublicNetwork) :
    PublicCall → PublicNetwork → List PublicEffect → Prop
  | network (call : NetworkCall) (layer : NetworkLayer) (o : List Effect)
      (hcall : Called s.layer call layer o) :
      PubliclyCalled s (.network call) { s with layer := layer } (o.map .network)
  | player (iPlayerID : Int) (hmg : HMessage) (outcome : WriteOutcome) (layer : NetworkLayer)
      (o : List Effect)
      (hcall : Called s.layer
        (.sendMsgBySessionID (s.mapAllPlayer[iPlayerID]?.getD 0) hmg outcome) layer o) :
      PubliclyCalled s (.sendMsgByPlayerID iPlayerID hmg outcome)
        { s with
          layer := layer
          mapAllPlayer :=
            s.mapAllPlayer.insert iPlayerID (s.mapAllPlayer[iPlayerID]?.getD 0) }
        (o.map .network)
  | copy :
      PubliclyCalled s .getmapAllClient
        { s with logic := { s.logic with mapAllClient := s.layer.network.mapAllClientSock } }
        [.copied s.layer.network.mapAllClientSock]
  | check (id dc : Int) (ok : Bool) (hok : s.logic.checkDynmicCode id dc = some ok) :
      PubliclyCalled s (.checkDynmicCode id dc) s [.checked ok]
  | nullEntry (id dc : Int) (hnull : s.logic.checkDynmicCode id dc = none) :
      PubliclyCalled s (.checkDynmicCode id dc)
        { s with layer := { s.layer with halted := some .nullSession } } []

/-- A step is one of the calls, made while the process runs. -/
theorem publiclyCalled_of_step {s t : PublicNetwork} {call : PublicCall}
    {o : List PublicEffect} (h : s.step call = some (t, o)) :
    s.layer.halted = none ∧ PubliclyCalled s call t o := by
  unfold PublicNetwork.step at h
  split_ifs at h with hhalted
  refine ⟨by simpa using hhalted, ?_⟩
  cases call with
  | network call =>
    simp only [Option.map_eq_some_iff, Prod.mk.injEq] at h
    obtain ⟨⟨layer, o'⟩, hstep, rfl, rfl⟩ := h
    exact .network call layer o' (called_of_step hstep).2
  | sendMsgByPlayerID iPlayerID hmg outcome =>
    simp only [PublicNetwork.sendMsgByPlayerID, Option.map_eq_some_iff, Prod.mk.injEq] at h
    obtain ⟨⟨layer, o'⟩, hstep, rfl, rfl⟩ := h
    exact .player iPlayerID hmg outcome layer o' (called_of_step hstep).2
  | getmapAllClient =>
    simp only [Option.some.injEq, Prod.mk.injEq] at h
    obtain ⟨rfl, rfl⟩ := h
    exact .copy
  | checkDynmicCode id dc =>
    cases hcheck : s.logic.checkDynmicCode id dc with
    | none =>
      simp only [hcheck, Option.some.injEq, Prod.mk.injEq] at h
      obtain ⟨rfl, rfl⟩ := h
      exact .nullEntry id dc hcheck
    | some ok =>
      simp only [hcheck, Option.some.injEq, Prod.mk.injEq] at h
      obtain ⟨rfl, rfl⟩ := h
      exact .check id dc ok hcheck

/-! ## Over a run -/

def copiedTable : PublicEffect → Option (Std.TreeMap Int (Option SessionClient))
  | .copied mapClient => some mapClient
  | _ => none

/-- The copy that was taken last. -/
def lastCopy (effects : List PublicEffect) : Std.TreeMap Int (Option SessionClient) :=
  (effects.filterMap copiedTable).getLast?.getD ∅

/-- What the network does is no copy. -/
theorem lastCopy_append_network (effects : List PublicEffect) (o : List Effect) :
    lastCopy (effects ++ o.map .network) = lastCopy effects := by
  have hnone : (o.map PublicEffect.network).filterMap copiedTable = [] := by
    rw [List.filterMap_map, List.filterMap_eq_nil_iff]
    exact fun _ _ => rfl
  unfold lastCopy
  rw [List.filterMap_append, hnone, List.append_nil]

/-- What holds in every state that is reached. -/
structure PublicInv (effects : List PublicEffect) (s : PublicNetwork) : Prop where
  net : ∃ n, NetInv n s.layer.network
  players : ∀ iPlayerID : Int, s.mapAllPlayer[iPlayerID]?.getD 0 = 0
  noNull : s.layer.halted = none → ∀ key : Int, s.layer.network.mapAllClientSock[key]? ≠ some none
  copied : s.logic.mapAllClient = lastCopy effects
  sessions : SessionsListed s.logic.mapAllClient

/-- The calls keep the table, for some number of accepts. -/
theorem exists_netInv_call {s t : NetworkLayer} {call : NetworkCall} {o : List Effect}
    (hinv : ∃ n, NetInv n s.network) (h : Called s call t o) : ∃ n, NetInv n t.network := by
  obtain ⟨n, hn⟩ := hinv
  have hcalls : acceptCalls (List.replicate n (.acceptDone false 0)) = n := by
    unfold acceptCalls
    rw [List.countP_replicate]
    rfl
  exact ⟨_, netInv_call (hcalls.symm ▸ hn) h⟩

/-- A null entry comes in by a send that ends the process. -/
theorem noNull_call {s t : NetworkLayer} {call : NetworkCall} {o : List Effect}
    (hnull : ∀ key : Int, s.network.mapAllClientSock[key]? ≠ some none)
    (h : Called s call t o) (hafter : t.halted = none) (key : Int) :
    t.network.mapAllClientSock[key]? ≠ some none := by
  cases h with
  | accept error junk session rest haccepting =>
    rw [Std.TreeMap.getElem?_insert]
    split_ifs
    · simp
    · exact hnull key
  | read object error data junk session hreading =>
    rw [getElem?_tableAfterRead]
    split_ifs
    · simp
    · exact hnull key
  | missing iSessionID hmg outcome hentry => cases hafter
  | null iSessionID hmg outcome hentry => exact hnull key
  | fetch | written | threw => exact hnull key

/-- A table that the running process holds may be copied. -/
theorem sessionsListed_of_inv {net : MyZServerNetwork} (hinv : ∃ n, NetInv n net)
    (hnull : ∀ key : Int, net.mapAllClientSock[key]? ≠ some none) :
    SessionsListed net.mapAllClientSock := by
  obtain ⟨n, hn⟩ := hinv
  intro key entry hentry
  cases entry with
  | none => exact absurd hentry (hnull key)
  | some session =>
    obtain ⟨-, hnum, hkey⟩ := hn.entries key session hentry
    refine ⟨session, rfl, hkey, ?_⟩
    rw [← hkey, hnum.iID]
    exact (sessionId_mem_range session.object).1

/-- It holds at the start, where nothing has been copied. -/
theorem publicInv_start (rand : UInt32) : PublicInv [] (PublicNetwork.start rand) where
  net := ⟨_, netInv_of_run (show NetworkRun rand [] _ from .start)⟩
  players iPlayerID := by simp [PublicNetwork.start]
  noNull _ key := by
    simp [PublicNetwork.start, NetworkLayer.start, MyZServerNetwork.acceptConnect,
      MyZServerNetwork.empty]
  copied := rfl
  sessions key entry hentry := by simp [PublicNetwork.start, MsgLogic.empty] at hentry

/-- Every call keeps what holds. -/
theorem publicInv_step {effects : List PublicEffect} {s t : PublicNetwork} {call : PublicCall}
    {o : List PublicEffect} (hinv : PublicInv effects s) (hrunning : s.layer.halted = none)
    (h : PubliclyCalled s call t o) : PublicInv (effects ++ o) t := by
  cases h with
  | network call layer o hcall =>
    refine ⟨exists_netInv_call hinv.net hcall, hinv.players,
      noNull_call (hinv.noNull hrunning) hcall, ?_, hinv.sessions⟩
    rw [lastCopy_append_network]
    exact hinv.copied
  | player iPlayerID hmg outcome layer o hcall =>
    refine ⟨exists_netInv_call hinv.net hcall, ?_,
      noNull_call (hinv.noNull hrunning) hcall, ?_, hinv.sessions⟩
    · intro other
      rw [hinv.players, Std.TreeMap.getElem?_insert]
      split_ifs
      · rfl
      · exact hinv.players other
    · rw [lastCopy_append_network]
      exact hinv.copied
  | copy =>
    refine ⟨hinv.net, hinv.players, hinv.noNull, ?_,
      sessionsListed_of_inv hinv.net (hinv.noNull hrunning)⟩
    simp [lastCopy, copiedTable]
  | check id dc ok hok =>
    refine ⟨hinv.net, hinv.players, hinv.noNull, ?_, hinv.sessions⟩
    simpa [lastCopy, copiedTable] using hinv.copied
  | nullEntry id dc hnull =>
    refine ⟨hinv.net, hinv.players, ?_, ?_, hinv.sessions⟩
    · intro hhalted
      cases hhalted
    · rw [List.append_nil]
      exact hinv.copied

variable {rand : UInt32} {h : List (PublicCall × List PublicEffect)} {s : PublicNetwork}

/-- It holds throughout a run. -/
theorem publicInv_of_run (hrun : PublicRun rand h s) : PublicInv (outputs h) s := by
  apply hrun.invariant fun h s => PublicInv (outputs h) s
  · exact publicInv_start rand
  · intro h u call v o _ hinv hstep
    obtain ⟨hrunning, hcall⟩ := publiclyCalled_of_step hstep
    rw [outputs_append, outputs_cons, outputs_nil, List.append_nil]
    exact publicInv_step hinv hrunning hcall

/-! ## The two results -/

/-- Session `0` is not listed while the process runs. -/
theorem send_to_zero {s t : NetworkLayer} {hmg : HMessage} {outcome : WriteOutcome}
    {o : List Effect} (hinv : SessionsListed s.network.mapAllClientSock)
    (h : Called s (.sendMsgBySessionID 0 hmg outcome) t o) :
    o = [.lookup 0 none (sentFrame hmg)] ∧ t.halted = some .nullSession := by
  have habsent : ∀ session, s.network.mapAllClientSock[(0 : Int)]? ≠ some (some session) := by
    intro session hentry
    obtain ⟨_, -, -, hpos⟩ := hinv 0 (some session) hentry
    omega
  cases h with
  | missing iSessionID hmg outcome hentry => exact ⟨rfl, rfl⟩
  | null iSessionID hmg outcome hentry => exact ⟨rfl, rfl⟩
  | written iSessionID hmg n session hentry => exact absurd hentry (habsent session)
  | threw iSessionID hmg session hentry => exact absurd hentry (habsent session)

/-- No call is enabled once the process has halted. -/
theorem eq_nil_of_halted {t : PublicNetwork} (hrun : Runs PublicNetwork.step s h t)
    (hhalted : s.layer.halted ≠ none) : h = [] ∧ t = s := by
  cases h with
  | nil => exact ⟨rfl, hrun.eq_of_nil⟩
  | cons x h =>
    obtain ⟨u, hstep, -⟩ := hrun.first
    exact absurd (publiclyCalled_of_step hstep).1 hhalted

/-- Every player stands for session `0`, which is never listed, so a send to a player looks
that up, writes nothing and is the last thing the process does. -/
theorem player_send_ends (hrun : PublicRun rand h s)
    {h₁ h₂ : List (PublicCall × List PublicEffect)} {iPlayerID : Int} {hmg : HMessage}
    {outcome : WriteOutcome} {o : List PublicEffect}
    (hsplit : h = h₁ ++ (.sendMsgByPlayerID iPlayerID hmg outcome, o) :: h₂) :
    o = [.network (.lookup 0 none (sentFrame hmg))] ∧ h₂ = [] ∧
      s.layer.halted = some .nullSession := by
  subst hsplit
  obtain ⟨u, v, hu, hstep, hv⟩ := hrun.step_of_split
  have hinv := publicInv_of_run hu
  obtain ⟨hrunning, hcall⟩ := publiclyCalled_of_step hstep
  cases hcall with
  | player iPlayerID hmg outcome layer o hcall =>
    rw [hinv.players] at hcall hv
    obtain ⟨rfl, hhalted⟩ :=
      send_to_zero (sessionsListed_of_inv hinv.net (hinv.noNull hrunning)) hcall
    obtain ⟨rfl, rfl⟩ := eq_nil_of_halted hv (by simp [hhalted])
    exact ⟨rfl, rfl, hhalted⟩

/-- Every check of a dynamic code is answered, and positively exactly if the copy of the
session table that was taken last has the session with that code. -/
theorem checks_answer_last_copy (hrun : PublicRun rand h s)
    {h₁ h₂ : List (PublicCall × List PublicEffect)} {id dc : Int} {o : List PublicEffect}
    (hsplit : h = h₁ ++ (.checkDynmicCode id dc, o) :: h₂) :
    ∃ ok, o = [.checked ok] ∧ (ok = true ↔ Knows (lastCopy (outputs h₁)) id dc) := by
  subst hsplit
  obtain ⟨u, v, hu, hstep, -⟩ := hrun.step_of_split
  have hinv := publicInv_of_run hu
  obtain ⟨ok, hok, hiff⟩ := checkDynmicCode_of_sessions hinv.sessions id dc
  rw [hinv.copied] at hiff
  cases (publiclyCalled_of_step hstep).2 with
  | check id dc ok' hok' =>
    rw [hok, Option.some.injEq] at hok'
    exact ⟨ok', rfl, hok' ▸ hiff⟩
  | nullEntry id dc hnull =>
    rw [hok] at hnull
    cases hnull

/-- Two clients, of which the first has a code; a copy, a check, and a send to a player. -/
def publicCalls : List PublicCall :=
  [.network (.acceptDone false 5), .network (.acceptDone false 6), .getmapAllClient,
    .network (.readDone 0 true [] zeroed), .checkDynmicCode 1 7,
    .sendMsgByPlayerID 3 (HMessage.new zeroed) (.accepts 0)]

/-- The send to a player ends the process of the run above. -/
theorem player_send_ends_third :
    ∃ h s, PublicRun 7 h s ∧ inputs h = publicCalls ∧
      h.getLast?.map Prod.snd = some
        [.network (.lookup 0 none (sentFrame (HMessage.new zeroed)))] ∧
      s.layer.halted = some .nullSession := by
  have hexec : (exec PublicNetwork.step (PublicNetwork.start 7) publicCalls).isSome = true := rfl
  obtain ⟨h, s, hrun, hin⟩ := exists_runs_of_exec hexec
  have hcalls : inputs h = publicCalls.take 5 ++
      .sendMsgByPlayerID 3 (HMessage.new zeroed) (.accepts 0) :: [] := hin
  obtain ⟨h₁, o, h₂, -, -, hsplit, -⟩ := hrun.step_of_inputs hcalls
  obtain ⟨rfl, rfl, hhalted⟩ := player_send_ends hrun hsplit
  exact ⟨h, s, hrun, hin, by simp [hsplit], hhalted⟩

/-- The first client has gone when its code is checked, but not from the copy. -/
theorem checks_answer_last_copy_gone :
    ∃ h s h₁ o h₂ ok, PublicRun 7 h s ∧ inputs h = publicCalls ∧
      h = h₁ ++ (.checkDynmicCode 1 7, o) :: h₂ ∧ o = [.checked ok] ∧
      (ok = true ↔ Knows (lastCopy (outputs h₁)) 1 7) := by
  have hexec : (exec PublicNetwork.step (PublicNetwork.start 7) publicCalls).isSome = true := rfl
  obtain ⟨h, s, hrun, hin⟩ := exists_runs_of_exec hexec
  have hcalls : inputs h = publicCalls.take 4 ++ .checkDynmicCode 1 7 :: publicCalls.drop 5 := hin
  obtain ⟨h₁, o, h₂, -, -, hsplit, -⟩ := hrun.step_of_inputs hcalls
  obtain ⟨ok, ho, hiff⟩ := checks_answer_last_copy hrun hsplit
  exact ⟨h, s, h₁, o, h₂, ok, hrun, hin, hsplit, ho, hiff⟩

end ShootGame.Analysis
