import ShootGame.Analysis.SessionTable

/-!
# Dynamic codes

A session has a dynamic code from its allocation on.  `AcceptConnect` assigns one and
`Handle_accept` does not, so that the first session is the only one with a code that was
issued (`codes_issued_iff`).

A check of a dynamic code is answered from `MsgLogic`'s own copy of the client table.
Nothing ever fills the copy, so that the answer is right exactly where no client in the
table of the network layer has the code (`checks_exact_iff`).
-/

set_option autoImplicit false

namespace ShootGame.Analysis

open ShootGame.Library ShootGame.Model

/-! ## Codes issued -/

/-- Every session in the table and every message under way has a dynamic code that was
assigned. -/
def CodesIssued (s : Server) : Prop :=
  (∀ (key : Int) (session : SessionClient),
    s.network.mapAllClientSock[key]? = some (some session) → session.dynmicCode.IsAssigned) ∧
    ∀ hmg ∈ waiting s, hmg.dynmicCode.IsAssigned

/-- As long as at most one client was accepted, every code was assigned. -/
theorem codesIssued_of_accepts_le_one {rand : UInt32} {h : List (Event × List Effect)} {s : Server}
    (hrun : ServerRun rand h s) (hle : accepts (inputs h) ≤ 1) : CodesIssued s := by
  constructor
  · intro key session hentry
    obtain ⟨hlt, hnum, -⟩ := (tableInv_of_run hrun).entries key session hentry
    exact hnum.dynmicCode.mpr (by omega)
  · intro hmg hmem
    obtain ⟨session, data, junk, rfl, hlt, hnum⟩ := origin_of_waiting hrun hmg hmem
    rw [MyZServerNetwork.receivedMsg, Cell.isAssigned_map]
    exact hnum.dynmicCode.mpr (by omega)

/-- The second accept of a run puts a session without a code into the table. -/
theorem exists_prefix_not_codesIssued {rand : UInt32} {h : List (Event × List Effect)}
    {s : Server} (hrun : ServerRun rand h s) (hmany : 2 ≤ accepts (inputs h)) :
    ∃ h₁ h₂ s₁, h = h₁ ++ h₂ ∧ ServerRun rand h₁ s₁ ∧ ¬ CodesIssued s₁ := by
  induction hrun with
  | start => simp [accepts] at hmany
  | @next h t u e o hprefix hstep ih =>
    by_cases hearlier : 2 ≤ accepts (inputs h)
    · obtain ⟨h₁, h₂, s₁, rfl, hrun₁, hnot⟩ := ih hearlier
      exact ⟨h₁, h₂ ++ [(e, o)], s₁, by simp, hrun₁, hnot⟩
    · refine ⟨h ++ [(e, o)], [], u, by simp, hprefix.next hstep, fun hissued => ?_⟩
      have hinv := tableInv_of_run hprefix
      rw [inputs_append, accepts_append] at hmany
      cases (stepped_of_step hstep).2 with
      | accept error junk session rest haccepting =>
        obtain ⟨pending, hpending, hobject, hnum⟩ := hinv.accepting
        rw [hpending, List.cons.injEq] at haccepting
        obtain ⟨rfl, rfl⟩ := haccepting
        have hcode := hissued.1 t.network.iCurrentID pending (by simp)
        have hfirst := hnum.dynmicCode.mp hcode
        simp only [inputs_cons, inputs_nil, accepts_acceptDone] at hmany
        omega
      | _ =>
        simp only [inputs_cons, inputs_nil, accepts_readDone, accepts_mainStep] at hmany
        omega

/-- All codes are issued all along a run exactly where it accepts one client at most. -/
theorem codes_issued_iff {rand : UInt32} {h : List (Event × List Effect)} {s : Server}
    (hrun : ServerRun rand h s) :
    (∀ h₁ h₂ s₁, h = h₁ ++ h₂ → ServerRun rand h₁ s₁ → CodesIssued s₁) ↔
      accepts (inputs h) ≤ 1 := by
  constructor
  · intro hall
    by_contra hmany
    obtain ⟨h₁, h₂, s₁, heq, hrun₁, hnot⟩ := exists_prefix_not_codesIssued hrun (by omega)
    exact hnot (hall h₁ h₂ s₁ heq hrun₁)
  · rintro hle h₁ h₂ s₁ rfl hrun₁
    rw [inputs_append, accepts_append] at hle
    exact codesIssued_of_accepts_le_one hrun₁ (by omega)

/-- A single client connects and sends one byte. -/
theorem codes_issued_iff_one_client :
    ∃ h s, ServerRun 7 h s ∧
      inputs h = [.acceptDone false 5, .readDone 0 false [1] zeroed] ∧
      CodesIssued s := by
  obtain ⟨h, s, hrun, hin⟩ := exists_serverRun 7
    [.acceptDone false 5, .readDone 0 false [1] zeroed] rfl
  have hall := (codes_issued_iff hrun).mpr (by rw [hin]; decide)
  exact ⟨h, s, hrun, hin, hall h [] s (by simp) hrun⟩

/-- Two clients connect. -/
theorem second_client_has_no_code :
    ∃ h s, ServerRun 7 h s ∧ inputs h = [.acceptDone false 5, .acceptDone false 6] ∧
      ∃ h₁ h₂ s₁, h = h₁ ++ h₂ ∧ ServerRun 7 h₁ s₁ ∧ ¬ CodesIssued s₁ := by
  obtain ⟨h, s, hrun, hin⟩ := exists_serverRun 7
    [.acceptDone false 5, .acceptDone false 6] rfl
  exact ⟨h, s, hrun, hin, exists_prefix_not_codesIssued hrun (by rw [hin]; decide)⟩

/-! ## Codes checked -/

/-- Some session in the network layer's table has this id and this code. -/
def Matching (s : Server) (dynmicCode sessionID : UInt32) : Prop :=
  ∃ (key : Int) (session : SessionClient),
    s.network.mapAllClientSock[key]? = some (some session) ∧
      session.iID = toInt sessionID.toNat ∧ session.dynmicCode.read = dynmicCode

/-- A check is answered as it should be: positively where some session matches, and
negatively otherwise. -/
def AnsweredExactly (s : Server) (dynmicCode sessionID sessionIDFromDS : UInt32)
    (effects : List Effect) : Prop :=
  ((∃ id entry, .lookup id entry (checkFrame .checkDynmicCodeOk sessionIDFromDS) ∈ effects) ↔
    Matching s dynmicCode sessionID) ∧
    ((∃ id entry, .lookup id entry (checkFrame .checkDynmicCodeFail sessionIDFromDS) ∈ effects) ↔
      ¬ Matching s dynmicCode sessionID)

/-- A step that deals with a check answers it exactly where nothing matches. -/
theorem answeredExactly_iff {s t : Server} {e : Event} {o : List Effect} (hflow : FlowInv s)
    (h : Stepped s e t o) {hmg : HMessage} {c sid d : UInt32}
    (hdealt : .dealt hmg (some (.checkDynmicCode c sid d)) ∈ o) :
    AnsweredExactly s c sid d o ↔ ¬ Matching s c sid := by
  cases h with
  | deal junk outcome i hmg' hpc hmsg =>
    obtain ⟨rfl, hdecoded⟩ := (hflow.mem_dealt_iff hpc hmsg junk outcome).mp hdealt
    have hanswer : answerOf hmg = some (checkFrame .checkDynmicCodeFail d) := by
      rw [answerOf, ← hdecoded]
      rfl
    have hfail : ∃ id entry, .lookup id entry (checkFrame .checkDynmicCodeFail d) ∈
        (s.dealStep junk outcome i hmg).2 :=
      ⟨_, _, (hflow.mem_lookup_iff hpc hmsg junk outcome).mpr ⟨rfl, rfl, hanswer⟩⟩
    have hok : ¬ ∃ id entry, .lookup id entry (checkFrame .checkDynmicCodeOk d) ∈
        (s.dealStep junk outcome i hmg).2 := by
      rintro ⟨id, entry, hmem⟩
      obtain ⟨-, -, hframe⟩ := (hflow.mem_lookup_iff hpc hmsg junk outcome).mp hmem
      rw [hanswer, Option.some.injEq] at hframe
      exact absurd (checkFrame_code_inj hframe) (by decide)
    constructor
    · rintro ⟨-, hnegative⟩
      exact hnegative.mp hfail
    · intro hnot
      exact ⟨iff_of_false hok hnot, iff_of_true hfail hnot⟩
  | read object error data junk session hreading hlen => simp [mem_erasedByRead] at hdealt
  | _ => simp at hdealt

/-- In every step of the run that deals with a check, it is answered exactly. -/
def ChecksExact (rand : UInt32) (h : List (Event × List Effect)) : Prop :=
  ∀ h₁ e o h₂ s₁, h = h₁ ++ (e, o) :: h₂ → ServerRun rand h₁ s₁ →
    ∀ hmg c sid d, .dealt hmg (some (.checkDynmicCode c sid d)) ∈ o → AnsweredExactly s₁ c sid d o

/-- No step of the run deals with a check that some session matches. -/
def NothingMatches (rand : UInt32) (h : List (Event × List Effect)) : Prop :=
  ∀ h₁ e o h₂ s₁, h = h₁ ++ (e, o) :: h₂ → ServerRun rand h₁ s₁ →
    ∀ hmg c sid d, .dealt hmg (some (.checkDynmicCode c sid d)) ∈ o → ¬ Matching s₁ c sid

/-- In a run, a check is answered exactly if no session matches it. -/
theorem answeredExactly_iff_of_run {rand : UInt32} {h₁ h₂ : List (Event × List Effect)} {e : Event}
    {o : List Effect} {s s₁ : Server} (hrun : ServerRun rand (h₁ ++ (e, o) :: h₂) s)
    (hrun₁ : ServerRun rand h₁ s₁) {hmg : HMessage} {c sid d : UInt32}
    (hdealt : .dealt hmg (some (.checkDynmicCode c sid d)) ∈ o) :
    AnsweredExactly s₁ c sid d o ↔ ¬ Matching s₁ c sid := by
  obtain ⟨t, v, ht, hstep, -⟩ := hrun.step_of_split
  obtain rfl := ht.state_unique hrun₁
  exact answeredExactly_iff (flowInv_of_run hrun₁) (stepped_of_step hstep).2 hdealt

/-- Checks are answered exactly in the runs in which no session matches any of them. -/
theorem checks_exact_iff {rand : UInt32} {h : List (Event × List Effect)} {s : Server}
    (hrun : ServerRun rand h s) : ChecksExact rand h ↔ NothingMatches rand h := by
  constructor <;> rintro hall h₁ e o h₂ s₁ rfl hrun₁ hmg c sid d hdealt
  · exact (answeredExactly_iff_of_run hrun hrun₁ hdealt).mp
      (hall h₁ e o h₂ s₁ rfl hrun₁ hmg c sid d hdealt)
  · exact (answeredExactly_iff_of_run hrun hrun₁ hdealt).mpr
      (hall h₁ e o h₂ s₁ rfl hrun₁ hmg c sid d hdealt)

def checkChunk (id : UInt8) : List UInt8 :=
  [18, 0, 0x37, 0x10, 0xe8, 0x03, 0, 0, 0, 7, 0, 0, 0, id, 0, 0, 0, 0]

/-- A client connects, and a check for a session id arrives and is handed to `DealMsg`. -/
def checkEvents (id : UInt8) : List Event :=
  [.acceptDone false 5, .readDone 0 false (checkChunk id) zeroed,
    .mainStep zeroedDeal (.accepts 0), .mainStep zeroedDeal (.accepts 0)]

/-- There is no session `0`, so a check for it is answered as it should be. -/
theorem checks_exact_iff_unknown_id :
    ∃ h s, ServerRun 7 h s ∧
      inputs h = checkEvents 0 ++ [.mainStep zeroedDeal (.accepts 0)] ∧ ChecksExact 7 h := by
  obtain ⟨h, s, hexec, hqueued⟩ : ∃ h s,
      exec Server.step (Server.start 7) (checkEvents 0 ++ [.mainStep zeroedDeal (.accepts 0)]) =
        some (s, h) ∧
      (outputs h).filterMap queuedMsg =
        [MyZServerNetwork.receivedMsg ⟨0, 1, .assigned 7⟩ (checkChunk 0) zeroed] :=
    ⟨_, _, rfl, rfl⟩
  obtain ⟨hrun, hin⟩ := runs_of_exec hexec
  refine ⟨h, s, hrun, hin, (checks_exact_iff hrun).mpr ?_⟩
  rintro h₁ e o h₂ s₁ rfl hrun₁ hmg c sid d hdealt ⟨key, session, hentry, hid, -⟩
  obtain ⟨t, v, ht, hstep, -⟩ := hrun.step_of_split
  have hq := decoded_of_dealt (flowInv_of_run ht) (stepped_of_step hstep).2 hdealt
  have hmem : hmg ∈ (outputs (h₁ ++ (e, o) :: h₂)).filterMap queuedMsg := by
    rw [queued_eq_dealt_append_waiting hrun, List.mem_append]
    refine .inl (List.mem_filterMap.mpr ⟨.dealt hmg (some (.checkDynmicCode c sid d)), ?_, rfl⟩)
    rw [outputs_append, outputs_cons]
    exact List.mem_append_right _ (List.mem_append_left _ hdealt)
  rw [hqueued, List.mem_singleton] at hmem
  have hzero : decoded (zeroed.byBuffer.store 0 (checkChunk 0)) =
      some (.checkDynmicCode 7 0 0) := by decide
  rw [hmem] at hq
  obtain ⟨-, rfl, -⟩ := Request.checkDynmicCode.inj (Option.some.inj (hq.trans hzero))
  obtain ⟨-, hnum, -⟩ := (tableInv_of_run hrun₁).entries key session hentry
  have hrange := (sessionId_mem_range session.object).1
  rw [← hnum.iID, hid] at hrange
  exact absurd hrange (by decide)

/-- The first client's own id and code are not recognised. -/
theorem known_code_fails :
    ∃ h s, ServerRun 7 h s ∧
      inputs h = checkEvents 1 ++ [.mainStep zeroedDeal (.accepts 0)] ∧ ¬ ChecksExact 7 h := by
  obtain ⟨h, s, hexec, hpc, hrunning, hmsg, hentry⟩ : ∃ h s,
      exec Server.step (Server.start 7) (checkEvents 1) = some (s, h) ∧
        s.pc = .dealMsg 0 ∧ s.halted = none ∧
        s.msgLogic.vecAllClientMsg[0]? =
          some (MyZServerNetwork.receivedMsg ⟨0, 1, .assigned 7⟩ (checkChunk 1) zeroed) ∧
        s.network.mapAllClientSock[(1 : Int)]? = some (some ⟨0, 1, .assigned 7⟩) :=
    ⟨_, _, rfl, rfl, rfl, rfl, rfl⟩
  obtain ⟨hrun, hin⟩ := runs_of_exec hexec
  have hflow := flowInv_of_run hrun
  have hstep := step_deal hrunning hpc hmsg zeroedDeal (.accepts 0)
  refine ⟨_, _, hrun.next hstep, by rw [inputs_append, hin]; rfl, fun hexact => ?_⟩
  have hdealt := (hflow.mem_dealt_iff hpc hmsg zeroedDeal (.accepts 0)
    (q := some (.checkDynmicCode 7 1 0))).mpr ⟨rfl, by decide⟩
  have hanswered := hexact h _ _ [] s rfl hrun _ 7 1 0 hdealt
  have hnot := (answeredExactly_iff hflow (stepped_of_step hstep).2 hdealt).mp hanswered
  exact hnot ⟨1, ⟨0, 1, .assigned 7⟩, hentry, by decide, rfl⟩

end ShootGame.Analysis
