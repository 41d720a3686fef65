import ShootGame.Analysis.LoginStore
import ShootGame.Analysis.NodeHandles

/-!
# What the database is asked

A node gives its statements to the MySQL library one after the other, and there is no second
attempt at any.  A statement before which the connection is lost is not given, and none is
after it.  So over a run the statements given are the first ones of those that the requests
ask for, in the order of the requests, and all of them as long as there is a connection.
-/

set_option autoImplicit false

namespace ShootGame.Analysis

open ShootGame.Library ShootGame.Model

/-! ## The statements of a request -/

/-- The statement that a call gives to `mysql_real_query`. -/
def queryOf : NodeCall → Option (List UInt8)
  | .connect (.realQuery _ sql) => some sql
  | _ => none

/-- What `DoDBSql` asks the database for a request, if nothing fails. -/
def requestStatements : NodeRequest → List (List UInt8)
  | .register strAccount strPassword =>
    if strAccount.length > 20 then []
    else [cString (CRegisterWaitNode.addAccountSql strAccount strPassword)]
  | .login strAccount strPassword _ =>
    [cString (CLoginWaitNode.checkLoginSql strAccount strPassword),
      cString CLoginWaitNode.serverListSql]

/-- The same of the node of a request. -/
def nodeStatements : WaitNode → List (List UInt8)
  | .register node => requestStatements (.register node.strAccount node.strPassword)
  | .login node => requestStatements (.login node.strAccount node.strPassword node.dwDynamicCode)

/-- A node asks for what its request does. -/
theorem nodeStatements_new (junk : NodeJunk) (request : NodeRequest) :
    nodeStatements (WaitNode.new junk request) = requestStatements request := by
  cases request <;> rfl

/-- The first part of `all` has been asked.  There is a connection afterwards exactly if
there was one before and the whole has been asked; where there was none, nothing has. -/
structure AskedUntilLost (before after : DBConnect) (asked all : List (List UInt8)) : Prop where
  first : asked <+: all
  whole : after.con ≠ none ↔ before.con ≠ none ∧ asked = all
  nothing : before.con = none → asked = []

/-- Asking for nothing. -/
theorem AskedUntilLost.refl (db : DBConnect) : AskedUntilLost db db [] [] where
  first := List.prefix_rfl
  whole := by simp
  nothing _ := rfl

/-- What is asked after a loss is nothing, and so the first parts fit together. -/
theorem AskedUntilLost.append {db₀ db₁ db₂ : DBConnect}
    {asked₁ asked₂ all₁ all₂ : List (List UInt8)} (h₁ : AskedUntilLost db₀ db₁ asked₁ all₁)
    (h₂ : AskedUntilLost db₁ db₂ asked₂ all₂) :
    AskedUntilLost db₀ db₂ (asked₁ ++ asked₂) (all₁ ++ all₂) where
  first := by
    by_cases hcon : db₁.con = none
    · rw [h₂.nothing hcon, List.append_nil]
      exact h₁.first.trans (List.prefix_append _ _)
    · rw [(h₁.whole.mp hcon).2]
      exact (List.prefix_append_right_inj _).mpr h₂.first
  whole := by
    -- two first parts that make up the whole are whole
    have hboth : asked₁ ++ asked₂ = all₁ ++ all₂ ↔ asked₁ = all₁ ∧ asked₂ = all₂ := by
      constructor
      · intro heq
        have hlength := congrArg List.length heq
        rw [List.length_append, List.length_append] at hlength
        have hle₁ := h₁.first.length_le
        have hle₂ := h₂.first.length_le
        exact ⟨h₁.first.eq_of_length (by omega), h₂.first.eq_of_length (by omega)⟩
      · rintro ⟨rfl, rfl⟩
        rfl
    rw [h₂.whole, h₁.whole, hboth, and_assoc]
  nothing hbefore := by
    have hbetween : db₁.con = none := by
      by_contra hcon
      exact (h₁.whole.mp hcon).1 hbefore
    rw [h₁.nothing hbefore, h₂.nothing hbetween, List.append_nil]

/-! ## One query -/

/-- The statements among the calls of a node. -/
def queriesOf (calls : List NodeCall) : List (List UInt8) := calls.filterMap queryOf

/-- No calls ask for nothing. -/
@[simp] theorem queriesOf_nil : queriesOf [] = [] := rfl

/-- The statements of two lists of calls. -/
@[simp] theorem queriesOf_append (calls calls' : List NodeCall) :
    queriesOf (calls ++ calls') = queriesOf calls ++ queriesOf calls' := List.filterMap_append

/-- The statement of the first call comes first. -/
@[simp] theorem queriesOf_cons (call : NodeCall) (calls : List NodeCall) :
    queriesOf (call :: calls) = (queryOf call).toList ++ queriesOf calls := by
  cases hquery : queryOf call <;> simp [queriesOf, hquery]

/-- Pinging and connecting again asks nothing. -/
theorem queriesOf_keepAlive (db : DBConnect) (answers : LoadAnswers) :
    queriesOf ((db.keepAlive answers).calls.map NodeCall.connect) = [] := by
  have hclear : queriesOf (db.clear.calls.map NodeCall.connect) = [] := by
    unfold DBConnect.clear
    split <;> rfl
  have hinit : ∀ (db : DBConnect) (ip name : List UInt8) (answers : ConnectAnswers),
      queriesOf ((db.init ip name answers).calls.map NodeCall.connect) = [] := by
    intro db ip name answers
    unfold DBConnect.init
    split
    · rfl
    · split
      · dsimp only
        split
        · split <;> rfl
        · rfl
      · rfl
  unfold DBConnect.keepAlive
  split
  · rfl
  · simp only [List.map_append, queriesOf_append, hclear, hinit]
    rfl

/-- A query is asked for once, however it ends. -/
theorem queriesOf_runQuery (con : Option ℕ) (sql : List UInt8) (answers : LoadAnswers) :
    queriesOf ((DBConnect.runQuery con sql answers).2.map NodeCall.connect) = [sql] := by
  have hstored :
      queriesOf ((DBConnect.storeResult con sql answers).2.map NodeCall.connect) = [] := by
    unfold DBConnect.storeResult
    split
    · split <;> rfl
    · rfl
  unfold DBConnect.runQuery
  split_ifs
  · rfl
  · split
    · rfl
    · rw [List.map_append, queriesOf_append, hstored]
      rfl
  · rw [List.map_cons]
    exact congrArg (sql :: ·) hstored

/-- A query gives its statement to the library exactly if it leaves a connection. -/
theorem load_asked {db : DBConnect} (hcon : db.con ≠ none) (sql : List UInt8)
    (answers : LoadAnswers) :
    AskedUntilLost db (db.loadtabledata (some sql) answers).db
      (queriesOf ((db.loadtabledata (some sql) answers).calls.map NodeCall.connect)) [sql] := by
  obtain ⟨hkept, hresult⟩ := keepAlive_spec hcon answers
  rw [load_db hcon]
  unfold DBConnect.loadtabledata
  rw [if_neg hcon]
  dsimp only
  by_cases hstays : StaysConnected answers
  · rw [if_neg (hresult.mpr hstays), List.map_append, queriesOf_append, queriesOf_keepAlive,
      queriesOf_runQuery]
    exact ⟨List.prefix_rfl, by simp [hkept.mpr hstays, hcon], fun hnone => absurd hnone hcon⟩
  · have hlost : (db.keepAlive answers).db.con = none := by
      by_contra hleft
      exact hstays (hkept.mp hleft)
    have hzero : (db.keepAlive answers).result = 0 := by
      by_contra hne
      exact hstays (hresult.mp hne)
    rw [if_pos hzero, queriesOf_keepAlive]
    exact ⟨List.nil_prefix, by simp [hlost], fun _ => rfl⟩

/-- The three queries, whose other calls ask nothing. -/
theorem query_asked {α : Type} (sql : List UInt8) (answers : LoadAnswers) (noConn failed : α)
    (rows : Option ℕ → Option (ℕ × ResultSet) → α × List NodeCall)
    (hrows : ∀ tmpcon mres, queriesOf (rows tmpcon mres).2 = []) (connect : ThreadConnect) :
    AskedUntilLost connect.db (connect.query sql answers noConn failed rows).2.1.db
      (queriesOf (connect.query sql answers noConn failed rows).2.2) [sql] := by
  by_cases hcon : connect.db.con = none
  · rw [query_of_lost hcon]
    exact ⟨List.nil_prefix, by simp [hcon], fun _ => rfl⟩
  · have hcalls : queriesOf (connect.query sql answers noConn failed rows).2.2 = queriesOf
        ((connect.db.loadtabledata (some sql) answers).calls.map NodeCall.connect) := by
      obtain ⟨⟨iret, mres⟩, hresult⟩ :=
        Option.ne_none_iff_exists'.mp (load_result_ne_none connect.db sql answers)
      cases mres with
      | none =>
        by_cases hiret : iret ≤ 0 <;> simp [ThreadConnect.query, hcon, hresult, hiret, hrows]
      | some mres =>
        by_cases hiret : iret ≤ 0 <;>
          simp [ThreadConnect.query, hcon, hresult, hiret, hrows, queryOf]
    rw [query_db, hcalls]
    exact load_asked hcon sql answers

/-! ## One node -/

/-- Fetching rows asks for nothing. -/
theorem queriesOf_fetchCalls (res : ℕ) (tmpcon : Option ℕ) (fieldCount : UInt32)
    (rows : List MysqlRow) :
    queriesOf (ThreadConnect.fetchCalls res tmpcon fieldCount rows) = [] := by
  induction rows with
  | nil => rfl
  | cons row rows ih =>
    unfold ThreadConnect.fetchCalls
    split_ifs
    · rfl
    · rw [queriesOf_append, ih]
      rfl

/-- A node asks for its statements until the connection is lost. -/
theorem doDBSqlOn_asked (answers : NodeAnswers) (vecServerList : List ServerData)
    (connect : ThreadConnect) (node : WaitNode) :
    AskedUntilLost connect.db (node.doDBSqlOn answers vecServerList connect).connect.db
      (queriesOf (node.doDBSqlOn answers vecServerList connect).calls) (nodeStatements node) := by
  cases node with
  | register node =>
    simp only [WaitNode.doDBSqlOn, ThreadConnect.checkAndInsertAccountAndPasswd, nodeStatements,
      requestStatements]
    split_ifs
    · exact .refl connect.db
    · apply query_asked
      rintro tmpcon (_ | ⟨res, ⟨_ | ⟨row, rows⟩, fieldCount⟩⟩) <;> rfl
  | login node =>
    simp only [WaitNode.doDBSqlOn, nodeStatements, requestStatements, queriesOf_append]
    show AskedUntilLost _ _ _ ([_] ++ [_])
    apply AskedUntilLost.append
    · apply query_asked
      rintro tmpcon (_ | ⟨res, ⟨_ | ⟨row, rows⟩, fieldCount⟩⟩) <;> rfl
    · apply query_asked
      rintro tmpcon (_ | ⟨res, mres⟩)
      · rfl
      · exact queriesOf_fetchCalls ..

/-! ## A batch -/

/-- What a node that has been built asks. -/
def statementsAt (work : SqlWork) (pNode : ℕ) : List (List UInt8) :=
  ((work.nodes.map nodeStatements)[pNode]?).getD []

/-- Executing a node leaves the account and the password that it was built with. -/
theorem executeOne_asked (answers : ℕ → NodeAnswers) (pNode : ℕ) (s : ConnectedWork) :
    AskedUntilLost s.connect.db (s.executeOne answers pNode).1.connect.db
        (queriesOf (s.executeOne answers pNode).2) (statementsAt s.work pNode) ∧
      (s.executeOne answers pNode).1.work.nodes.map nodeStatements =
        s.work.nodes.map nodeStatements ∧
      (s.executeOne answers pNode).1.work.thread = s.work.thread := by
  unfold ConnectedWork.executeOne statementsAt
  cases hnode : s.work.nodes[pNode]? with
  | none =>
    rw [List.getElem?_map, hnode]
    exact ⟨.refl s.connect.db, rfl, rfl⟩
  | some node =>
    refine ⟨?_, ?_, rfl⟩
    · rw [List.getElem?_map, hnode]
      exact doDBSqlOn_asked ..
    · apply map_set_same nodeStatements hnode
      cases node <;> rfl

/-- By induction on the batch. -/
theorem executeAll_asked (answers : ℕ → NodeAnswers) (tmp : List ℕ) (s : ConnectedWork) :
    AskedUntilLost s.connect.db (ConnectedWork.executeAll answers tmp s).1.connect.db
        (queriesOf (ConnectedWork.executeAll answers tmp s).2)
        (tmp.flatMap (statementsAt s.work)) ∧
      (ConnectedWork.executeAll answers tmp s).1.work.nodes.map nodeStatements =
        s.work.nodes.map nodeStatements ∧
      (ConnectedWork.executeAll answers tmp s).1.work.thread = s.work.thread := by
  induction tmp generalizing s with
  | nil => exact ⟨.refl s.connect.db, rfl, rfl⟩
  | cons pNode tmp ih =>
    obtain ⟨hone, hnodes, hthread⟩ := executeOne_asked answers pNode s
    obtain ⟨hrest, hnodes', hthread'⟩ := ih (s.executeOne answers pNode).1
    have hat : statementsAt (s.executeOne answers pNode).1.work = statementsAt s.work := by
      unfold statementsAt
      rw [hnodes]
    rw [hat] at hrest
    unfold ConnectedWork.executeAll
    dsimp only
    rw [queriesOf_append, List.flatMap_cons]
    exact ⟨hone.append hrest, hnodes'.trans hnodes, hthread'.trans hthread⟩

/-! ## Over a run -/

/-- The request that a call submits. -/
def requestIn : ConnectedCall → Option NodeRequest
  | .request _ request _ => some request
  | _ => none

/-- The requests, in the order of their submission. -/
def requestsIn (h : List (ConnectedCall × List ConnectedEffect)) : List NodeRequest :=
  (inputs h).filterMap requestIn

/-- The statements given to the library. -/
def queriesIn (h : List (ConnectedCall × List ConnectedEffect)) : List (List UInt8) :=
  queriesOf ((outputs h).filterMap nodeCall)

/-- The nodes `done` have been executed, and the others wait in their order. -/
structure AskedInv (answers : ConnectAnswers) (h : List (ConnectedCall × List ConnectedEffect))
    (s : ConnectedWork) (done : List ℕ) : Prop where
  order : done ++ (s.work.thread.batch ++ s.work.thread.vecWrite) =
    List.range s.work.nodes.length
  nodes : s.work.nodes.map nodeStatements = (requestsIn h).map requestStatements
  asked : AskedUntilLost (ThreadConnect.start answers).db s.connect.db (queriesIn h)
    (done.flatMap (statementsAt s.work))

/-- The request of one more call. -/
theorem requestsIn_concat (h : List (ConnectedCall × List ConnectedEffect)) (call : ConnectedCall)
    (o : List ConnectedEffect) :
    requestsIn (h ++ [(call, o)]) = requestsIn h ++ (requestIn call).toList := by
  unfold requestsIn
  rw [inputs_append, List.filterMap_append, inputs_cons, inputs_nil]
  cases hrequest : requestIn call <;> simp [hrequest]

/-- The statements of one more call. -/
theorem queriesIn_concat (h : List (ConnectedCall × List ConnectedEffect)) (call : ConnectedCall)
    (o : List ConnectedEffect) :
    queriesIn (h ++ [(call, o)]) = queriesIn h ++ queriesOf (o.filterMap nodeCall) := by
  unfold queriesIn
  rw [outputs_append, List.filterMap_append, queriesOf_append, outputs_cons, outputs_nil,
    List.append_nil]

variable {answers : ConnectAnswers} {h : List (ConnectedCall × List ConnectedEffect)}
  {s t : ConnectedWork} {done : List ℕ}

/-- A call of the main thread that submits nothing, and the first section of the worker. -/
theorem askedInv_idle (hinv : AskedInv answers h s done) {call : SqlWorkCall}
    {o : List ConnectedEffect} (hstep : s.besides call = some (t, o))
    (hrequest : ∀ iSessionID request junk, call ≠ .request iSessionID request junk)
    (hexecute : ∀ database junk, call ≠ .runExecute database junk) {e : ConnectedCall}
    (he : requestIn e = none) : AskedInv answers (h ++ [(e, o)]) t done := by
  obtain ⟨out, hwork, hconnect, rfl⟩ := besides_eq hstep
  obtain ⟨work, connect⟩ := t
  obtain rfl : connect = s.connect := hconnect
  have hquiet : (out.map ConnectedEffect.work).filterMap nodeCall = [] := by simp [nodeCall]
  have hsame : work.nodes = s.work.nodes ∧ work.thread.batch ++ work.thread.vecWrite =
      s.work.thread.batch ++ s.work.thread.vecWrite := by
    have hworked := worked_of_step hwork
    dsimp only at hworked
    cases hworked with
    | request iSessionID request junk hidle => exact absurd rfl (hrequest iSessionID request junk)
    | take hworker => simp [DBSqlThread.batch, hworker]
    | execute database junk => exact absurd rfl (hexecute database junk)
    | fetch hidle => exact ⟨rfl, rfl⟩
    | visit => exact ⟨rfl, rfl⟩
  obtain ⟨hnodes, hqueues⟩ := hsame
  have hat : statementsAt work = statementsAt s.work := by
    unfold statementsAt
    rw [hnodes]
  refine ⟨?_, ?_, ?_⟩
  · rw [hqueues, hnodes]
    exact hinv.order
  · rw [hnodes, requestsIn_concat, he]
    simpa using hinv.nodes
  · rw [queriesIn_concat, hquiet, hat, queriesOf_nil, List.append_nil]
    exact hinv.asked

/-- A new node waits behind the others. -/
theorem askedInv_request (hinv : AskedInv answers h s done) {iSessionID : Int}
    {request : NodeRequest} {junk : NodeJunk} {o : List ConnectedEffect}
    (hstep : s.besides (.request iSessionID request junk) = some (t, o)) :
    AskedInv answers (h ++ [(.request iSessionID request junk, o)]) t done := by
  obtain ⟨out, hwork, hconnect, rfl⟩ := besides_eq hstep
  obtain ⟨work, connect⟩ := t
  obtain rfl : connect = s.connect := hconnect
  have hquiet : (out.map ConnectedEffect.work).filterMap nodeCall = [] := by simp [nodeCall]
  have hworked := worked_of_step hwork
  dsimp only at hworked
  cases hworked with
  | request _ _ _ hidle =>
    refine ⟨?_, ?_, ?_⟩
    · have horder := hinv.order
      simp only [DBSqlThread.batch, ← List.append_assoc] at horder ⊢
      rw [horder, List.length_append, List.length_singleton, List.range_succ]
    · rw [requestsIn_concat, List.map_append, hinv.nodes, List.map_append]
      simp [requestIn, nodeStatements_new]
    · rw [queriesIn_concat, hquiet, queriesOf_nil, List.append_nil]
      have hat : done.flatMap (statementsAt { s.work with
          thread := { s.work.thread with
            vecWrite := s.work.thread.vecWrite ++ [s.work.nodes.length] }
          nodes := s.work.nodes ++ [WaitNode.new junk request] }) =
          done.flatMap (statementsAt s.work) := by
        apply List.flatMap_congr
        intro pNode hmem
        have hlt : pNode < s.work.nodes.length := by
          rw [← List.mem_range, ← hinv.order]
          exact List.mem_append_left _ hmem
        unfold statementsAt
        rw [List.map_append, List.getElem?_append_left (by simpa using hlt)]
      rw [hat]
      exact hinv.asked

/-- Every call keeps the order of the statements. -/
theorem askedInv_step (hinv : AskedInv answers h s done) {call : ConnectedCall}
    {o : List ConnectedEffect} (hstep : s.step call = some (t, o)) :
    ∃ done', AskedInv answers (h ++ [(call, o)]) t done' := by
  cases call with
  | request iSessionID request junk => exact ⟨done, askedInv_request hinv hstep⟩
  | runTakeAll => exact ⟨done, askedInv_idle hinv hstep (by simp) (by simp) rfl⟩
  | getFinishDBWait => exact ⟨done, askedInv_idle hinv hstep (by simp) (by simp) rfl⟩
  | doLogic => exact ⟨done, askedInv_idle hinv hstep (by simp) (by simp) rfl⟩
  | runExecute answers =>
    unfold ConnectedWork.step at hstep
    cases hworker : s.work.thread.worker with
    | takeAll => simp [hworker] at hstep
    | execute tmp =>
      simp only [hworker, Option.some.injEq, Prod.mk.injEq] at hstep
      obtain ⟨rfl, rfl⟩ := hstep
      obtain ⟨hasked, hnodes, hthread⟩ := executeAll_asked answers tmp { s with work := { s.work
        with thread := { s.work.thread with
          vecWriteFinish := s.work.thread.vecWriteFinish ++ tmp, worker := .takeAll } } }
      have hlength := congrArg List.length hnodes
      rw [List.length_map, List.length_map] at hlength
      refine ⟨done ++ tmp, ?_, ?_, ?_⟩
      · rw [hthread, hlength, ← hinv.order]
        simp [DBSqlThread.batch, hworker]
      · rw [hnodes, requestsIn_concat]
        simpa [requestIn] using hinv.nodes
      · rw [queriesIn_concat, filterMap_nodeCall, List.flatMap_append]
        unfold statementsAt at hasked ⊢
        rw [hnodes]
        exact hinv.asked.append hasked

/-- It is kept throughout a run. -/
theorem exists_askedInv (hrun : ConnectedRun answers h s) : ∃ done, AskedInv answers h s done := by
  induction hrun with
  | start => exact ⟨[], rfl, rfl, .refl _⟩
  | next hrun hstep ih =>
    obtain ⟨done, hinv⟩ := ih
    exact askedInv_step hinv hstep

/-- Reading off the entries of a list one by one, from the first to the one before the
`n`th. -/
theorem flatMap_range_getElem? {α : Type} (all : List (List α)) (n : ℕ) :
    (List.range n).flatMap (fun i => (all[i]?).getD []) = (all.take n).flatten := by
  induction n with
  | zero => rfl
  | succ n ih =>
    rw [List.range_succ, List.flatMap_append, ih, List.take_add_one, List.flatten_append]
    cases hentry : all[n]? <;> simp [hentry]

/-- The statements given to the MySQL library over a run are the first ones of those that
the executed requests ask for, in the order in which they were submitted, each once; and
there is a connection exactly if one was made at the start and none of them is missing. -/
theorem statements_of_run (hrun : ConnectedRun answers h s) :
    ∃ executed left, requestsIn h = executed ++ left ∧
      left.length = s.work.thread.batch.length + s.work.thread.vecWrite.length ∧
      queriesIn h <+: executed.flatMap requestStatements ∧
      (s.connect.db.con ≠ none ↔ (ThreadConnect.start answers).db.con ≠ none ∧
        queriesIn h = executed.flatMap requestStatements) := by
  obtain ⟨done, hinv⟩ := exists_askedInv hrun
  have hdone : done = List.range done.length := by
    have hinitial : done <+: List.range s.work.nodes.length := ⟨_, hinv.order⟩
    have hle := hinitial.length_le
    rw [List.length_range] at hle
    rw [List.prefix_iff_eq_take.mp hinitial, List.take_range, List.length_range,
      Nat.min_eq_left hle]
  have hlength := congrArg List.length hinv.nodes
  rw [List.length_map, List.length_map] at hlength
  have hall : done.flatMap (statementsAt s.work) =
      ((requestsIn h).take done.length).flatMap requestStatements := by
    rw [hdone]
    unfold statementsAt
    rw [flatMap_range_getElem?, hinv.nodes, List.flatMap_def, List.map_take, List.length_range]
  obtain ⟨hfirst, hwhole, -⟩ := hinv.asked
  rw [hall] at hfirst hwhole
  refine ⟨_, (requestsIn h).drop done.length, (List.take_append_drop ..).symm, ?_, hfirst, hwhole⟩
  have hcount := congrArg List.length hinv.order
  simp only [List.length_append, List.length_range] at hcount
  rw [List.length_drop]
  omega

/-- A registration, and a login between whose statements the connection is lost; another
login comes too late for the batch. -/
def brokenOffCalls : List ConnectedCall :=
  [.request 5 (.register [65] [66]) ⟨0, 0, true⟩, .request 6 (.login [67] [68] 0) ⟨0, 0, true⟩,
    .runTakeAll, .request 7 (.login [69] [70] 0) ⟨0, 0, true⟩,
    .runExecute fun _ => ⟨⟨true, ⟨true, true, true⟩, false, none⟩,
      ⟨false, ⟨true, false, true⟩, true, none⟩, 0⟩]

/-- A run whose connection is lost after two statements. -/
theorem statements_of_run_broken_off :
    ∃ h s, ConnectedRun ⟨true, true, true⟩ h s ∧ inputs h = brokenOffCalls ∧
      (queriesIn h).length = 2 ∧
      ∃ executed left, requestsIn h = executed ++ left ∧
        left.length = s.work.thread.batch.length + s.work.thread.vecWrite.length ∧
        queriesIn h <+: executed.flatMap requestStatements ∧
        (s.connect.db.con ≠ none ↔
          (ThreadConnect.start ⟨true, true, true⟩).db.con ≠ none ∧
            queriesIn h = executed.flatMap requestStatements) := by
  have hexec : (exec ConnectedWork.step (ConnectedWork.start ⟨true, true, true⟩)
      brokenOffCalls).map (fun r => (queriesIn r.2).length) = some 2 := rfl
  obtain ⟨h, s, hrun, hin, hasked⟩ :=
    exists_runs_of_exec_map (fun h => (queriesIn h).length) hexec
  exact ⟨h, s, hrun, hin, hasked, statements_of_run hrun⟩

end ShootGame.Analysis
