import ShootGame.Analysis.LostConnection

/-!
# The handles that a node uses

A node reaches the MySQL library through two kinds of handles.  A result set belongs to the
`DBresultSet` of one query, whose destructor frees it wherever the query returns.  The
handle of the connection is fetched before the statement is run, and the statement may put
another one in its place; the queries of a login count the columns of a row with the one
that was fetched.
-/

set_option autoImplicit false

namespace ShootGame.Analysis

open ShootGame.Library ShootGame.Model

/-! ## Result sets -/

/-- What a call does with a result set. -/
def resultUse : NodeCall → List (HandleUse ℕ)
  | .stored res => [.opens res]
  | .fetchRow res => [.uses (some res)]
  | .freeResult res => [.closes (some res)]
  | .connect _ => []
  | .fieldCount _ => []

def resultUses (calls : List NodeCall) : List (HandleUse ℕ) := calls.flatMap resultUse

/-- No calls use no result set. -/
@[simp] theorem resultUses_nil : resultUses [] = [] := rfl

/-- The uses of two lists of calls. -/
@[simp] theorem resultUses_append (calls calls' : List NodeCall) :
    resultUses (calls ++ calls') = resultUses calls ++ resultUses calls' := List.flatMap_append

/-- The uses of the first call come first. -/
@[simp] theorem resultUses_cons (call : NodeCall) (calls : List NodeCall) :
    resultUses (call :: calls) = resultUse call ++ resultUses calls := List.flatMap_cons

/-- The calls of the connection use no result set. -/
@[simp] theorem resultUses_connect (calls : List MysqlCall) :
    resultUses (calls.map NodeCall.connect) = [] := by
  simp [resultUses, List.flatMap_map, resultUse]

/-- No result set is used before it is stored or after it is freed, and none is left. -/
def ResultsFreed (calls : List NodeCall) : Prop :=
  WellUsed ∅ (resultUses calls) ∧ openAfter ∅ (resultUses calls) = ∅

/-- No calls leave no result set. -/
theorem resultsFreed_nil : ResultsFreed [] := ⟨trivial, rfl⟩

/-- Two lists of calls free their result sets if both do. -/
theorem ResultsFreed.append {calls calls' : List NodeCall} (h : ResultsFreed calls)
    (h' : ResultsFreed calls') : ResultsFreed (calls ++ calls') := by
  unfold ResultsFreed
  rw [resultUses_append, wellUsed_append, openAfter_append, h.2]
  exact ⟨⟨h.1, h'.1⟩, h'.2⟩

/-- A query frees what it has stored, if what it does with the rows only reads them. -/
theorem query_resultsFreed {α : Type} (sql : List UInt8) (answers : LoadAnswers)
    (noConn failed : α) (rows : Option ℕ → Option (ℕ × ResultSet) → α × List NodeCall)
    (hnone : ∀ tmpcon, resultUses (rows tmpcon none).2 = [])
    (hsome : ∀ tmpcon res mres, ∀ use ∈ resultUses (rows tmpcon (some (res, mres))).2,
      use = .uses (some res))
    (connect : ThreadConnect) :
    ResultsFreed (connect.query sql answers noConn failed rows).2.2 := by
  unfold ThreadConnect.query
  dsimp only
  split_ifs with hcon
  · exact resultsFreed_nil
  · split
    · simp [ResultsFreed]
    · rename_i iret heq
      split_ifs
      · simp [ResultsFreed]
      · simp [ResultsFreed, hnone]
    · rename_i iret mres heq
      have hreads : ∀ use ∈ resultUses (if iret ≤ 0 then (failed, []) else
          rows connect.db.con (some (connect.results, mres))).2,
          use = .uses (some connect.results) := by
        split_ifs
        · simp [resultUses]
        · exact hsome _ _ _
      obtain ⟨hused, hopen⟩ := uses_only (Finset.mem_singleton_self connect.results) hreads
      have hopened : (HandleUse.opens connect.results).after ∅ = {connect.results} := by
        simp [HandleUse.after]
      simp only [ResultsFreed, resultUses_append, resultUses_connect, resultUses_cons, resultUse,
        List.nil_append, List.append_assoc, List.singleton_append, wellUsed_append,
        openAfter_append, wellUsed_cons, openAfter_cons, hopened, hopen]
      refine ⟨⟨⟨?_, hused⟩, ?_⟩, ?_⟩ <;> simp [HandleUse.Right, HandleUse.after, resultUses]

/-- The loop of `GetAllPerganaFromSql` reads rows until there is none. -/
theorem resultUses_fetchCalls (res : ℕ) (tmpcon : Option ℕ) (fieldCount : UInt32)
    (rows : List MysqlRow) :
    ∀ use ∈ resultUses (ThreadConnect.fetchCalls res tmpcon fieldCount rows),
      use = .uses (some res) := by
  induction rows with
  | nil => simp [ThreadConnect.fetchCalls, resultUse, resultUses]
  | cons row rows ih =>
    unfold ThreadConnect.fetchCalls
    split_ifs
    · simp [resultUse, resultUses]
    · simpa [resultUse] using ih

/-- Whatever becomes of its statements, `DoDBSql` frees each result set that it has stored. -/
theorem doDBSqlOn_resultsFreed (answers : NodeAnswers) (vecServerList : List ServerData)
    (connect : ThreadConnect) (node : WaitNode) :
    ResultsFreed (node.doDBSqlOn answers vecServerList connect).calls := by
  cases node with
  | register node =>
    simp only [WaitNode.doDBSqlOn, ThreadConnect.checkAndInsertAccountAndPasswd]
    split_ifs
    · exact resultsFreed_nil
    · apply query_resultsFreed
      · intro tmpcon
        rfl
      · intro tmpcon res mres
        obtain ⟨_ | ⟨row, rows⟩, fieldCount⟩ := mres <;>
          simp [ThreadConnect.addAccountRows, resultUse]
  | login node =>
    simp only [WaitNode.doDBSqlOn]
    apply ResultsFreed.append
    · apply query_resultsFreed
      · intro tmpcon
        rfl
      · intro tmpcon res mres
        obtain ⟨_ | ⟨row, rows⟩, fieldCount⟩ := mres <;>
          simp [ThreadConnect.checkLoginRows, resultUse]
    · apply query_resultsFreed
      · intro tmpcon
        rfl
      · intro tmpcon res mres
        exact resultUses_fetchCalls res tmpcon mres.fieldCount mres.rows

/-! ## The calls of a run -/

def nodeCall : ConnectedEffect → Option NodeCall
  | .call call => some call
  | .work _ => none

/-- The calls among the effects that are calls. -/
theorem filterMap_nodeCall (calls : List NodeCall) :
    (calls.map ConnectedEffect.call).filterMap nodeCall = calls := by
  induction calls with
  | nil => rfl
  | cons call calls ih => simpa [nodeCall] using ih

/-- The worker between two nodes of a run. -/
def workerOf (s : ConnectedWork) : Worker := ⟨s.connect, s.work.vecServerList⟩

/-- A batch is a run of the worker. -/
theorem exists_runs_executeAll (answers : ℕ → NodeAnswers) (tmp : List ℕ) (s : ConnectedWork) :
    ∃ k, Runs Worker.step (workerOf s) k (workerOf (ConnectedWork.executeAll answers tmp s).1) ∧
      outputs k = (ConnectedWork.executeAll answers tmp s).2 := by
  induction tmp generalizing s with
  | nil => exact ⟨[], .start, rfl⟩
  | cons pNode tmp ih =>
    obtain ⟨k, hrest, hout⟩ := ih (s.executeOne answers pNode).1
    unfold ConnectedWork.executeAll
    dsimp only
    cases hnode : s.work.nodes[pNode]? with
    | none =>
      have hone : s.executeOne answers pNode = (s, []) := by
        simp [ConnectedWork.executeOne, hnode]
      rw [hone] at hrest hout ⊢
      exact ⟨k, hrest, hout⟩
    | some node =>
      have hone : Worker.step (workerOf s) ⟨node, answers pNode⟩ =
          some (workerOf (s.executeOne answers pNode).1, (s.executeOne answers pNode).2) := by
        simp [Worker.step, workerOf, ConnectedWork.executeOne, hnode]
      refine ⟨_, (Runs.single hone).trans hrest, ?_⟩
      rw [outputs_append, hout, outputs_cons, outputs_nil, List.append_nil]

/-- Only the worker changes the global list. -/
theorem vecServerList_of_step {work work' : SqlWork} {call : SqlWorkCall}
    {o : List SqlWorkEffect} (hstep : work.step call = some (work', o))
    (hcall : ∀ database junk, call ≠ .runExecute database junk) :
    work'.vecServerList = work.vecServerList := by
  cases worked_of_step hstep with
  | request | take | fetch | visit => rfl
  | execute database junk => exact absurd rfl (hcall database junk)

/-- A step that executes no batch leaves the worker alone. -/
theorem besides_worker {s t : ConnectedWork} {call : SqlWorkCall} {o : List ConnectedEffect}
    (hstep : s.besides call = some (t, o))
    (hcall : ∀ database junk, call ≠ .runExecute database junk) :
    workerOf t = workerOf s ∧ o.filterMap nodeCall = [] := by
  obtain ⟨out, hwork, hconnect, rfl⟩ := besides_eq hstep
  unfold workerOf
  rw [hconnect, vecServerList_of_step hwork hcall]
  exact ⟨rfl, by simp [nodeCall]⟩

/-- What the worker does in a run of the whole is a run of the worker, with the same
calls. -/
theorem worker_of_connected {answers : ConnectAnswers}
    {h : List (ConnectedCall × List ConnectedEffect)} {s : ConnectedWork}
    (hrun : ConnectedRun answers h s) :
    ∃ k, WorkerRun answers k (workerOf s) ∧ outputs k = (outputs h).filterMap nodeCall := by
  induction hrun with
  | start => exact ⟨[], .start, rfl⟩
  | @next h u v call o hrun hstep ih =>
    obtain ⟨k, hworker, hout⟩ := ih
    rw [outputs_append, List.filterMap_append, ← hout, outputs_cons, outputs_nil,
      List.append_nil]
    have hidle : workerOf v = workerOf u ∧ o.filterMap nodeCall = [] →
        ∃ k', WorkerRun answers k' (workerOf v) ∧
          outputs k' = outputs k ++ o.filterMap nodeCall := by
      rintro ⟨hsame, hquiet⟩
      rw [hsame, hquiet, List.append_nil]
      exact ⟨k, hworker, rfl⟩
    cases call with
    | request => exact hidle (besides_worker hstep (by simp))
    | runTakeAll => exact hidle (besides_worker hstep (by simp))
    | getFinishDBWait => exact hidle (besides_worker hstep (by simp))
    | doLogic => exact hidle (besides_worker hstep (by simp))
    | runExecute answers =>
      unfold ConnectedWork.step at hstep
      cases hw : u.work.thread.worker with
      | takeAll => simp [hw] at hstep
      | execute tmp =>
        simp only [hw, Option.some.injEq, Prod.mk.injEq] at hstep
        obtain ⟨rfl, rfl⟩ := hstep
        obtain ⟨k', hall, hout'⟩ := exists_runs_executeAll answers tmp { u with work := { u.work
          with thread := { u.work.thread with
            vecWriteFinish := u.work.thread.vecWriteFinish ++ tmp, worker := .takeAll } } }
        refine ⟨k ++ k', hworker.trans hall, ?_⟩
        rw [outputs_append, hout', filterMap_nodeCall]

/-- In every run, whatever the connection and the statements come to: each result set that
is stored is freed once, and rows are fetched from it in between only. -/
theorem result_sets_freed {answers : ConnectAnswers}
    {h : List (ConnectedCall × List ConnectedEffect)} {s : ConnectedWork}
    (hrun : ConnectedRun answers h s) :
    WellUsed ∅ (resultUses ((outputs h).filterMap nodeCall)) ∧
      openAfter ∅ (resultUses ((outputs h).filterMap nodeCall)) = ∅ := by
  obtain ⟨k, hworker, hout⟩ := worker_of_connected hrun
  rw [← hout]
  apply hworker.invariant fun k _ => ResultsFreed (outputs k)
  · exact resultsFreed_nil
  · intro k worker e worker' o _ ih hstep
    rw [outputs_append, outputs_cons, outputs_nil, List.append_nil]
    apply ih.append
    cases hstep
    exact doDBSqlOn_resultsFreed e.answers worker.vecServerList worker.connect e.node

/-- A login whose first statement has a row, and whose second one stops at a row without
columns. -/
def fetchingCalls : List ConnectedCall :=
  [.request 5 (.login [65] [66] 0) ⟨0, 0, true⟩, .runTakeAll,
    .runExecute fun _ => ⟨⟨true, ⟨true, true, true⟩, true, some ⟨[fun _ => none], 1⟩⟩,
      ⟨true, ⟨true, true, true⟩, true, some ⟨[fun _ => none, fun _ => none], 0⟩⟩, 0⟩]

/-- A login whose two queries yield rows. -/
theorem result_sets_freed_login :
    ∃ h s, ConnectedRun ⟨true, true, true⟩ h s ∧ inputs h = fetchingCalls ∧
      WellUsed ∅ (resultUses ((outputs h).filterMap nodeCall)) ∧
      openAfter ∅ (resultUses ((outputs h).filterMap nodeCall)) = ∅ := by
  have hexec : (exec ConnectedWork.step (ConnectedWork.start ⟨true, true, true⟩)
      fetchingCalls).isSome = true := rfl
  obtain ⟨h, s, hrun, hin⟩ := exists_runs_of_exec hexec
  exact ⟨h, s, hrun, hin, result_sets_freed hrun⟩

/-! ## The handle of the connection -/

/-- What a call does with a handle of a connection. -/
def connectUse : NodeCall → List (HandleUse ℕ)
  | .connect call => handleUses call
  | .fieldCount tmpcon => [.uses tmpcon]
  | .stored _ => []
  | .fetchRow _ => []
  | .freeResult _ => []

def connectUses (calls : List NodeCall) : List (HandleUse ℕ) := calls.flatMap connectUse

/-- No calls use no connection. -/
@[simp] theorem connectUses_nil : connectUses [] = [] := rfl

/-- The uses of two lists of calls. -/
@[simp] theorem connectUses_append (calls calls' : List NodeCall) :
    connectUses (calls ++ calls') = connectUses calls ++ connectUses calls' :=
  List.flatMap_append

/-- The uses of the first call come first. -/
@[simp] theorem connectUses_cons (call : NodeCall) (calls : List NodeCall) :
    connectUses (call :: calls) = connectUse call ++ connectUses calls := List.flatMap_cons

/-- The calls of the connection use it as before. -/
@[simp] theorem connectUses_connect (calls : List MysqlCall) :
    connectUses (calls.map NodeCall.connect) = usesOf calls := by
  simp [connectUses, List.flatMap_map, connectUse, usesOf]

/-- The calls are right where the handles `opened` are open, and leave exactly the handle of
the connection open. -/
def ConnectRight (opened : Finset ℕ) (calls : List NodeCall) (db : DBConnect) : Prop :=
  WellUsed opened (connectUses calls) ∧ openAfter opened (connectUses calls) = held (some db)

section OneQuery

variable {db : DBConnect} {k : ℕ}

/-- A statement that keeps a connection keeps the handle if the ping was answered, and else
has opened another one. -/
theorem load_con_eq (hcon : db.con = some k) {answers : LoadAnswers}
    (hstays : StaysConnected answers) (sql : Option (List UInt8)) :
    ((db.loadtabledata sql answers).db.con = some k ↔ answers.ping = true) := by
  have hlt := db.con_lt k hcon
  rw [load_db (by simp [hcon])]
  unfold DBConnect.keepAlive
  cases hping : answers.ping with
  | true => simpa using hcon
  | false =>
    obtain ⟨hinit, hreal⟩ : Connects answers.reconnect := by
      simpa [StaysConnected, hping] using hstays
    have hclear := clear_con db
    have hhandles : db.clear.db.handles = db.handles := by simp [DBConnect.clear, hcon]
    simp only [DBConnect.init, hclear, hinit, hreal, hhandles]
    simp
    omega

/-- A query that fetches its handle first: its own calls come after those of the statement,
and are given the handle as it was before. -/
theorem connectRight_query_iff (hcon : db.con = some k) (sql : List UInt8)
    (answers : LoadAnswers) {calls own : List NodeCall}
    (hcalls : connectUses calls =
      usesOf (db.loadtabledata (some sql) answers).calls ++ connectUses own)
    (hown : ∀ use ∈ connectUses own, use = .uses (some k)) :
    ConnectRight (held (some db)) calls (db.loadtabledata (some sql) answers).db ↔
      StaysConnected answers ∧ (connectUses own ≠ [] → answers.ping = true) := by
  obtain ⟨hopen, hused⟩ := @uses_only_iff ℕ _
    (openAfter (held (some db)) (usesOf (db.loadtabledata (some sql) answers).calls)) k _ hown
  have hload := load_handles hcon (some sql) answers
  unfold ConnectRight HandlesRight at *
  rw [hcalls, wellUsed_append, openAfter_append, hopen, hused]
  constructor
  · rintro ⟨⟨hwell, hrest⟩, hheld⟩
    have hstays := hload.mp ⟨hwell, hheld⟩
    refine ⟨hstays, ?_⟩
    intro hne
    have hmem := hrest hne
    rw [hheld, held, Option.mem_toFinset] at hmem
    exact (load_con_eq hcon hstays (some sql)).mp hmem
  · rintro ⟨hstays, hping⟩
    obtain ⟨hwell, hheld⟩ := hload.mpr hstays
    refine ⟨⟨hwell, ?_⟩, hheld⟩
    intro hne
    rw [hheld, held, Option.mem_toFinset]
    exact (load_con_eq hcon hstays (some sql)).mpr (hping hne)

/-- The calls that a query makes for the rows. -/
def ownCalls (rows : Option (ℕ × ResultSet) → List NodeCall) (res : ℕ) :
    Option (Int × Option ResultSet) → List NodeCall
  | none => []
  | some (iret, mres) => if iret ≤ 0 then [] else rows (mres.map fun mres => (res, mres))

variable {α : Type} {connect : ThreadConnect}

/-- A query uses the connection as its `loadtabledata` does, and then for its own calls. -/
theorem query_connectUses (hcon : connect.db.con = some k) (sql : List UInt8)
    (answers : LoadAnswers) (noConn failed : α)
    (rows : Option ℕ → Option (ℕ × ResultSet) → α × List NodeCall) :
    connectUses (connect.query sql answers noConn failed rows).2.2 =
      usesOf (connect.db.loadtabledata (some sql) answers).calls ++
        connectUses (ownCalls (fun mres => (rows (some k) mres).2) connect.results
          (connect.db.loadtabledata (some sql) answers).result) := by
  obtain ⟨⟨iret, mres⟩, hresult⟩ :=
    Option.ne_none_iff_exists'.mp (load_result_ne_none connect.db sql answers)
  cases mres with
  | none =>
    by_cases hiret : iret ≤ 0 <;>
      simp [ThreadConnect.query, ownCalls, hcon, hresult, hiret]
  | some mres =>
    by_cases hiret : iret ≤ 0 <;>
      simp [ThreadConnect.query, ownCalls, hcon, hresult, hiret, connectUse]

/-- The query's own calls use the connection that it took at first. -/
theorem ownCalls_uses (answers : LoadAnswers) (sql : List UInt8)
    {rows : Option (ℕ × ResultSet) → List NodeCall}
    (hrows : ∀ mres, ∀ use ∈ connectUses (rows mres), use = .uses (some k)) :
    ∀ use ∈ connectUses (ownCalls rows connect.results
      (connect.db.loadtabledata (some sql) answers).result), use = .uses (some k) := by
  unfold ownCalls
  split
  · simp
  · split_ifs
    · simp
    · exact hrows _

/-- A query is right exactly if the connection stays, and answers the ping where the query has
calls of its own. -/
theorem query_connectRight_iff (hcon : connect.db.con = some k) (sql : List UInt8)
    (answers : LoadAnswers) (noConn failed : α)
    (rows : Option ℕ → Option (ℕ × ResultSet) → α × List NodeCall)
    (hrows : ∀ mres, ∀ use ∈ connectUses (rows (some k) mres).2, use = .uses (some k)) :
    ConnectRight (held (some connect.db)) (connect.query sql answers noConn failed rows).2.2
        (connect.query sql answers noConn failed rows).2.1.db ↔
      StaysConnected answers ∧
        (connectUses (ownCalls (fun mres => (rows (some k) mres).2) connect.results
          (connect.db.loadtabledata (some sql) answers).result) ≠ [] → answers.ping = true) := by
  rw [query_db]
  exact connectRight_query_iff hcon sql answers (query_connectUses hcon ..)
    (ownCalls_uses answers sql hrows)

/-- Where the connection lasts, its handle is the one that is open after the query, right or
not. -/
theorem openAfter_query (hcon : connect.db.con = some k) (sql : List UInt8)
    (answers : LoadAnswers) (hstays : StaysConnected answers) (noConn failed : α)
    (rows : Option ℕ → Option (ℕ × ResultSet) → α × List NodeCall)
    (hrows : ∀ mres, ∀ use ∈ connectUses (rows (some k) mres).2, use = .uses (some k)) :
    openAfter (held (some connect.db))
        (connectUses (connect.query sql answers noConn failed rows).2.2) =
      held (some (connect.query sql answers noConn failed rows).2.1.db) := by
  rw [query_db, query_connectUses hcon, openAfter_append,
    (uses_only_iff (ownCalls_uses answers sql hrows)).1]
  exact ((load_handles hcon (some sql) answers).mpr hstays).2

/-- A query that counts no columns. -/
theorem plain_connectRight_iff (hcon : connect.db.con = some k) (sql : List UInt8)
    (answers : LoadAnswers) (noConn failed : α)
    (rows : Option ℕ → Option (ℕ × ResultSet) → α × List NodeCall)
    (hrows : ∀ mres, connectUses (rows (some k) mres).2 = []) :
    ConnectRight (held (some connect.db)) (connect.query sql answers noConn failed rows).2.2
        (connect.query sql answers noConn failed rows).2.1.db ↔ StaysConnected answers := by
  rw [query_connectRight_iff hcon sql answers noConn failed rows (by simp [hrows])]
  apply and_iff_left
  intro hne
  apply absurd _ hne
  unfold ownCalls
  split
  · rfl
  · split_ifs
    · rfl
    · exact hrows _

/-- A row is fetched of what the statement answers. -/
def RowArrives (answers : LoadAnswers) : Prop :=
  answers.realQuery = true ∧ ∃ mres, answers.storeResult = some mres ∧ mres.rows ≠ []

/-- The queries of a login count the columns with the handle they had before. -/
def KeepsHandle (answers : LoadAnswers) : Prop :=
  StaysConnected answers ∧ (RowArrives answers → answers.ping = true)

/-- What a statement that begins with an `s` returns on a connection that lasts. -/
theorem load_result_select {db : DBConnect} (hcon : db.con ≠ none) {answers : LoadAnswers}
    (hstays : StaysConnected answers) {sql : List UInt8} (hsql : sql.head? = some 115) :
    (db.loadtabledata (some sql) answers).result =
      some (if answers.realQuery = false then (-2, none)
        else answers.storeResult.elim (-3, none) fun mres => (1, some mres)) := by
  have hresult := (keepAlive_spec hcon answers).2.mpr hstays
  unfold DBConnect.loadtabledata
  rw [if_neg hcon]
  dsimp only
  rw [if_neg hresult]
  simp only [DBConnect.runQuery, DBConnect.storeResult, hsql]
  cases answers.realQuery with
  | false => rfl
  | true =>
    cases answers.storeResult with
    | none => simp [ascii]
    | some mres => simp [ascii]

/-- A query that counts the columns of the rows it fetches. -/
theorem select_connectRight_iff (hcon : connect.db.con = some k) {sql : List UInt8}
    (hsql : sql.head? = some 115) (answers : LoadAnswers) (noConn failed : α)
    (rows : Option ℕ → Option (ℕ × ResultSet) → α × List NodeCall)
    (hrows : ∀ mres, ∀ use ∈ connectUses (rows (some k) mres).2, use = .uses (some k))
    (hsome : ∀ res mres, connectUses (rows (some k) (some (res, mres))).2 ≠ [] ↔ mres.rows ≠ []) :
    ConnectRight (held (some connect.db)) (connect.query sql answers noConn failed rows).2.2
        (connect.query sql answers noConn failed rows).2.1.db ↔ KeepsHandle answers := by
  rw [query_connectRight_iff hcon sql answers noConn failed rows hrows]
  apply and_congr_right
  intro hstays
  apply imp_congr_left
  rw [load_result_select (by simp [hcon]) hstays hsql]
  unfold RowArrives
  cases answers.realQuery with
  | false => simp [ownCalls]
  | true =>
    cases answers.storeResult with
    | none => simp [ownCalls]
    | some mres => simpa [ownCalls] using hsome connect.results mres

end OneQuery

/-! ## One node -/

/-- A connection that there is lasts, and the handle of a login lasts where it is used
again. -/
def Steady (connect : ThreadConnect) (e : NodeExecution) : Prop :=
  connect.db.con ≠ none →
    match e.node with
    | .register node => node.strAccount.length ≤ 20 → StaysConnected e.answers.first
    | .login _ => KeepsHandle e.answers.first ∧ KeepsHandle e.answers.second

/-- No calls leave the connection as it is. -/
theorem connectRight_nil (db : DBConnect) : ConnectRight (held (some db)) [] db := ⟨trivial, rfl⟩

/-- Calls behind right ones start from the connection that these leave. -/
theorem ConnectRight.append_iff {opened : Finset ℕ} {calls calls' : List NodeCall}
    {db db' : DBConnect} (h : ConnectRight opened calls db) :
    ConnectRight opened (calls ++ calls') db' ↔ ConnectRight (held (some db)) calls' db' := by
  unfold ConnectRight
  rw [connectUses_append, wellUsed_append, openAfter_append, h.2]
  simp [h.1]

/-- When the insertion of an account handles its connection right. -/
theorem checkAndInsert_connectRight_iff {connect : ThreadConnect} {k : ℕ}
    (hcon : connect.db.con = some k) (answers : LoadAnswers) (junk : Int)
    (strAccount strPassword : List UInt8) :
    let r := connect.checkAndInsertAccountAndPasswd answers junk strAccount strPassword
    ConnectRight (held (some connect.db)) r.2.2 r.2.1.db ↔
      (strAccount.length ≤ 20 → StaysConnected answers) := by
  intro r
  unfold r ThreadConnect.checkAndInsertAccountAndPasswd
  split_ifs with hlong
  · exact iff_of_true (connectRight_nil _) fun hshort => absurd hshort (by omega)
  · rw [plain_connectRight_iff hcon]
    · exact ⟨fun hstays _ => hstays, fun hstays => hstays (by omega)⟩
    · rintro (_ | ⟨res, _ | ⟨row, rows⟩, fieldCount⟩) <;> rfl

/-- The check of a login uses the connection that it took. -/
theorem checkLoginData_uses (tmpcon : Option ℕ) (mres : Option (ℕ × ResultSet)) :
    ∀ use ∈ connectUses (ThreadConnect.checkLoginRows tmpcon mres).2, use = .uses tmpcon := by
  obtain _ | ⟨res, _ | ⟨row, rows⟩, fieldCount⟩ := mres <;>
    simp [ThreadConnect.checkLoginRows, connectUse]

/-- When the check of a login handles its connection right. -/
theorem checkLoginData_connectRight_iff {connect : ThreadConnect} {k : ℕ}
    (hcon : connect.db.con = some k) (answers : LoadAnswers)
    (strAccount strPassword : List UInt8) :
    let r := connect.checkLoginData answers strAccount strPassword
    ConnectRight (held (some connect.db)) r.2.2 r.2.1.db ↔ KeepsHandle answers := by
  have hsql : (cString (CLoginWaitNode.checkLoginSql strAccount strPassword)).head? =
      some 115 := by
    unfold CLoginWaitNode.checkLoginSql
    simp only [List.append_assoc]
    rw [cString_append (by decide)]
    rfl
  apply select_connectRight_iff hcon hsql
  · exact checkLoginData_uses (some k)
  · rintro res ⟨_ | ⟨row, rows⟩, fieldCount⟩ <;> simp [ThreadConnect.checkLoginRows, connectUse]

/-- The loop over the rows uses the connection that it took, once there is a row. -/
theorem connectUses_fetchCalls (res : ℕ) (tmpcon : Option ℕ) (fieldCount : UInt32)
    (rows : List MysqlRow) :
    (∀ use ∈ connectUses (ThreadConnect.fetchCalls res tmpcon fieldCount rows),
        use = .uses tmpcon) ∧
      (connectUses (ThreadConnect.fetchCalls res tmpcon fieldCount rows) ≠ [] ↔ rows ≠ []) := by
  induction rows with
  | nil => simp [ThreadConnect.fetchCalls, connectUse]
  | cons row rows ih =>
    unfold ThreadConnect.fetchCalls
    split_ifs
    · simp [connectUse]
    · refine ⟨?_, by simp [connectUse]⟩
      simpa [connectUse] using ih.1

/-- When the query of the server list handles its connection right. -/
theorem getAllPerganaFromSql_connectRight_iff {connect : ThreadConnect} {k : ℕ}
    (hcon : connect.db.con = some k) (answers : LoadAnswers) (junk : Int)
    (vecServerList : List ServerData) :
    let r := connect.getAllPerganaFromSql answers junk vecServerList
    ConnectRight (held (some connect.db)) r.2.2 r.2.1.db ↔ KeepsHandle answers := by
  apply select_connectRight_iff hcon rfl
  · rintro (_ | ⟨res, mres⟩)
    · simp [ThreadConnect.serverRows]
    · exact (connectUses_fetchCalls res (some k) mres.fieldCount mres.rows).1
  · rintro res mres
    exact (connectUses_fetchCalls res (some k) mres.fieldCount mres.rows).2

/-- The check of a login leaves a connection exactly if it stays. -/
theorem checkLoginData_con {connect : ThreadConnect} {k : ℕ} (hcon : connect.db.con = some k)
    (answers : LoadAnswers) (strAccount strPassword : List UInt8) :
    (connect.checkLoginData answers strAccount strPassword).2.1.db.con ≠ none ↔
      StaysConnected answers := by
  rw [ThreadConnect.checkLoginData, query_db, load_con, hcon]
  simp

/-- The two queries of a login.  Where the connection is lost at the first one, there is
nothing that the second one could make right. -/
theorem login_connectRight_iff {connect : ThreadConnect} {k : ℕ}
    (hcon : connect.db.con = some k) (answers : NodeAnswers) (vecServerList : List ServerData)
    (node : CLoginWaitNode) :
    ConnectRight (held (some connect.db))
        ((WaitNode.login node).doDBSqlOn answers vecServerList connect).calls
        ((WaitNode.login node).doDBSqlOn answers vecServerList connect).connect.db ↔
      Steady connect ⟨.login node, answers⟩ := by
  have hfirst := checkLoginData_connectRight_iff hcon answers.first node.strAccount
    node.strPassword
  have hcon' := checkLoginData_con hcon answers.first node.strAccount node.strPassword
  have hopen : StaysConnected answers.first → openAfter (held (some connect.db))
      (connectUses
        (connect.checkLoginData answers.first node.strAccount node.strPassword).2.2) =
      held (some
        (connect.checkLoginData answers.first node.strAccount node.strPassword).2.1.db) :=
    fun hstays => openAfter_query hcon _ answers.first hstays false false
      ThreadConnect.checkLoginRows (checkLoginData_uses (some k))
  have hne : connect.db.con ≠ none := by simp [hcon]
  simp only [WaitNode.doDBSqlOn, Steady, hne, ne_eq, not_false_eq_true, true_implies]
  dsimp only at hfirst
  generalize connect.checkLoginData answers.first node.strAccount node.strPassword = checked at *
  rw [← hfirst]
  by_cases hstays : StaysConnected answers.first
  · obtain ⟨k', hk'⟩ := Option.ne_none_iff_exists'.mp (hcon'.mpr hstays)
    have hsecond := getAllPerganaFromSql_connectRight_iff hk' answers.second answers.junk
      vecServerList
    dsimp only at hsecond
    rw [← hsecond]
    constructor
    · intro hright
      have hwell := hright.1
      rw [connectUses_append, wellUsed_append] at hwell
      have hchecked : ConnectRight (held (some connect.db)) checked.2.2 checked.2.1.db :=
        ⟨hwell.1, hopen hstays⟩
      exact ⟨hchecked, hchecked.append_iff.mp hright⟩
    · rintro ⟨hchecked, hlisted⟩
      exact hchecked.append_iff.mpr hlisted
  · have hlost : checked.2.1.db.con = none := not_not.mp fun hsome => hstays (hcon'.mp hsome)
    rw [ThreadConnect.getAllPerganaFromSql, query_of_lost hlost]
    dsimp only
    rw [List.append_nil]
    have hnot : ¬ConnectRight (held (some connect.db)) checked.2.2 checked.2.1.db := by
      rw [hfirst]
      exact fun hkeeps => hstays hkeeps.1
    simp [hnot]

/-- One node: its calls are right, and leave exactly the handle of the connection open, if
and only if the node finds the connection steady. -/
theorem doDBSqlOn_connectRight_iff (answers : NodeAnswers) (vecServerList : List ServerData)
    (connect : ThreadConnect) (node : WaitNode) :
    ConnectRight (held (some connect.db)) (node.doDBSqlOn answers vecServerList connect).calls
        (node.doDBSqlOn answers vecServerList connect).connect.db ↔
      Steady connect ⟨node, answers⟩ := by
  cases hcon : connect.db.con with
  | none =>
    obtain ⟨-, -, hconnect, hcalls⟩ := doDBSqlOn_of_lost hcon answers vecServerList node
    rw [hconnect, hcalls]
    exact iff_of_true (connectRight_nil _) fun hne => absurd hcon hne
  | some k =>
    have hne : connect.db.con ≠ none := by simp [hcon]
    cases node with
    | register node =>
      have hquery := checkAndInsert_connectRight_iff hcon answers.first answers.junk
        node.strAccount node.strPassword
      simpa [WaitNode.doDBSqlOn, Steady, hne] using hquery
    | login node =>
      exact login_connectRight_iff hcon answers vecServerList node

/-! ## Over a run of the worker -/

/-- The calls of `GetInstance`, when the connection is made. -/
def startCalls (answers : ConnectAnswers) : List NodeCall :=
  (DBConnect.new.init (ascii "127.0.0.1") (ascii "daypet") answers).calls.map NodeCall.connect

/-- The handles that are open after a run. -/
def openConnections (answers : ConnectAnswers) (h : List (NodeExecution × List NodeCall)) :
    Finset ℕ :=
  openAfter ∅ (connectUses (startCalls answers ++ outputs h))

/-- `GetInstance` and each node after it give open handles to the library, and leave exactly
the handle of the connection open. -/
def WorkerHandlesRight (answers : ConnectAnswers) (h : List (NodeExecution × List NodeCall)) :
    Prop :=
  ConnectRight ∅ (startCalls answers) (ThreadConnect.start answers).db ∧
    AtEach (fun before op => ∀ worker, WorkerRun answers (before ++ [op]) worker →
      ConnectRight (openConnections answers before) op.2 worker.connect.db) h

/-- The connection is made, and each node finds it steady. -/
def SteadyRun (answers : ConnectAnswers) (h : List (NodeExecution × List NodeCall)) : Prop :=
  Connects answers ∧
    AtEach (fun before op => ∀ worker, WorkerRun answers before worker →
      Steady worker.connect op.1) h

/-- The first connection is right exactly if it succeeds. -/
theorem startCalls_right_iff (answers : ConnectAnswers) :
    ConnectRight ∅ (startCalls answers) (ThreadConnect.start answers).db ↔ Connects answers := by
  rw [← @init_handles DBConnect.new rfl (ascii "127.0.0.1") (ascii "daypet") answers]
  unfold ConnectRight HandlesRight startCalls
  rw [connectUses_connect]
  rfl

/-- Where the handles are right, the one open is the one held. -/
theorem openConnections_eq_held {answers : ConnectAnswers}
    {h : List (NodeExecution × List NodeCall)} {worker : Worker}
    (hrun : WorkerRun answers h worker) (hright : WorkerHandlesRight answers h) :
    openConnections answers h = held (some worker.connect.db) := by
  rcases List.eq_nil_or_concat h with rfl | ⟨before, op, rfl⟩
  · rw [hrun.eq_of_nil, openConnections, outputs_nil, List.append_nil]
    exact hright.1.2
  · rw [List.concat_eq_append] at hrun hright ⊢
    have hlast := (atEach_concat _ before op).mp hright.2
    have hopen := (hlast.2 worker hrun).2
    obtain ⟨e, o⟩ := op
    rw [openConnections, outputs_append, outputs_cons, outputs_nil, List.append_nil,
      ← List.append_assoc, connectUses_append, openAfter_append]
    exact hopen

/-- The law of the connection handles holds in a run of the worker exactly if the run is
steady.  By induction on the run, the law for the nodes before one giving what is open when
it starts. -/
theorem worker_handles_right_iff {answers : ConnectAnswers}
    {h : List (NodeExecution × List NodeCall)} {worker : Worker}
    (hrun : WorkerRun answers h worker) :
    WorkerHandlesRight answers h ↔ SteadyRun answers h := by
  induction hrun with
  | start =>
    unfold WorkerHandlesRight SteadyRun
    rw [startCalls_right_iff]
    exact and_congr_right fun _ => iff_of_true (atEach_nil _) (atEach_nil _)
  | @next h u v e o hrun hstep ih =>
    have hsplit : WorkerHandlesRight answers (h ++ [(e, o)]) ↔ WorkerHandlesRight answers h ∧
        ConnectRight (openConnections answers h) o v.connect.db := by
      unfold WorkerHandlesRight
      rw [atEach_concat, and_assoc]
      apply and_congr_right
      intro _
      apply and_congr_right
      intro _
      constructor
      · intro hlast
        exact hlast v (hrun.next hstep)
      · intro hlast w hw
        rw [hw.state_unique (hrun.next hstep)]
        exact hlast
    have hsteady : SteadyRun answers (h ++ [(e, o)]) ↔ SteadyRun answers h ∧
        Steady u.connect e := by
      unfold SteadyRun
      rw [atEach_concat, and_assoc]
      apply and_congr_right
      intro _
      apply and_congr_right
      intro _
      constructor
      · intro hlast
        exact hlast u hrun
      · intro hlast w hw
        rw [hw.state_unique hrun]
        exact hlast
    rw [hsplit, hsteady, ← ih]
    apply and_congr_right
    intro hright
    rw [openConnections_eq_held hrun hright]
    simp only [Worker.step, Option.some.injEq, Prod.mk.injEq] at hstep
    obtain ⟨rfl, rfl⟩ := hstep
    exact doDBSqlOn_connectRight_iff e.answers u.vecServerList u.connect e.node

/-- A login that reconnects at its first statement and is given a row. -/
def reconnectingLogin : NodeExecution where
  node := .login (CLoginWaitNode.new [65] [66] 0 0 false)
  answers := ⟨⟨false, ⟨true, true, true⟩, true, some ⟨[fun _ => none], 1⟩⟩,
    ⟨true, ⟨true, true, true⟩, true, none⟩, 0⟩

/-- The columns of the row are counted with a handle that has been closed. -/
theorem worker_handles_right_iff_reconnecting :
    ∃ h worker, WorkerRun ⟨true, true, true⟩ h worker ∧ inputs h = [reconnectingLogin] ∧
      (WorkerHandlesRight ⟨true, true, true⟩ h ↔ SteadyRun ⟨true, true, true⟩ h) ∧
      ¬SteadyRun ⟨true, true, true⟩ h := by
  obtain ⟨h, worker, hrun, hin⟩ : ∃ h worker, WorkerRun ⟨true, true, true⟩ h worker ∧
      inputs h = [reconnectingLogin] := ⟨_, _, Runs.start.next rfl, rfl⟩
  refine ⟨h, worker, hrun, hin, worker_handles_right_iff hrun, ?_⟩
  intro hsteady
  obtain ⟨o, k, t, rfl, -, -, -⟩ := hrun.first_of_inputs hin
  have hfirst : Steady (ThreadConnect.start ⟨true, true, true⟩) reconnectingLogin :=
    hsteady.2 [] (reconnectingLogin, o) k rfl _ .start
  obtain ⟨⟨-, hping⟩, -⟩ := hfirst (by simp [ThreadConnect.start, DBConnect.new, DBConnect.init])
  have hrow : RowArrives reconnectingLogin.answers.first :=
    ⟨rfl, _, rfl, List.cons_ne_nil _ _⟩
  have hfalse : reconnectingLogin.answers.first.ping = true := hping hrow
  cases hfalse

end ShootGame.Analysis
