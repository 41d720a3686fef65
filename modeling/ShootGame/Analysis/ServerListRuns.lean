import ShootGame.Library.Machine
import ShootGame.Model.WaitNodes

/-!
# The server list over many logins

`g_vecServerList` outlives the nodes, and `DoDBSql` only appends to it: after any logins
it holds the rows that all of them fetched (`listAfter_eq`), and not those of the last
result set alone.

A row is read at fixed columns, and what stands behind its last one is no part of it.  The
functions below keep a record of the columns beside what the code computes, and a list
counts as that of the table only where all of them were there.
-/

set_option autoImplicit false

namespace ShootGame.Analysis

open ShootGame.Library ShootGame.Model

/-! ## The columns of a row -/

/-- `row[j]` compared with the null pointer, and looked at again where it is not null. -/
def readColumn (row : MysqlRow) (j : ℕ) : Option (List UInt8) × List ℕ :=
  (row j, if (row j).isSome then [j, j] else [j])

/-- The entry made of a row, with the indices of the columns. -/
def tracedRow (row : MysqlRow) : ServerData × List ℕ :=
  let id := readColumn row 0
  let name := readColumn row 1
  let ip := readColumn row 2
  let port := readColumn row 3
  let state := readColumn row 7
  ({ dwID := id.1.elim 0 fun s => UInt32.ofInt (atoi s)
     strName := name.1.getD []
     strIP := ip.1.getD []
     wPort := port.1.elim 0 fun s => UInt16.ofInt (atoi s)
     byState := state.1.elim 0 fun s => UInt8.ofInt (atoi s) },
    id.2 ++ name.2 ++ ip.2 ++ port.2 ++ state.2)

/-- `fetchLoop`, with the indices of the columns. -/
def tracedLoop (fieldCount : UInt32) : List MysqlRow → Cell Int → List ServerData →
    (Cell Int × List ServerData) × List ℕ
  | [], iFeildCount, vecServerList => ((iFeildCount, vecServerList), [])
  | row :: rows, _, vecServerList =>
    let iFeildCount := toInt fieldCount.toNat
    if iFeildCount ≤ 0 then ((.assigned 0, vecServerList), [])
    else
      let serverData := tracedRow row
      let r := tracedLoop fieldCount rows (.assigned iFeildCount) (vecServerList ++ [serverData.1])
      (r.1, serverData.2 ++ r.2)

/-- `getAllPerganaFromSql`, with the indices of the columns. -/
def tracedGetAll (database : List UInt8 → DBAnswer) (junk : Int)
    (vecServerList : List ServerData) : (Cell Int × List ServerData) × List ℕ :=
  let answer := database (cString CLoginWaitNode.serverListSql)
  if answer.conn = false then ((.assigned 0, vecServerList), [])
  else if answer.iret ≤ 0 then ((.assigned 0, vecServerList), [])
  else
    match answer.mres with
    | none => ((.unset junk, vecServerList), [])
    | some mres => tracedLoop mres.fieldCount mres.rows (.unset junk) vecServerList

/-- Keeping the record changes no entry. -/
theorem tracedRow_fst (row : MysqlRow) : (tracedRow row).1 = ServerData.ofRow row := rfl

/-- Nor what the loop computes. -/
theorem tracedLoop_fst (fieldCount : UInt32) (rows : List MysqlRow) (iFeildCount : Cell Int)
    (vecServerList : List ServerData) :
    (tracedLoop fieldCount rows iFeildCount vecServerList).1 =
      CLoginWaitNode.fetchLoop fieldCount rows iFeildCount vecServerList := by
  induction rows generalizing iFeildCount vecServerList with
  | nil => rfl
  | cons row rows ih =>
    rw [tracedLoop, CLoginWaitNode.fetchLoop]
    dsimp only
    split
    · rfl
    · rw [ih, tracedRow_fst]

/-- The record does not change what is computed. -/
theorem tracedGetAll_fst (database : List UInt8 → DBAnswer) (junk : Int)
    (vecServerList : List ServerData) :
    (tracedGetAll database junk vecServerList).1 =
      CLoginWaitNode.getAllPerganaFromSql database junk vecServerList := by
  unfold tracedGetAll CLoginWaitNode.getAllPerganaFromSql
  dsimp only
  split
  · rfl
  · split
    · rfl
    · cases (database (cString CLoginWaitNode.serverListSql)).mres with
      | none => rfl
      | some mres => exact tracedLoop_fst _ _ _ _

/-- Every row needs eight columns. -/
theorem tracedRow_below_iff (row : MysqlRow) (n : ℕ) :
    (∀ j ∈ (tracedRow row).2, j < n) ↔ 8 ≤ n := by
  have hcolumn : ∀ j, (∀ k ∈ (readColumn row j).2, k < n) ↔ j < n := by
    intro j
    unfold readColumn
    dsimp only
    split <;> simp
  unfold tracedRow
  dsimp only
  simp only [List.forall_mem_append, hcolumn]
  omega

/-- The columns looked at are below `n` exactly if there are eight of them, or no row. -/
theorem tracedLoop_below_iff {fieldCount : UInt32} (hcount : 0 < toInt fieldCount.toNat)
    (rows : List MysqlRow) (iFeildCount : Cell Int) (vecServerList : List ServerData) (n : ℕ) :
    (∀ j ∈ (tracedLoop fieldCount rows iFeildCount vecServerList).2, j < n) ↔
      (rows ≠ [] → 8 ≤ n) := by
  induction rows generalizing iFeildCount vecServerList with
  | nil => simp [tracedLoop]
  | cons row rows ih =>
    rw [tracedLoop]
    dsimp only
    rw [if_neg (not_le.mpr hcount), List.forall_mem_append, tracedRow_below_iff, ih]
    simp only [ne_eq, reduceCtorEq, not_false_eq_true, true_imp_iff]
    exact and_iff_left_of_imp fun h _ => h

/-- Where the query succeeds, the columns are those that the loop looks at. -/
theorem tracedGetAll_of_answer {database : List UInt8 → DBAnswer} {iret : Int}
    {rows : List MysqlRow} {fieldCount : UInt32} (junk : Int) (vecServerList : List ServerData)
    (hanswer : database (cString CLoginWaitNode.serverListSql) =
      ⟨true, iret, some ⟨rows, fieldCount⟩⟩)
    (hiret : 0 < iret) :
    tracedGetAll database junk vecServerList =
      tracedLoop fieldCount rows (.unset junk) vecServerList := by
  unfold tracedGetAll
  rw [hanswer]
  dsimp only
  rw [if_neg (by simp), if_neg (by omega)]

/-! ## Executions -/

/-- One execution of `CLoginWaitNode::DoDBSql`, with what the database answers then. -/
structure LoginExecution where
  node : CLoginWaitNode
  database : List UInt8 → DBAnswer
  junk : Int

namespace LoginExecution

/-- `g_vecServerList` after the execution. -/
def run (vecServerList : List ServerData) (e : LoginExecution) : List ServerData :=
  (e.node.doDBSql e.database e.junk vecServerList).2

/-- The server-list query has these rows as its result set.  A result set has a column. -/
def Succeeds (e : LoginExecution) (rows : List MysqlRow) : Prop :=
  ∃ iret fieldCount,
    e.database (cString CLoginWaitNode.serverListSql) = ⟨true, iret, some ⟨rows, fieldCount⟩⟩ ∧
      0 < iret ∧ 0 < toInt fieldCount.toNat

/-- The rows that `GetAllPerganaFromSql` makes entries of. -/
def fetchedRows (e : LoginExecution) : List MysqlRow :=
  match e.database (cString CLoginWaitNode.serverListSql) with
  | ⟨true, iret, some ⟨rows, fieldCount⟩⟩ =>
    if 0 < iret ∧ 0 < toInt fieldCount.toNat then rows else []
  | _ => []

/-- The number of columns of the result set. -/
def columns (e : LoginExecution) : ℕ :=
  (e.database (cString CLoginWaitNode.serverListSql)).mres.elim 0 fun mres =>
    mres.fieldCount.toNat

/-- The execution looks at no column that its rows do not have. -/
def ReadsInside (e : LoginExecution) (vecServerList : List ServerData) : Prop :=
  ∀ j ∈ (tracedGetAll e.database e.junk vecServerList).2, j < e.columns

end LoginExecution

/-- `g_vecServerList` after the executions. -/
def listAfter (execs : List LoginExecution) : List ServerData := execs.foldl LoginExecution.run []

/-! ## One execution -/

/-- The loop appends an entry for each row. -/
theorem fetchLoop_list (fieldCount : UInt32) (rows : List MysqlRow) (iFeildCount : Cell Int)
    (vecServerList : List ServerData) (hcount : 0 < toInt fieldCount.toNat) :
    (CLoginWaitNode.fetchLoop fieldCount rows iFeildCount vecServerList).2 =
      vecServerList ++ rows.map ServerData.ofRow := by
  induction rows generalizing iFeildCount vecServerList with
  | nil => simp [CLoginWaitNode.fetchLoop]
  | cons row rows ih =>
    have hnot : ¬toInt fieldCount.toNat ≤ 0 := not_le.mpr hcount
    rw [CLoginWaitNode.fetchLoop, if_neg hnot, ih, List.append_assoc, List.singleton_append,
      List.map_cons]

/-- Without a column, the loop stops at the first row. -/
theorem fetchLoop_list_of_no_column (fieldCount : UInt32) (rows : List MysqlRow)
    (iFeildCount : Cell Int) (vecServerList : List ServerData)
    (hcount : ¬0 < toInt fieldCount.toNat) :
    (CLoginWaitNode.fetchLoop fieldCount rows iFeildCount vecServerList).2 = vecServerList := by
  cases rows with
  | nil => rfl
  | cons row rows =>
    rw [CLoginWaitNode.fetchLoop, if_pos (not_lt.mp hcount)]

/-- An execution appends what it fetched. -/
theorem run_eq (e : LoginExecution) (vecServerList : List ServerData) :
    e.run vecServerList = vecServerList ++ e.fetchedRows.map ServerData.ofRow := by
  unfold LoginExecution.run CLoginWaitNode.doDBSql CLoginWaitNode.getAllPerganaFromSql
    LoginExecution.fetchedRows
  obtain ⟨conn, iret, mres⟩ := e.database (cString CLoginWaitNode.serverListSql)
  cases conn with
  | false => simp
  | true =>
    by_cases hiret : 0 < iret
    · cases mres with
      | none => simp [show ¬iret ≤ 0 by omega]
      | some mres =>
        obtain ⟨rows, fieldCount⟩ := mres
        by_cases hcount : 0 < toInt fieldCount.toNat
        · simp [show ¬iret ≤ 0 by omega, hiret, hcount, fetchLoop_list]
        · simp [show ¬iret ≤ 0 by omega, hcount, fetchLoop_list_of_no_column]
    · cases mres <;> simp [show iret ≤ 0 by omega, hiret]

/-- A query that succeeds has its rows fetched. -/
theorem fetchedRows_of_succeeds {e : LoginExecution} {rows : List MysqlRow}
    (h : e.Succeeds rows) : e.fetchedRows = rows := by
  obtain ⟨iret, fieldCount, hanswer, hiret, hcount⟩ := h
  unfold LoginExecution.fetchedRows
  rw [hanswer]
  simp [hiret, hcount]

/-- Rows come from a query that succeeds. -/
theorem succeeds_of_fetchedRows {e : LoginExecution} (h : e.fetchedRows ≠ []) :
    e.Succeeds e.fetchedRows := by
  unfold LoginExecution.fetchedRows at h ⊢
  split at h
  · rename_i iret rows fieldCount hanswer
    split_ifs at h with hpos
    · refine ⟨iret, fieldCount, ?_, hpos⟩
      rw [hanswer]
      simp [hpos]
    · exact absurd rfl h
  · exact absurd rfl h

/-- Any row needs eight columns. -/
theorem readsInside_iff {e : LoginExecution} {rows : List MysqlRow} (h : e.Succeeds rows)
    (vecServerList : List ServerData) :
    e.ReadsInside vecServerList ↔ (rows ≠ [] → 8 ≤ e.columns) := by
  obtain ⟨iret, fieldCount, hanswer, hiret, hcount⟩ := h
  unfold LoginExecution.ReadsInside LoginExecution.columns
  rw [tracedGetAll_of_answer e.junk vecServerList hanswer hiret, hanswer]
  exact tracedLoop_below_iff hcount rows _ vecServerList _

/-! ## A run of executions -/

/-- The list after any executions, by induction on the last one. -/
theorem listAfter_eq (execs : List LoginExecution) :
    listAfter execs = execs.flatMap fun e => e.fetchedRows.map ServerData.ofRow := by
  induction execs using List.reverseRecOn with
  | nil => rfl
  | append_singleton execs e ih =>
    rw [listAfter, List.foldl_concat, ← listAfter, ih, run_eq, List.flatMap_append]
    simp

/-- After each execution whose query succeeds the list has the rows of its result set, read
at columns that they have. -/
def MirrorsTable (execs : List LoginExecution) : Prop :=
  AtEach (fun before e => ∀ rows, e.Succeeds rows →
    e.ReadsInside (listAfter before) ∧
      listAfter (before ++ [e]) = rows.map ServerData.ofRow) execs

/-- Every result set that has a row has eight columns. -/
def RowsWide (execs : List LoginExecution) : Prop :=
  ∀ e ∈ execs, ∀ rows, e.Succeeds rows → rows ≠ [] → 8 ≤ e.columns

/-- No execution got a row before one whose query succeeds. -/
def NoRowsBeforeSuccess (execs : List LoginExecution) : Prop :=
  AtEach (fun before e => (∃ rows, e.Succeeds rows) →
    ∀ e' ∈ before, ∀ rows', e'.Succeeds rows' → rows' = []) execs

/-- After a success the list is that of the table exactly if it was empty before. -/
theorem listAfter_concat_of_succeeds {before : List LoginExecution} {e : LoginExecution}
    {rows : List MysqlRow} (h : e.Succeeds rows) :
    listAfter (before ++ [e]) = rows.map ServerData.ofRow ↔ listAfter before = [] := by
  rw [listAfter, List.foldl_concat, ← listAfter, run_eq, fetchedRows_of_succeeds h,
    List.append_left_eq_self]

/-- The list is empty exactly if no query that succeeded had a row. -/
theorem listAfter_eq_nil_iff (execs : List LoginExecution) :
    listAfter execs = [] ↔ ∀ e ∈ execs, ∀ rows, e.Succeeds rows → rows = [] := by
  rw [listAfter_eq, List.flatMap_eq_nil_iff]
  constructor
  · intro hnil e he rows hsucceeds
    rw [← fetchedRows_of_succeeds hsucceeds]
    exact List.map_eq_nil_iff.mp (hnil e he)
  · intro hnone e he
    by_contra hrows
    rw [List.map_eq_nil_iff] at hrows
    exact hrows (hnone e he _ (succeeds_of_fetchedRows hrows))

/-- The list mirrors the table until the second success after a row, and only if no result
set has rows of fewer than eight columns. -/
theorem mirrorsTable_iff (execs : List LoginExecution) :
    MirrorsTable execs ↔ RowsWide execs ∧ NoRowsBeforeSuccess execs := by
  constructor
  · intro hmirrors
    constructor
    · intro e hmem rows hsucceeds
      obtain ⟨before, after, hsplit⟩ := List.append_of_mem hmem
      obtain ⟨hinside, -⟩ := hmirrors before e after hsplit rows hsucceeds
      exact (readsInside_iff hsucceeds _).mp hinside
    · intro before e after hsplit
      rintro ⟨rows, hsucceeds⟩
      rw [← listAfter_eq_nil_iff, ← listAfter_concat_of_succeeds hsucceeds]
      exact (hmirrors before e after hsplit rows hsucceeds).2
  · rintro ⟨hwide, hlast⟩ before e after hsplit rows hsucceeds
    constructor
    · rw [readsInside_iff hsucceeds]
      exact hwide e (by rw [hsplit]; simp) rows hsucceeds
    · rw [listAfter_concat_of_succeeds hsucceeds, listAfter_eq_nil_iff]
      exact hlast before e after hsplit ⟨rows, hsucceeds⟩

/-- A login while the table has one server. -/
def oneServer : LoginExecution where
  node := CLoginWaitNode.new [65] [66] 7 0 false
  database _ := ⟨true, 1, some ⟨[fun _ => some [49]], 8⟩⟩
  junk := 0

/-- The second login finds the server of the first one in the list, and adds it again.  The
row has its eight columns. -/
theorem second_login_duplicates :
    oneServer.Succeeds [fun _ => some [49]] ∧ oneServer.columns = 8 ∧
      listAfter [oneServer, oneServer] = [⟨1, [49], [49], 1, 1⟩, ⟨1, [49], [49], 1, 1⟩] ∧
      ¬MirrorsTable [oneServer, oneServer] := by
  have hsucceeds : oneServer.Succeeds [fun _ => some [49]] := ⟨1, 8, rfl, by decide, by decide⟩
  have hlist : listAfter [oneServer, oneServer] =
      [⟨1, [49], [49], 1, 1⟩, ⟨1, [49], [49], 1, 1⟩] := by decide
  refine ⟨hsucceeds, rfl, hlist, ?_⟩
  intro hmirrors
  have hone := (hmirrors [oneServer] oneServer [] rfl _ hsucceeds).2
  have hlength := congrArg List.length (hlist.symm.trans hone)
  simp at hlength

end ShootGame.Analysis
