import ShootGame.Analysis.ServerListRuns

/-!
# The indices of a login

`GetAllPerganaFromSql` looks at fixed columns of each row, and returns how many columns
there are; `DoLogic` takes this for the length of the list.  With a record of the indices
beside what the code computes, `login_in_range_iff` says for which results all of them are
in range.
-/

set_option autoImplicit false

namespace ShootGame.Analysis

open ShootGame.Library ShootGame.Model

/-! ## The entries of the list -/

/-- The indices of `g_vecServerList` in the loop of `DoLogic`: four for each entry. -/
def listAccesses (node : CLoginWaitNode) : List ℕ :=
  if node.succeeded then
    (List.range node.servercount.read.toNat).flatMap fun i => [i, i, i, i]
  else []

/-- The answer depends on the list at these indices only. -/
theorem reply_congr {outside outside' : ℕ → ServerData} {list list' : List ServerData}
    (junk : DealJunk) (node : CLoginWaitNode)
    (h : ∀ i ∈ listAccesses node, CLoginWaitNode.serverAt outside list i =
      CLoginWaitNode.serverAt outside' list' i) :
    node.reply outside junk list = node.reply outside' junk list' := by
  cases hok : node.succeeded with
  | false => simp only [CLoginWaitNode.reply, hok, Bool.false_eq_true, if_false]
  | true =>
    have hentries : node.entries outside list = node.entries outside' list' := by
      unfold CLoginWaitNode.entries
      apply List.map_congr_left
      intro i hi
      apply h
      rw [listAccesses, if_pos hok, List.mem_flatMap]
      exact ⟨i, hi, by simp⟩
    simp only [CLoginWaitNode.reply, hok, if_true, hentries]

/-- The accesses to the list stay below a bound exactly if the count of a login that succeeded
does. -/
theorem listAccesses_below_iff (node : CLoginWaitNode) (n : ℕ) :
    (∀ i ∈ listAccesses node, i < n) ↔
      (node.succeeded = true → node.servercount.read.toNat ≤ n) := by
  unfold listAccesses
  split
  · rename_i hok
    simp only [hok, true_imp_iff, List.forall_mem_flatMap, List.mem_range]
    constructor
    · intro h
      by_contra hlt
      have hlast := h n (by omega) n (by simp)
      omega
    · intro hle i hi k hk
      simp at hk
      omega
  · rename_i hok
    simp [hok]

/-! ## The bound of the loop -/

/-- The loop's result is the number of columns, once there was a row. -/
theorem fetchLoop_count {fieldCount : UInt32} (hcount : 0 < toInt fieldCount.toNat)
    (rows : List MysqlRow) (iFeildCount : Cell Int) (vecServerList : List ServerData) :
    (CLoginWaitNode.fetchLoop fieldCount rows iFeildCount vecServerList).1 =
      if rows = [] then iFeildCount else .assigned (toInt fieldCount.toNat) := by
  induction rows generalizing iFeildCount vecServerList with
  | nil => rfl
  | cons row rows ih =>
    rw [CLoginWaitNode.fetchLoop, if_neg (not_le.mpr hcount), ih]
    simp

/-- A number of columns that is positive as an `int` is what it is. -/
theorem toInt_of_pos {n : ℕ} (hn : n < 2 ^ 32) (hpos : 0 < toInt n) : toInt n = n := by
  by_cases hsmall : n < 2 ^ 31
  · exact HMessage.toInt_eq_self (by omega) (by omega)
  · rw [HMessage.toInt_of_ge (by omega) (by omega)] at hpos
    omega

/-- The indices of a login that got a result with `c` columns are in range: those of the
columns, the value that is returned, and those of the list. -/
structure InRange (database : List UInt8 → DBAnswer) (junk : Int)
    (vecServerList : List ServerData) (node : CLoginWaitNode) (c : ℕ) : Prop where
  columns : ∀ j ∈ (tracedGetAll database junk vecServerList).2, j < c
  defined :
    (CLoginWaitNode.getAllPerganaFromSql database junk vecServerList).1.IsAssigned
  list : ∀ i ∈ listAccesses (node.doDBSql database junk vecServerList).1,
    i < (node.doDBSql database junk vecServerList).2.length

section Login

variable {database : List UInt8 → DBAnswer} {iret : Int} {rows : List MysqlRow}
  {fieldCount : UInt32} (junk : Int) (vecServerList : List ServerData) (node : CLoginWaitNode)

/-- A result that says it has no column, as an `int`, is not looked at. -/
theorem inRange_of_no_column
    (hanswer : database (cString CLoginWaitNode.serverListSql) =
      ⟨true, iret, some ⟨rows, fieldCount⟩⟩)
    (hiret : 0 < iret) (hcount : ¬ 0 < toInt fieldCount.toNat) :
    InRange database junk vecServerList node fieldCount.toNat ↔ rows ≠ [] := by
  have htraced := tracedGetAll_of_answer junk vecServerList hanswer hiret
  cases rows with
  | nil =>
    have hvalue := tracedGetAll_fst database junk vecServerList
    rw [htraced] at hvalue
    refine iff_of_false ?_ (by simp)
    intro h
    have hdefined := h.defined
    rw [← hvalue] at hdefined
    exact hdefined
  | cons row rows =>
    have hloop : tracedLoop fieldCount (row :: rows) (.unset junk) vecServerList =
        ((.assigned 0, vecServerList), []) := by
      rw [tracedLoop]
      dsimp only
      rw [if_pos (not_lt.mp hcount)]
    have hvalue := tracedGetAll_fst database junk vecServerList
    rw [htraced, hloop] at hvalue
    refine iff_of_true ⟨?_, ?_, ?_⟩ (by simp)
    · rw [htraced, hloop]
      simp
    · rw [← hvalue]
      trivial
    · rw [listAccesses_below_iff]
      intro _
      simp only [CLoginWaitNode.doDBSql, ← hvalue]
      exact Nat.zero_le _

/-- What the node has after its query, where the columns are counted. -/
theorem doDBSql_of_columns
    (hanswer : database (cString CLoginWaitNode.serverListSql) =
      ⟨true, iret, some ⟨rows, fieldCount⟩⟩)
    (hiret : 0 < iret) (hcount : 0 < toInt fieldCount.toNat) (hrows : rows ≠ []) :
    (node.doDBSql database junk vecServerList).1.servercount = .assigned fieldCount ∧
      (node.doDBSql database junk vecServerList).2 =
        vecServerList ++ rows.map ServerData.ofRow := by
  have hvalue := tracedGetAll_fst database junk vecServerList
  rw [tracedGetAll_of_answer junk vecServerList hanswer hiret, tracedLoop_fst] at hvalue
  have hword : UInt32.ofInt (toInt fieldCount.toNat) = fieldCount := by
    have hlt : fieldCount.toNat < 2 ^ 32 := fieldCount.toNat_lt
    have hmod : ((fieldCount.toNat : Int) % 2 ^ 32).toNat = fieldCount.toNat := by omega
    rw [toInt_of_pos hlt hcount]
    exact (congrArg UInt32.ofNat hmod).trans UInt32.ofNat_toNat
  unfold CLoginWaitNode.doDBSql
  dsimp only
  rw [← hvalue, fetchLoop_count hcount, if_neg hrows, fetchLoop_list _ _ _ _ hcount]
  exact ⟨congrArg Cell.assigned hword, rfl⟩

/-- With a column, the login succeeds if the account and the password are right. -/
theorem succeeded_of_columns
    (hanswer : database (cString CLoginWaitNode.serverListSql) =
      ⟨true, iret, some ⟨rows, fieldCount⟩⟩)
    (hiret : 0 < iret) (hcount : 0 < toInt fieldCount.toNat) (hrows : rows ≠ []) :
    (node.doDBSql database junk vecServerList).1.succeeded = true ↔
      CLoginWaitNode.checkLoginData database node.strAccount node.strPassword = true := by
  obtain ⟨hservercount, -⟩ :=
    doDBSql_of_columns junk vecServerList node hanswer hiret hcount hrows
  have hpos : 0 < fieldCount := by
    by_contra hzero
    have hzero' : fieldCount = 0 := by simpa using hzero
    rw [hzero'] at hcount
    exact absurd hcount (by decide)
  rw [CLoginWaitNode.succeeded, hservercount]
  simp only [CLoginWaitNode.doDBSql, Cell.read, Bool.and_eq_true]
  constructor
  · rintro ⟨hok, -⟩
    exact of_decide_eq_true hok
  · intro hok
    exact ⟨decide_eq_true hok, decide_eq_true hpos⟩

/-- With a column, each row needs eight, and an accepted login as many entries. -/
theorem inRange_of_columns
    (hanswer : database (cString CLoginWaitNode.serverListSql) =
      ⟨true, iret, some ⟨rows, fieldCount⟩⟩)
    (hiret : 0 < iret) (hcount : 0 < toInt fieldCount.toNat) (hrows : rows ≠ []) :
    InRange database junk vecServerList node fieldCount.toNat ↔
      8 ≤ fieldCount.toNat ∧
        (CLoginWaitNode.checkLoginData database node.strAccount node.strPassword = true →
          fieldCount.toNat ≤ vecServerList.length + rows.length) := by
  have htraced := tracedGetAll_of_answer junk vecServerList hanswer hiret
  have hcolumns := tracedLoop_below_iff hcount rows (.unset junk) vecServerList fieldCount.toNat
  rw [← htraced] at hcolumns
  obtain ⟨hservercount, hlist⟩ :=
    doDBSql_of_columns junk vecServerList node hanswer hiret hcount hrows
  have hdefined :
      (CLoginWaitNode.getAllPerganaFromSql database junk vecServerList).1.IsAssigned := by
    rw [← tracedGetAll_fst, htraced, tracedLoop_fst, fetchLoop_count hcount, if_neg hrows]
    trivial
  have hentries := listAccesses_below_iff (node.doDBSql database junk vecServerList).1
    (vecServerList.length + rows.length)
  rw [succeeded_of_columns junk vecServerList node hanswer hiret hcount hrows, hservercount]
    at hentries
  have hlength : (node.doDBSql database junk vecServerList).2.length =
      vecServerList.length + rows.length := by
    rw [hlist, List.length_append, List.length_map]
  constructor
  · intro h
    refine ⟨hcolumns.mp h.columns hrows, hentries.mp ?_⟩
    rw [← hlength]
    exact h.list
  · rintro ⟨height, hbound⟩
    refine ⟨hcolumns.mpr fun _ => height, hdefined, ?_⟩
    rw [hlength]
    exact hentries.mpr hbound

end Login

/-- All indices of a login are in range, and the number it goes by is defined, exactly if
the query got a row, and either its number of columns is not positive as an `int` or there
are at least eight, and for an accepted login not more of them than entries in the list. -/
theorem login_in_range_iff {database : List UInt8 → DBAnswer} {iret : Int}
    {rows : List MysqlRow} {fieldCount : UInt32}
    (hanswer : database (cString CLoginWaitNode.serverListSql) =
      ⟨true, iret, some ⟨rows, fieldCount⟩⟩)
    (hiret : 0 < iret) (junk : Int) (vecServerList : List ServerData) (node : CLoginWaitNode) :
    InRange database junk vecServerList node fieldCount.toNat ↔
      rows ≠ [] ∧ (toInt fieldCount.toNat ≤ 0 ∨ 8 ≤ fieldCount.toNat ∧
        (CLoginWaitNode.checkLoginData database node.strAccount node.strPassword = true →
          fieldCount.toNat ≤ vecServerList.length + rows.length)) := by
  by_cases hrows : rows = []
  · refine iff_of_false ?_ (by simp [hrows])
    intro h
    have hdefined := h.defined
    rw [← tracedGetAll_fst, tracedGetAll_of_answer junk vecServerList hanswer hiret, hrows]
      at hdefined
    exact hdefined
  · by_cases hcount : 0 < toInt fieldCount.toNat
    · rw [inRange_of_columns junk vecServerList node hanswer hiret hcount hrows,
        and_iff_right hrows, or_iff_right (not_le.mpr hcount)]
    · rw [inRange_of_no_column junk vecServerList node hanswer hiret hcount,
        and_iff_left (Or.inl (not_lt.mp hcount))]

/-- A table with one server in eight columns; the check of a login gets one row with one
column. -/
def oneServerDatabase (sql : List UInt8) : DBAnswer :=
  if sql = cString CLoginWaitNode.serverListSql then
    ⟨true, 1, some ⟨[fun _ => some (ascii "1")], 8⟩⟩
  else ⟨true, 1, some ⟨[fun _ => some (ascii "a")], 1⟩⟩

/-- A login of the account `a` with the password `b`. -/
def loginNode : CLoginWaitNode := CLoginWaitNode.new (ascii "a") (ascii "b") 7 0 false

/-- The server-list query yields one row of eight columns. -/
theorem oneServerDatabase_list :
    oneServerDatabase (cString CLoginWaitNode.serverListSql) =
      ⟨true, 1, some ⟨[fun _ => some (ascii "1")], 8⟩⟩ := if_pos rfl

/-- With seven servers in the list before, the eight columns are no more than the entries. -/
theorem login_in_range_eight :
    let list := List.replicate 7 (⟨1, [], [], 0, 0⟩ : ServerData)
    let row : MysqlRow := fun _ => some (ascii "1")
    let fieldCount : UInt32 := 8
    InRange oneServerDatabase 0 list loginNode fieldCount.toNat ↔
      [row] ≠ [] ∧ (toInt fieldCount.toNat ≤ 0 ∨ 8 ≤ fieldCount.toNat ∧
        (CLoginWaitNode.checkLoginData oneServerDatabase loginNode.strAccount
            loginNode.strPassword = true →
          fieldCount.toNat ≤ list.length + [row].length)) := by
  intro list row fieldCount
  exact login_in_range_iff oneServerDatabase_list (by omega) 0 list loginNode

/-- The first login after the start reads eight entries of a list that has one. -/
theorem not_login_in_range :
    ¬ ∀ (database : List UInt8 → DBAnswer) (iret : Int) (rows : List MysqlRow)
      (fieldCount : UInt32),
      database (cString CLoginWaitNode.serverListSql) =
        ⟨true, iret, some ⟨rows, fieldCount⟩⟩ →
      0 < iret → 1 ≤ fieldCount.toNat → ∀ (junk : Int) (vecServerList : List ServerData)
        (node : CLoginWaitNode), InRange database junk vecServerList node fieldCount.toNat := by
  intro h
  have hrange := h _ _ _ _ oneServerDatabase_list (by omega) (by decide) 0 [] loginNode
  rw [inRange_of_columns 0 [] loginNode oneServerDatabase_list (by omega) (by decide) (by simp)]
    at hrange
  have hbound := hrange.2 (by decide +kernel)
  revert hbound
  decide

end ShootGame.Analysis
