import Mathlib.Data.List.Dedup
import ShootGame.Analysis.AnswerAddressing
import ShootGame.Analysis.ExpiringStore

/-!
# Who stands in the in-memory database

`DoLogic` of a login node is the only caller of `Insert`, and nothing calls `Find`,
`UpdateData` or `Del` apart from `Insert` itself.  So over a run the store lists the
accounts whose login was found right, each once and for the last such login, and an
account that has expired stays.
-/

set_option autoImplicit false

namespace ShootGame.Analysis

open ShootGame.Library ShootGame.Model

/-- The account that a step stores, with the clock that `Insert` reads. -/
def storedLogin : SqlWorkCall × List SqlWorkEffect → List (List UInt8 × Int64)
  | (.doLogic _ _ now, [.doLogic _ (.login node) _]) =>
    if node.succeeded then [(node.strAccount, now)] else []
  | _ => []

/-- The logins that were found right, in the order of their `DoLogic`. -/
def storedLogins (h : List (SqlWorkCall × List SqlWorkEffect)) : List (List UInt8 × Int64) :=
  h.flatMap storedLogin

/-- The clock of the last login of an account. -/
def lastLogin (strAccount : List UInt8) (logins : List (List UInt8 × Int64)) : Option Int64 :=
  (logins.reverse.find? fun e => e.1 = strAccount).map Prod.snd

/-- At first nobody has logged in. -/
@[simp] theorem lastLogin_nil (strAccount : List UInt8) : lastLogin strAccount [] = none := rfl

/-- The last login counts for its account. -/
theorem lastLogin_concat (strAccount account : List UInt8) (now : Int64)
    (logins : List (List UInt8 × Int64)) :
    lastLogin strAccount (logins ++ [(account, now)]) =
      if account = strAccount then some now else lastLogin strAccount logins := by
  unfold lastLogin
  rw [List.reverse_append, List.reverse_singleton, List.singleton_append, List.find?_cons]
  by_cases haccount : account = strAccount <;> simp [haccount]

/-- An account has a last login exactly if it has logged in. -/
theorem isSome_lastLogin_iff (strAccount : List UInt8) (logins : List (List UInt8 × Int64)) :
    (lastLogin strAccount logins).isSome = true ↔ strAccount ∈ logins.map Prod.fst := by
  simp [lastLogin]

/-! ## What a step does to the store -/

/-- What each round of the loop of `run` leaves alone, the loop does. -/
theorem foldl_executeNode_same {α : Type} (f : SqlWork → α)
    (database : ℕ → List UInt8 → DBAnswer) (junk : ℕ → Int)
    (hsame : ∀ work pNode, f (executeNode database junk work pNode) = f work) (tmp : List ℕ)
    (work : SqlWork) : f (tmp.foldl (executeNode database junk) work) = f work := by
  induction tmp generalizing work with
  | nil => rfl
  | cons pNode tmp ih => rw [List.foldl_cons, ih, hsame]

/-- A step stores the account that it logs in, and touches the store in no other way. -/
theorem dbms_step {work work' : SqlWork} {call : SqlWorkCall} {o : List SqlWorkEffect}
    (h : Worked work call work' o) :
    work'.dbms = (storedLogin (call, o)).foldl
      (fun db e => db.insert e.1 e.1 10000 e.2) work.dbms := by
  cases h with
  | request iSessionID request junk hidle => rfl
  | take hworker => rfl
  | execute database junk tmp hworker =>
    apply foldl_executeNode_same SqlWork.dbms database junk
    intro work pNode
    unfold executeNode
    cases work.nodes[pNode]? <;> rfl
  | fetch hidle => rfl
  | visit outside junk now pNode rest node hnext hnode =>
    cases node with
    | register node => rfl
    | login node =>
      unfold storedLogin
      cases hok : node.succeeded with
      | true => simp [WaitNode.doLogic, CLoginWaitNode.doLogic, hok]
      | false => simp [WaitNode.doLogic, CLoginWaitNode.doLogic, hok]

variable {h : List (SqlWorkCall × List SqlWorkEffect)} {work : SqlWork}

/-- The store is made of the logins stored, one after the other. -/
theorem dbms_of_run (hrun : SqlWorkRun h work) :
    work.dbms = (storedLogins h).foldl (fun db e => db.insert e.1 e.1 10000 e.2) DBMS.empty := by
  induction hrun with
  | start => rfl
  | next _ hstep ih =>
    rw [dbms_step (worked_of_step hstep), ih, storedLogins, storedLogins, List.flatMap_append,
      List.foldl_append, List.flatMap_singleton]

/-! ## Where the accounts come from -/

/-- The account that a node logs in, if it is a login node. -/
def loginAccount : WaitNode → Option (List UInt8)
  | .register _ => none
  | .login node => some node.strAccount

/-- What `loginAccount` will be of the node of a request. -/
def requestedAccount : SqlWorkCall → Option (Option (List UInt8))
  | .request _ (.register _ _) _ => some none
  | .request _ (.login strAccount _ _) _ => some (some strAccount)
  | _ => none

/-- The accounts of the login requests, in order, and an empty place for each
registration. -/
def requestedAccounts (h : List (SqlWorkCall × List SqlWorkEffect)) :
    List (Option (List UInt8)) :=
  (inputs h).filterMap requestedAccount

/-- A new login node is for the account requested. -/
theorem loginAccount_new (junk : NodeJunk) (request : NodeRequest) (iSessionID : Int) :
    requestedAccount (.request iSessionID request junk) =
      some (loginAccount (WaitNode.new junk request)) := by
  cases request <;> rfl

/-- A node written back with what `read` looks at unchanged. -/
theorem map_set_same {β : Type} (read : WaitNode → β) {nodes : List WaitNode} {pNode : ℕ}
    {node node' : WaitNode} (hnode : nodes[pNode]? = some node)
    (hsame : read node' = read node) : (nodes.set pNode node').map read = nodes.map read := by
  have hmap : (nodes.map read)[pNode]? = some (read node) := by
    rw [List.getElem?_map, hnode]
    rfl
  obtain ⟨hlt, heq⟩ := List.getElem?_eq_some_iff.mp hmap
  rw [List.map_set, hsame, ← heq, List.set_getElem_self]

/-- A round of the worker changes no account. -/
theorem loginAccounts_executeNode (database : ℕ → List UInt8 → DBAnswer) (junk : ℕ → Int)
    (work : SqlWork) (pNode : ℕ) :
    (executeNode database junk work pNode).nodes.map loginAccount =
      work.nodes.map loginAccount := by
  unfold executeNode
  cases hnode : work.nodes[pNode]? with
  | none => rfl
  | some node =>
    apply map_set_same loginAccount hnode
    cases node <;> rfl

/-- A step changes no account; a request adds its own. -/
theorem loginAccounts_step {work' : SqlWork} {call : SqlWorkCall} {o : List SqlWorkEffect}
    (h : Worked work call work' o) :
    work'.nodes.map loginAccount =
      work.nodes.map loginAccount ++ (requestedAccount call).toList := by
  cases h with
  | request iSessionID request junk hidle => simp [loginAccount_new]
  | take hworker => simp [requestedAccount]
  | execute database junk tmp hworker =>
    rw [foldl_executeNode_same (fun work => work.nodes.map loginAccount) database junk
      (loginAccounts_executeNode database junk)]
    simp [requestedAccount]
  | fetch hidle => simp [requestedAccount]
  | visit outside junk now pNode rest node hnext hnode => simp [requestedAccount]

/-- The nodes keep the accounts they were built for. -/
theorem loginAccounts_of_run (hrun : SqlWorkRun h work) :
    work.nodes.map loginAccount = requestedAccounts h := by
  apply hrun.invariant fun h work => work.nodes.map loginAccount = requestedAccounts h
  · rfl
  · intro h u call v o _ ih hstep
    rw [loginAccounts_step (worked_of_step hstep), ih]
    cases hcall : requestedAccount call <;> simp [requestedAccounts, hcall]

/-- What a step stores is at most the account of the node it visits. -/
theorem storedLogin_sublist {work' : SqlWork} {call : SqlWorkCall} {o : List SqlWorkEffect}
    (h : Worked work call work' o) :
    ((storedLogin (call, o)).map Prod.fst).Sublist
      ((o.filterMap visitedNode).filterMap fun pNode =>
        (work.nodes[pNode]?).bind loginAccount) := by
  cases h with
  | request iSessionID request junk hidle => exact List.nil_sublist _
  | take hworker => exact List.nil_sublist _
  | execute database junk tmp hworker => exact List.nil_sublist _
  | fetch hidle => exact List.nil_sublist _
  | visit outside junk now pNode rest node hnext hnode =>
    cases node with
    | register node => exact List.nil_sublist _
    | login node =>
      unfold storedLogin
      cases hok : node.succeeded <;> simp [visitedNode, hnode, loginAccount, hok]

/-- The account of the node that a number stands for. -/
def nodeAccount (accounts : List (Option (List UInt8))) (pNode : ℕ) : Option (List UInt8) :=
  accounts[pNode]?.join

/-- More nodes change nothing for those there are. -/
theorem nodeAccount_append {accounts : List (Option (List UInt8))} {pNode : ℕ}
    (hlt : pNode < accounts.length) (more : List (Option (List UInt8))) :
    nodeAccount (accounts ++ more) pNode = nodeAccount accounts pNode := by
  unfold nodeAccount
  rw [List.getElem?_append_left hlt]

/-- The accounts of all nodes, in order. -/
theorem filterMap_nodeAccount_range (accounts : List (Option (List UInt8))) :
    (List.range accounts.length).filterMap (nodeAccount accounts) = accounts.filterMap id := by
  induction accounts using List.reverseRecOn with
  | nil => rfl
  | append_singleton accounts account ih =>
    have hinit : (List.range accounts.length).filterMap (nodeAccount (accounts ++ [account])) =
        (List.range accounts.length).filterMap (nodeAccount accounts) := by
      apply List.filterMap_congr
      intro pNode hmem
      exact nodeAccount_append (List.mem_range.mp hmem) [account]
    rw [List.length_append, List.length_singleton, List.range_succ, List.filterMap_append, hinit,
      ih, List.filterMap_append]
    cases account <;> simp [nodeAccount]

/-- A node that was visited was requested. -/
theorem lt_of_visited (hrun : SqlWorkRun h work) {pNode : ℕ} (hmem : pNode ∈ visited h) :
    pNode < (requestedAccounts h).length := by
  rw [← loginAccounts_of_run hrun, List.length_map, ← List.mem_range, ← visited_eq_range hrun]
  exact List.mem_append_left _ hmem

/-- A node that is visited is there. -/
theorem lt_of_visits {work' : SqlWork} {call : SqlWorkCall} {o : List SqlWorkEffect}
    (h : Worked work call work' o) {pNode : ℕ} (hmem : pNode ∈ o.filterMap visitedNode) :
    pNode < work.nodes.length := by
  cases h with
  | request iSessionID request junk hidle => simp [visitedNode] at hmem
  | take hworker => simp at hmem
  | execute database junk tmp hworker => simp at hmem
  | fetch hidle => simp at hmem
  | visit outside junk now p rest node hnext hnode =>
    obtain rfl : pNode = p := by simpa [visitedNode] using hmem
    exact (List.getElem?_eq_some_iff.mp hnode).1

/-- The stored accounts are, in order, among those of the nodes visited. -/
theorem storedLogins_sublist_visited (hrun : SqlWorkRun h work) :
    ((storedLogins h).map Prod.fst).Sublist
      ((visited h).filterMap (nodeAccount (requestedAccounts h))) := by
  apply hrun.invariant fun h _ => ((storedLogins h).map Prod.fst).Sublist
    ((visited h).filterMap (nodeAccount (requestedAccounts h)))
  · exact List.Sublist.refl _
  · intro h u call v o hu ih hstep
    have hlonger : requestedAccounts (h ++ [(call, o)]) =
        requestedAccounts h ++ (requestedAccount call).toList := by
      cases hcall : requestedAccount call <;> simp [requestedAccounts, hcall]
    have hafter : ∀ pNode ∈ visited h,
        nodeAccount (requestedAccounts (h ++ [(call, o)])) pNode =
          nodeAccount (requestedAccounts h) pNode := by
      intro pNode hmem
      rw [hlonger, nodeAccount_append (lt_of_visited hu hmem)]
    have hnew : ∀ pNode ∈ o.filterMap visitedNode,
        nodeAccount (requestedAccounts (h ++ [(call, o)])) pNode =
          (u.nodes[pNode]?).bind loginAccount := by
      intro pNode hmem
      have hlt := lt_of_visits (worked_of_step hstep) hmem
      rw [hlonger, ← loginAccounts_of_run hu, nodeAccount_append (by rwa [List.length_map])]
      unfold nodeAccount
      rw [List.getElem?_map, List.getElem?_eq_getElem hlt]
      rfl
    have hvisited : visited (h ++ [(call, o)]) = visited h ++ o.filterMap visitedNode := by
      simp [visited, List.filterMap_append]
    rw [hvisited, List.filterMap_append, List.filterMap_congr hafter, List.filterMap_congr hnew,
      storedLogins, List.flatMap_append, List.map_append, List.flatMap_singleton]
    exact ih.append (storedLogin_sublist (worked_of_step hstep))

/-- The accounts stored are, in order, among those that logins were requested for. -/
theorem storedLogins_sublist (hrun : SqlWorkRun h work) :
    ((storedLogins h).map Prod.fst).Sublist ((requestedAccounts h).filterMap id) := by
  refine (storedLogins_sublist_visited hrun).trans ?_
  have hlength : work.nodes.length = (requestedAccounts h).length := by
    rw [← loginAccounts_of_run hrun, List.length_map]
  rw [← filterMap_nodeAccount_range, ← hlength, ← visited_eq_range hrun]
  exact (List.sublist_append_left _ _).filterMap _

/-! ## What the store holds -/

/-- What logins stored one after the other leave under a key. -/
theorem getElem?_stored (key : List UInt8) (logins : List (List UInt8 × Int64)) :
    (logins.foldl (fun db e => db.insert e.1 e.1 10000 e.2) DBMS.empty).mapAllData[key]? =
      (lastLogin key logins).map fun now => ⟨key, now.toUInt64 + 10000⟩ := by
  induction logins using List.reverseRecOn with
  | nil => simp [DBMS.empty]
  | append_singleton logins e ih =>
    obtain ⟨account, now⟩ := e
    rw [List.foldl_append, List.foldl_cons, List.foldl_nil, getElem?_insert, ih,
      lastLogin_concat]
    split_ifs with haccount
    · rw [Option.map_some, haccount]
    · rfl

/-- The keys of the store, each once. -/
theorem size_of_keys {db : DBMS} {keys : List (List UInt8)} (hnodup : keys.Nodup)
    (hmem : ∀ key, key ∈ db.mapAllData ↔ key ∈ keys) : db.size = keys.length := by
  have hperm : db.mapAllData.keys.Perm keys := by
    rw [List.perm_ext_iff_of_nodup Std.TreeMap.nodup_keys hnodup]
    intro key
    rw [Std.TreeMap.mem_keys, hmem]
  unfold DBMS.size
  rw [← Std.TreeMap.length_keys, hperm.length_eq]

/-- Over every run the store holds exactly the accounts whose login was found right, under
their own name and with the expiry time of the last such login; they are among the accounts
that logins were requested for, in the order of the requests. -/
theorem login_store_of_run (hrun : SqlWorkRun h work) :
    (∀ key, work.dbms.mapAllData[key]? =
      (lastLogin key (storedLogins h)).map fun now => ⟨key, now.toUInt64 + 10000⟩) ∧
      work.dbms.size = ((storedLogins h).map Prod.fst).dedup.length ∧
      ((storedLogins h).map Prod.fst).Sublist ((requestedAccounts h).filterMap id) := by
  have hdata : ∀ key : List UInt8, work.dbms.mapAllData[key]? =
      (lastLogin key (storedLogins h)).map fun now => ⟨key, now.toUInt64 + 10000⟩ := by
    intro key
    rw [dbms_of_run hrun, getElem?_stored]
  refine ⟨hdata, size_of_keys (List.nodup_dedup _) fun key => ?_, storedLogins_sublist hrun⟩
  rw [← Std.TreeMap.isSome_getElem?_iff_mem, hdata, Option.isSome_map, isSome_lastLogin_iff,
    List.mem_dedup]

/-- One account logs in twice; the database refuses a login of another in between. -/
def loggedInTwice : List SqlWorkCall :=
  [.request 5 (.login [65] [66] 7) ⟨0, 0, false⟩, .request 6 (.login [67] [66] 7) ⟨0, 0, false⟩,
    .request 5 (.login [65] [66] 8) ⟨0, 0, false⟩, .runTakeAll,
    .runExecute (fun pNode _ =>
      if pNode = 1 then ⟨false, 0, none⟩ else ⟨true, 1, some ⟨[fun _ => none], 1⟩⟩) (fun _ => 0),
    .getFinishDBWait, .doLogic (fun _ => ⟨0, [], [], 0, 0⟩) zeroedDeal 100,
    .doLogic (fun _ => ⟨0, [], [], 0, 0⟩) zeroedDeal 101,
    .doLogic (fun _ => ⟨0, [], [], 0, 0⟩) zeroedDeal 102]

/-- One account logs in twice. -/
theorem login_store_of_run_twice :
    ∃ h work, SqlWorkRun h work ∧ inputs h = loggedInTwice ∧
      storedLogins h = [([65], 100), ([65], 102)] ∧
      (∀ key, work.dbms.mapAllData[key]? =
        (lastLogin key (storedLogins h)).map fun now => ⟨key, now.toUInt64 + 10000⟩) ∧
      work.dbms.size = ((storedLogins h).map Prod.fst).dedup.length ∧
      ((storedLogins h).map Prod.fst).Sublist ((requestedAccounts h).filterMap id) := by
  have hexec : (exec SqlWork.step SqlWork.start loggedInTwice).map (fun r => storedLogins r.2) =
      some [([65], 100), ([65], 102)] := by
    decide +kernel
  obtain ⟨h, work, hrun, hin, hstored⟩ := exists_runs_of_exec_map storedLogins hexec
  exact ⟨h, work, hrun, hin, hstored, login_store_of_run hrun⟩

end ShootGame.Analysis
