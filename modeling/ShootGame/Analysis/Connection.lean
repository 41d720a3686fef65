import Mathlib.Data.Finset.Option
import ShootGame.Library.Handles
import ShootGame.Model.DBConnect

/-!
# Connecting, losing the connection and connecting again

Everything that goes wrong with a `DBConnect` goes wrong in a connection attempt.  After
one that fails, `con` is null and `loadtabledata` returns before it would try again; and
the handle of the attempt is null where it is used, or open where nobody has it any
more.  Both laws are therefore equivalent to the success of all attempts.
-/

set_option autoImplicit false

namespace ShootGame.Analysis

open ShootGame.Library ShootGame.Model

/-- `mysql_init` and `mysql_real_connect` succeed. -/
def Connects (answers : ConnectAnswers) : Prop :=
  answers.init = true ∧ answers.realConnect = true

instance (answers : ConnectAnswers) : Decidable (Connects answers) :=
  inferInstanceAs (Decidable (_ ∧ _))

/-! ## Whether there is a connection -/

section Con

variable {db : DBConnect}

/-- `init` on a connected object does nothing. -/
theorem init_of_con {k : ℕ} (h : db.con = some k) (ip name : List UInt8)
    (answers : ConnectAnswers) : db.init ip name answers = ⟨0, db, []⟩ := by
  simp [DBConnect.init, h]

/-- An attempt leaves a handle, and reports one, exactly if it succeeds. -/
theorem init_spec (h : db.con = none) (ip name : List UInt8) (answers : ConnectAnswers) :
    ((db.init ip name answers).db.con ≠ none ↔ Connects answers) ∧
      ((db.init ip name answers).result ≠ 0 ↔ Connects answers) := by
  obtain ⟨init, realConnect, selectDb⟩ := answers
  cases init <;> cases realConnect <;> simp [DBConnect.init, h, Connects]

/-- `Clear` leaves no connection. -/
theorem clear_con (db : DBConnect) : db.clear.db.con = none := by
  unfold DBConnect.clear
  split
  · rfl
  · rename_i h
    exact not_not.mp h

/-- A connection survives a ping that answers, and else a reconnection that succeeds. -/
def StaysConnected (answers : LoadAnswers) : Prop :=
  answers.ping = true ∨ Connects answers.reconnect

/-- `KeepAlive` leaves a connection, and reports one, exactly if it stays connected. -/
theorem keepAlive_spec (h : db.con ≠ none) (answers : LoadAnswers) :
    ((db.keepAlive answers).db.con ≠ none ↔ StaysConnected answers) ∧
      ((db.keepAlive answers).result ≠ 0 ↔ StaysConnected answers) := by
  unfold DBConnect.keepAlive StaysConnected
  cases hping : answers.ping with
  | true => simp [h]
  | false =>
    obtain ⟨hcon, hresult⟩ :=
      init_spec (clear_con db) db.strDBip db.strDBName answers.reconnect
    simpa using ⟨hcon, hresult⟩

/-- `loadtabledata` changes the object as its `KeepAlive` does. -/
theorem load_db (h : db.con ≠ none) (sql : Option (List UInt8)) (answers : LoadAnswers) :
    (db.loadtabledata sql answers).db = (db.keepAlive answers).db := by
  unfold DBConnect.loadtabledata
  rw [if_neg h]
  dsimp only
  split
  · rfl
  · cases sql <;> rfl

/-- There is a connection after a query exactly if there was one and it lasted; once it is
lost no query brings it back. -/
theorem load_con (db : DBConnect) (sql : Option (List UInt8)) (answers : LoadAnswers) :
    (db.loadtabledata sql answers).db.con ≠ none ↔ db.con ≠ none ∧ StaysConnected answers := by
  by_cases h : db.con = none
  · simp [DBConnect.loadtabledata, h]
  · rw [load_db h, (keepAlive_spec h answers).1]
    simp [h]

end Con

/-! ## The dead end -/

/-- The call `loadtabledata(sql)` that is answered so gives the statement to the server,
and does not return `-1`. -/
def Executes (db : DBConnect) (sql : List UInt8) (answers : LoadAnswers) : Prop :=
  (∃ k, .realQuery (some k) sql ∈ (db.loadtabledata (some sql) answers).calls) ∧
    ∀ r, (db.loadtabledata (some sql) answers).result = some r → r.1 ≠ -1

/-- Every call that `loadtabledata` may make succeeds. -/
structure AllSucceed (answers : LoadAnswers) : Prop where
  ping : answers.ping = true
  reconnect : Connects answers.reconnect
  selectDb : answers.reconnect.selectDb = true
  realQuery : answers.realQuery = true

/-- A statement never comes to `-1`, which is for a lost connection. -/
theorem runQuery_fst_ne (con : Option ℕ) (sql : List UInt8) (answers : LoadAnswers) :
    (DBConnect.runQuery con sql answers).1.1 ≠ -1 := by
  have hstored : (DBConnect.storeResult con sql answers).1.1 ≠ -1 := by
    unfold DBConnect.storeResult
    split
    · split <;> simp
    · simp
  unfold DBConnect.runQuery
  split_ifs
  · simp
  · split
    · simp
    · exact hstored
  · exact hstored

/-- The statement is executed on the connection given. -/
theorem realQuery_mem_runQuery (con : Option ℕ) (sql : List UInt8) (answers : LoadAnswers) :
    .realQuery con sql ∈ (DBConnect.runQuery con sql answers).2 := by
  unfold DBConnect.runQuery
  split_ifs
  · simp
  · split <;> simp
  · simp

/-- With calls that succeed, the statement is executed exactly if there is a handle. -/
theorem executes_iff (db : DBConnect) (sql : List UInt8) {answers : LoadAnswers}
    (h : AllSucceed answers) : Executes db sql answers ↔ db.con ≠ none := by
  constructor
  · rintro ⟨⟨k, hk⟩, -⟩ hcon
    simp [DBConnect.loadtabledata, hcon] at hk
  · intro hcon
    obtain ⟨k, hk⟩ := Option.ne_none_iff_exists'.mp hcon
    have hkeep : db.keepAlive answers = ⟨1, db, [.ping db.con]⟩ := by
      rw [DBConnect.keepAlive, if_pos h.ping]
    have hload : db.loadtabledata (some sql) answers =
        ⟨some (DBConnect.runQuery db.con sql answers).1, db,
          [.ping db.con] ++ (DBConnect.runQuery db.con sql answers).2⟩ := by
      rw [DBConnect.loadtabledata, if_neg hcon, hkeep]
      simp
    unfold Executes
    rw [hload]
    refine ⟨⟨k, List.mem_append_right _ ?_⟩, ?_⟩
    · rw [← hk]
      exact realQuery_mem_runQuery db.con sql answers
    · intro r hr
      rw [← Option.some_inj.mp hr]
      exact runQuery_fst_ne db.con sql answers

/-- By induction on the queries. -/
theorem loads_con {db : DBConnect} {loads : List (Option (List UInt8) × LoadAnswers)}
    {h : List (ConnectCall × List MysqlCall)} {s : Option DBConnect}
    (hrun : Runs connectStep (some db) h s)
    (hin : inputs h = loads.map fun load => .loadtabledata load.1 load.2) :
    ∃ db', s = some db' ∧
      (db'.con ≠ none ↔ db.con ≠ none ∧ ∀ load ∈ loads, StaysConnected load.2) := by
  induction loads generalizing db h with
  | nil =>
    exact ⟨db, hrun.eq_of_inputs_nil hin, by simp⟩
  | cons load loads ih =>
    obtain ⟨o, h, t, rfl, hrest, hstep, htail⟩ := hrun.first_of_inputs hin
    simp only [connectStep, Option.some.injEq, Prod.mk.injEq] at hstep
    obtain ⟨rfl, -⟩ := hstep
    obtain ⟨db', rfl, hcon⟩ := ih htail hrest
    refine ⟨db', rfl, ?_⟩
    rw [hcon, load_con, List.forall_mem_cons, and_assoc]

/-- After a first `init` and any queries, the next query whose calls succeed executes its
statement if and only if the `init` connected and every query kept the connection. -/
theorem next_load_executes_iff {ip name : List UInt8} {answers : ConnectAnswers}
    {loads : List (Option (List UInt8) × LoadAnswers)}
    {h : List (ConnectCall × List MysqlCall)} {db : DBConnect} (hrun : ConnectRun h (some db))
    (hin : inputs h = .init ip name answers ::
      loads.map fun load => .loadtabledata load.1 load.2)
    (sql : List UInt8) {next : LoadAnswers} (hnext : AllSucceed next) :
    Executes db sql next ↔
      Connects answers ∧ ∀ load ∈ loads, load.2.ping = true ∨ Connects load.2.reconnect := by
  rw [executes_iff db sql hnext]
  obtain ⟨o, h, t, rfl, hrest, hstep, htail⟩ := hrun.first_of_inputs hin
  simp only [connectStep, Option.some.injEq, Prod.mk.injEq] at hstep
  obtain ⟨rfl, -⟩ := hstep
  obtain ⟨db', heq, hcon⟩ := loads_con htail hrest
  rw [Option.some_inj.mp heq, hcon, (init_spec rfl ip name answers).1]
  rfl

def serverSql : List UInt8 := ascii "select 1"

/-- A query that reconnected, and another one after it. -/
theorem next_load_executes_iff_reconnected :
    ∃ h db, ConnectRun h (some db) ∧
      inputs h = [.init [] [] ⟨true, true, true⟩,
        .loadtabledata (some serverSql) ⟨false, ⟨true, true, true⟩, true, none⟩] ∧
      (Executes db serverSql ⟨true, ⟨true, true, true⟩, true, none⟩ ↔
        Connects ⟨true, true, true⟩ ∧
          ∀ load ∈ [((some serverSql, ⟨false, ⟨true, true, true⟩, true, none⟩) :
            Option (List UInt8) × LoadAnswers)],
            load.2.ping = true ∨ Connects load.2.reconnect) := by
  obtain ⟨h, db, hrun, hin⟩ : ∃ h db, ConnectRun h (some db) ∧
      inputs h = [.init [] [] ⟨true, true, true⟩,
        .loadtabledata (some serverSql) ⟨false, ⟨true, true, true⟩, true, none⟩] :=
    ⟨_, _, (Runs.start.next rfl).next rfl, rfl⟩
  exact ⟨h, db, hrun, hin, next_load_executes_iff hrun hin serverSql ⟨rfl, ⟨rfl, rfl⟩, rfl, rfl⟩⟩

/-- A connection that was made and then lost once, with a server that has been up again
for a while: the query is not executed. -/
theorem lost_connection_is_dead_end :
    ∃ h db, ConnectRun h (some db) ∧
      inputs h = [.init [] [] ⟨true, true, true⟩,
        .loadtabledata (some serverSql) ⟨false, ⟨true, false, false⟩, false, none⟩] ∧
      ¬Executes db serverSql ⟨true, ⟨true, true, true⟩, true, none⟩ := by
  refine ⟨_, _, (Runs.start.next rfl).next rfl, rfl, ?_⟩
  rw [executes_iff _ _ ⟨rfl, ⟨rfl, rfl⟩, rfl, rfl⟩]
  exact not_not.mpr rfl

/-! ## Handles -/

/-- What a call does with the handle it is given. -/
def handleUses : MysqlCall → List (HandleUse ℕ)
  | .init none => []
  | .init (some k) => [.opens k]
  | .close con => [.closes con]
  | .options con => [.uses con]
  | .realConnect con _ _ => [.uses con]
  | .selectDb con _ => [.uses con]
  | .setReconnect con => [.uses con]
  | .ping con => [.uses con]
  | .realQuery con _ => [.uses con]
  | .error con => [.uses con]
  | .query con _ => [.uses con]
  | .storeResult con => [.uses con]

def usesOf (calls : List MysqlCall) : List (HandleUse ℕ) := calls.flatMap handleUses

/-- The uses of two lists of calls. -/
@[simp] theorem usesOf_append (calls calls' : List MysqlCall) :
    usesOf (calls ++ calls') = usesOf calls ++ usesOf calls' := List.flatMap_append

/-- The handle an object has; none after its destruction. -/
def held : Option DBConnect → Finset ℕ
  | none => ∅
  | some db => db.con.toFinset

/-- The calls are right for an object with exactly the handles `opened`, and leave
exactly the handle of the object afterwards open. -/
def HandlesRight (opened : Finset ℕ) (calls : List MysqlCall) (s : Option DBConnect) : Prop :=
  WellUsed opened (usesOf calls) ∧ openAfter opened (usesOf calls) = held s

/-- The answers that the connection attempt of an operation gets, if it makes one. -/
def attempt : Option DBConnect → ConnectCall → Option ConnectAnswers
  | some db, .init _ _ answers => if db.con = none then some answers else none
  | some db, .loadtabledata _ answers =>
    if db.con ≠ none ∧ answers.ping = false then some answers.reconnect else none
  | _, _ => none

section Handles

variable {db : DBConnect}

/-- No calls leave the handles as they are. -/
theorem handlesRight_nil (s : Option DBConnect) : HandlesRight (held s) [] s :=
  ⟨trivial, rfl⟩

/-- An attempt is right with the handles exactly if it succeeds. -/
theorem init_handles (h : db.con = none) (ip name : List UInt8) (answers : ConnectAnswers) :
    HandlesRight ∅ (db.init ip name answers).calls (some (db.init ip name answers).db) ↔
      Connects answers := by
  obtain ⟨init, realConnect, selectDb⟩ := answers
  cases init <;> cases realConnect <;> cases selectDb <;>
    simp [DBConnect.init, h, Connects, HandlesRight, usesOf, handleUses, held, HandleUse.Right,
      HandleUse.after]

/-- `Clear` closes the handle it has. -/
theorem clear_handles {k : ℕ} (h : db.con = some k) :
    HandlesRight {k} db.clear.calls (some db.clear.db) := by
  simp [DBConnect.clear, h, HandlesRight, usesOf, handleUses, held, HandleUse.Right,
    HandleUse.after]

/-- The calls of a query only use the handle they are given. -/
theorem runQuery_uses (con : Option ℕ) (sql : List UInt8) (answers : LoadAnswers) :
    ∀ use ∈ usesOf (DBConnect.runQuery con sql answers).2, use = .uses con := by
  have hstored : ∀ use ∈ usesOf (DBConnect.storeResult con sql answers).2, use = .uses con := by
    unfold DBConnect.storeResult
    split
    · split <;> simp [usesOf, handleUses]
    · simp [usesOf]
  have hcons : ∀ call calls, usesOf (call :: calls) = handleUses call ++ usesOf calls :=
    fun call calls => List.flatMap_cons
  unfold DBConnect.runQuery
  split_ifs
  · simp [usesOf, handleUses]
  · split
    · simp [usesOf, handleUses]
    · intro use huse
      simp only [hcons, usesOf_append, List.mem_append] at huse
      simp only [usesOf, handleUses, List.flatMap_nil, List.mem_singleton, List.not_mem_nil,
        or_false] at huse
      rcases huse with (rfl | rfl) | huse
      · rfl
      · rfl
      · exact hstored use huse
  · intro use huse
    rw [hcons, List.mem_append] at huse
    rcases huse with huse | huse
    · simpa [handleUses] using huse
    · exact hstored use huse

/-- Calls behind right ones start from the handle that these leave. -/
theorem handlesRight_append {opened : Finset ℕ} {calls calls' : List MysqlCall}
    {s s' : Option DBConnect} (h : HandlesRight opened calls s) :
    HandlesRight opened (calls ++ calls') s' ↔ HandlesRight (held s) calls' s' := by
  unfold HandlesRight
  rw [usesOf_append, wellUsed_append, openAfter_append, h.2]
  simp [h.1]

/-- A ping is right, and after one that fails the reconnection decides. -/
theorem keepAlive_handles {k : ℕ} (h : db.con = some k) (answers : LoadAnswers) :
    HandlesRight (held (some db)) (db.keepAlive answers).calls
      (some (db.keepAlive answers).db) ↔ StaysConnected answers := by
  have hping : HandlesRight (held (some db)) [.ping db.con] (some db) := by
    simp [HandlesRight, usesOf, handleUses, held, h, HandleUse.Right, HandleUse.after]
  unfold DBConnect.keepAlive StaysConnected
  cases answers.ping with
  | true => simpa using hping
  | false =>
    have hclear : HandlesRight (held (some db)) ([.ping db.con] ++ db.clear.calls)
        (some db.clear.db) := by
      rw [handlesRight_append hping]
      simpa [held, h] using clear_handles h
    have hnone : held (some db.clear.db) = ∅ := by simp [held, clear_con]
    simp only [Bool.false_eq_true, if_false, false_or]
    rw [handlesRight_append hclear, hnone]
    exact init_handles (clear_con db) _ _ _

/-- A call of `loadtabledata` is right exactly if the connection stays. -/
theorem load_handles {k : ℕ} (h : db.con = some k) (sql : Option (List UInt8))
    (answers : LoadAnswers) :
    HandlesRight (held (some db)) (db.loadtabledata sql answers).calls
      (some (db.loadtabledata sql answers).db) ↔ StaysConnected answers := by
  have hcon : db.con ≠ none := by simp [h]
  have halive := keepAlive_handles h answers
  obtain ⟨hlast, hresult⟩ := keepAlive_spec hcon answers
  unfold DBConnect.loadtabledata
  rw [if_neg hcon]
  dsimp only
  split
  · exact halive
  · rename_i hne
    -- there is a connection, so the reconnection, if there was one, succeeded
    have hstays := hresult.mp hne
    cases sql with
    | none => exact halive
    | some sql =>
      obtain ⟨k', hk'⟩ := Option.ne_none_iff_exists'.mp (hlast.mpr hstays)
      have huses := runQuery_uses (db.keepAlive answers).db.con sql answers
      rw [hk'] at huses
      have hquery : HandlesRight (held (some (db.keepAlive answers).db))
          (DBConnect.runQuery (db.keepAlive answers).db.con sql answers).2
          (some (db.keepAlive answers).db) := by
        rw [hk']
        exact uses_only (by simp [held, hk']) huses
      rw [handlesRight_append (halive.mpr hstays)]
      exact iff_of_true hquery hstays

/-- The destructor closes the handle that is held. -/
theorem destroy_handles (db : DBConnect) : HandlesRight (held (some db)) db.destroy none := by
  cases h : db.con <;>
    simp [DBConnect.destroy, h, HandlesRight, usesOf, handleUses, held, HandleUse.Right,
      HandleUse.after]

/-- One operation: with exactly the handle of the object open before it, it is right
exactly if the attempt that it makes, if any, succeeds. -/
theorem step_handles_iff {s s' : Option DBConnect} {call : ConnectCall} {o : List MysqlCall}
    (hstep : connectStep s call = some (s', o)) :
    HandlesRight (held s) o s' ↔ ∀ answers, attempt s call = some answers → Connects answers := by
  cases s with
  | none => simp [connectStep] at hstep
  | some db =>
    cases call with
    | init ip name answers =>
      simp only [connectStep, Option.some.injEq, Prod.mk.injEq] at hstep
      obtain ⟨rfl, rfl⟩ := hstep
      cases hcon : db.con with
      | none => simpa [attempt, hcon, held] using init_handles hcon ip name answers
      | some k => simpa [attempt, hcon, init_of_con hcon] using handlesRight_nil (some db)
    | loadtabledata sql answers =>
      simp only [connectStep, Option.some.injEq, Prod.mk.injEq] at hstep
      obtain ⟨rfl, rfl⟩ := hstep
      cases hcon : db.con with
      | none =>
        simpa [attempt, hcon, DBConnect.loadtabledata] using handlesRight_nil (some db)
      | some k =>
        rw [load_handles hcon]
        cases hping : answers.ping <;> simp [attempt, hcon, hping, StaysConnected]
    | clear =>
      simp only [connectStep, Option.some.injEq, Prod.mk.injEq] at hstep
      obtain ⟨rfl, rfl⟩ := hstep
      cases hcon : db.con with
      | none => simpa [attempt, DBConnect.clear, hcon] using handlesRight_nil (some db)
      | some k => simpa [attempt, held, hcon] using clear_handles hcon
    | destroy =>
      simp only [connectStep, Option.some.injEq, Prod.mk.injEq] at hstep
      obtain ⟨rfl, rfl⟩ := hstep
      simpa [attempt] using destroy_handles db

end Handles

/-! ## Handles over a run -/

/-- The handles that are open after a run. -/
def openHandles (h : List (ConnectCall × List MysqlCall)) : Finset ℕ :=
  openAfter ∅ (usesOf (outputs h))

/-- Each operation of a run gives open handles to the library, and leaves exactly the
handle of the object open. -/
def HandlesRightInRun (h : List (ConnectCall × List MysqlCall)) : Prop :=
  AtEach (fun before op => ∀ s, ConnectRun (before ++ [op]) s →
    HandlesRight (openHandles before) op.2 s) h

/-- Each connection attempt that is made in a run succeeds. -/
def AttemptsSucceed (h : List (ConnectCall × List MysqlCall)) : Prop :=
  AtEach (fun before op => ∀ s, ConnectRun before s →
    ∀ answers, attempt s op.1 = some answers → Connects answers) h

/-- The handles open after one more operation. -/
theorem openHandles_concat (h : List (ConnectCall × List MysqlCall))
    (op : ConnectCall × List MysqlCall) :
    openHandles (h ++ [op]) = openAfter (openHandles h) (usesOf op.2) := by
  obtain ⟨call, o⟩ := op
  simp [openHandles]

/-- What the law says about the last operation. -/
theorem openHandles_eq_held {h : List (ConnectCall × List MysqlCall)} {s : Option DBConnect}
    (hrun : ConnectRun h s) (hright : HandlesRightInRun h) : openHandles h = held s := by
  rcases List.eq_nil_or_concat h with rfl | ⟨before, op, rfl⟩
  · rw [hrun.eq_of_nil]
    rfl
  · rw [List.concat_eq_append] at hrun hright ⊢
    have hlast := (atEach_concat _ before op).mp hright
    rw [openHandles_concat]
    exact (hlast.2 s hrun).2

/-- The law of the handles holds in a run exactly if every connection attempt in it
succeeds.  By induction on the run; the law for the part before an operation gives the
handles that are open when it starts. -/
theorem handlesRight_iff_attemptsSucceed {h : List (ConnectCall × List MysqlCall)}
    {s : Option DBConnect} (hrun : ConnectRun h s) :
    HandlesRightInRun h ↔ AttemptsSucceed h := by
  induction hrun with
  | start => exact iff_of_true (atEach_nil _) (atEach_nil _)
  | @next h t u call o hrun hstep ih =>
    unfold HandlesRightInRun AttemptsSucceed at ih ⊢
    rw [atEach_concat, atEach_concat, ← ih]
    apply and_congr_right
    intro hright
    have hopen : openHandles h = held t := openHandles_eq_held hrun hright
    have hiff := step_handles_iff hstep
    rw [← hopen] at hiff
    constructor
    · intro hlast s hs
      rw [hs.state_unique hrun]
      exact hiff.mp (hlast u (hrun.next hstep))
    · intro hlast s hs
      rw [hs.state_unique (hrun.next hstep)]
      exact hiff.mpr (hlast t hrun)

/-- A first attempt that fails is enough. -/
theorem init_not_right {answers : ConnectAnswers} (hfails : ¬Connects answers) :
    ∃ h s, ConnectRun h s ∧ inputs h = [.init [] [] answers] ∧ ¬HandlesRightInRun h := by
  have hrun : ConnectRun [(.init [] [] answers, (DBConnect.new.init [] [] answers).calls)]
      (some (DBConnect.new.init [] [] answers).db) := Runs.single rfl
  refine ⟨_, _, hrun, rfl, ?_⟩
  intro hright
  have hfirst : HandlesRight (held (some DBConnect.new))
      (DBConnect.new.init [] [] answers).calls (some (DBConnect.new.init [] [] answers).db) :=
    hright [] _ [] rfl _ hrun
  have hstep : connectStep (some DBConnect.new) (.init [] [] answers) =
      some (some (DBConnect.new.init [] [] answers).db,
        (DBConnect.new.init [] [] answers).calls) := rfl
  exact hfails ((step_handles_iff hstep).mp hfirst answers rfl)

/-- An attempt without memory for a handle, which `mysql_options` is given nevertheless,
and one that the server refuses, whose handle stays open. -/
theorem failed_attempts_not_right :
    (∃ h s, ConnectRun h s ∧ inputs h = [.init [] [] ⟨false, true, true⟩] ∧
      ¬HandlesRightInRun h) ∧
    ∃ h s, ConnectRun h s ∧ inputs h = [.init [] [] ⟨true, false, true⟩] ∧
      ¬HandlesRightInRun h := by
  constructor
  · exact init_not_right (by decide)
  · exact init_not_right (by decide)

/-- A connection that is lost and made again before the object is destroyed. -/
theorem handlesRight_iff_attemptsSucceed_reconnect :
    ∃ h, ConnectRun h none ∧
      inputs h = [.init [] [] ⟨true, true, true⟩,
        .loadtabledata (some serverSql) ⟨false, ⟨true, true, true⟩, true, none⟩, .destroy] ∧
      (HandlesRightInRun h ↔ AttemptsSucceed h) := by
  obtain ⟨h, hrun, hin⟩ : ∃ h, ConnectRun h none ∧
      inputs h = [.init [] [] ⟨true, true, true⟩,
        .loadtabledata (some serverSql) ⟨false, ⟨true, true, true⟩, true, none⟩, .destroy] :=
    ⟨_, ((Runs.start.next rfl).next rfl).next rfl, rfl⟩
  exact ⟨h, hrun, hin, handlesRight_iff_attemptsSucceed hrun⟩

end ShootGame.Analysis
