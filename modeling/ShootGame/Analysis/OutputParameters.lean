import ShootGame.Analysis.Connection
import ShootGame.Analysis.EncoderSafety
import ShootGame.Model.RegisterNode

/-!
# The outputs of the stored procedure

After a `call`, `loadtabledata` cuts the text of a second statement out of the first one:
from the first `@` on, as many bytes as there are from there to the first `)`.  Both are
looked for in the whole statement, the account and the password included.
`second_statement_iff` gives the statements from which the two output parameters are cut.
-/

set_option autoImplicit false

namespace ShootGame.Analysis

open ShootGame.Library ShootGame.Model

/-- The statements that are sent to the database, in order. -/
def statements (calls : List MysqlCall) : List (List UInt8) :=
  calls.filterMap fun
    | .realQuery _ sql => some sql
    | .query _ sql => some sql
    | _ => none

/-- The output parameters as the call names them. -/
def outputNames : List UInt8 := ascii "@accountid,@isNew"

/-! ## First occurrences -/

/-- The byte `c` stands at position `i` of `w`, and not before. -/
def FirstAt (c : UInt8) (i : ℕ) (w : List UInt8) : Prop :=
  ∃ u v, w = u ++ c :: v ∧ c ∉ u ∧ u.length = i

/-- A byte in front is the first occurrence, or moves it by one. -/
theorem firstAt_cons (c b : UInt8) (i : ℕ) (w : List UInt8) :
    FirstAt c i (b :: w) ↔ (b = c ∧ i = 0) ∨ (b ≠ c ∧ ∃ k, FirstAt c k w ∧ k + 1 = i) := by
  constructor
  · rintro ⟨u, v, heq, hfree, hlen⟩
    cases u with
    | nil =>
      rw [List.nil_append, List.cons.injEq] at heq
      exact Or.inl ⟨heq.1, hlen.symm⟩
    | cons d u =>
      rw [List.cons_append, List.cons.injEq] at heq
      rw [List.mem_cons, not_or] at hfree
      refine Or.inr ⟨?_, u.length, ⟨u, v, heq.2, hfree.2, rfl⟩, hlen⟩
      rw [heq.1]
      exact Ne.symm hfree.1
  · rintro (⟨rfl, rfl⟩ | ⟨hne, k, ⟨u, v, rfl, hfree, rfl⟩, rfl⟩)
    · exact ⟨[], w, rfl, List.not_mem_nil, rfl⟩
    · exact ⟨b :: u, v, rfl, by simp [Ne.symm hne, hfree], rfl⟩

/-- `find` with a single byte. -/
theorem find_eq_some_iff (c : UInt8) (w : List UInt8) (i : ℕ) :
    DBConnect.find [c] w = some i ↔ FirstAt c i w := by
  induction w generalizing i with
  | nil => simp [DBConnect.find, FirstAt]
  | cons b w ih =>
    rw [firstAt_cons, DBConnect.find]
    by_cases hb : b = c
    · simp [hb, eq_comm]
    · have hne : ([c].isPrefixOf (b :: w)) = false := by
        simp [List.isPrefixOf, Ne.symm hb]
      simp only [hne, Bool.false_eq_true, if_false, Option.map_eq_some_iff, ih, hb, false_and,
        false_or, ne_eq, not_false_eq_true, true_and]

/-- A byte is not found exactly if it is not there. -/
theorem find_singleton_eq_none_iff (c : UInt8) (w : List UInt8) :
    DBConnect.find [c] w = none ↔ c ∉ w := by
  induction w with
  | nil => simp [DBConnect.find]
  | cons b w ih =>
    rw [DBConnect.find]
    by_cases hb : b = c
    · simp [hb]
    · simp [ih, Ne.symm hb]

/-- There is one first occurrence. -/
theorem firstAt_unique {c : UInt8} {i j : ℕ} {w : List UInt8} (hi : FirstAt c i w)
    (hj : FirstAt c j w) : i = j := by
  rw [← find_eq_some_iff] at hi hj
  rw [hi] at hj
  exact Option.some.inj hj

/-! ## The second statement -/

/-- The number of bytes that are cut out, as the `int` it is computed in, is that of the
output parameters, or nothing stands behind them and it is larger.  (A negative number is
a large one.) -/
def CutsOutputs (iEnd : Int) (rest : List UInt8) : Prop :=
  toInt iEnd = outputNames.length ∨
    rest = [] ∧ (toInt iEnd < 0 ∨ (outputNames.length : Int) ≤ toInt iEnd)

/-- The first `@` of the statement is that of the output parameters, and the first `)`
has the distance from it that their text has. -/
def ReadsOutputs (w : List UInt8) : Prop :=
  ∃ u v, w = u ++ (outputNames ++ v) ∧ 64 ∉ u ∧
    (∀ j, FirstAt 41 j w → CutsOutputs ((j : Int) - u.length) v) ∧
    (41 ∉ w → CutsOutputs w.length v)

/-- As many bytes as the output parameters have, as a `size_t` and as an `int`. -/
theorem toSizeT_toInt_eq_iff (n : Int) :
    toSizeT (toInt n) = outputNames.length ↔ toInt n = outputNames.length := by
  obtain ⟨hlo, hhi⟩ := toInt_range n
  have hlen : outputNames.length = 17 := by decide
  unfold toSizeT
  rw [hlen]
  omega

/-- At least as many bytes, where a negative `int` is a large `size_t`. -/
theorem toSizeT_toInt_ge_iff (n : Int) :
    outputNames.length ≤ toSizeT (toInt n) ↔
      toInt n < 0 ∨ (outputNames.length : Int) ≤ toInt n := by
  obtain ⟨hlo, hhi⟩ := toInt_range n
  have hlen : outputNames.length = 17 := by decide
  unfold toSizeT
  rw [hlen]
  omega

/-- What is cut out is a given text exactly if the text stands there, and is as long as
the cut or the last thing that stands there. -/
theorem take_eq_iff {α : Type} (n : ℕ) (w t : List α) :
    w.take n = t ↔ ∃ v, w = t ++ v ∧ (n = t.length ∨ v = [] ∧ t.length ≤ n) := by
  constructor
  · rintro rfl
    refine ⟨w.drop n, (List.take_append_drop n w).symm, ?_⟩
    rw [List.length_take, List.drop_eq_nil_iff]
    omega
  · rintro ⟨v, rfl, rfl | ⟨rfl, hlen⟩⟩
    · exact List.take_left
    · rw [List.append_nil, List.take_of_length_le hlen]

/-- What is cut out are the output parameters exactly if they stand in front and their length is
cut. -/
theorem cut_iff (n : Int) (w : List UInt8) :
    w.take (toSizeT (toInt n)) = outputNames ↔ ∃ v, w = outputNames ++ v ∧ CutsOutputs n v := by
  rw [take_eq_iff]
  simp only [toSizeT_toInt_eq_iff, toSizeT_toInt_ge_iff, CutsOutputs]

/-- The output parameters begin with an `@`. -/
theorem at_mem_outputNames : outputNames = 64 :: ascii "accountid,@isNew" := by decide

/-- The output parameters start at the first `@`. -/
theorem length_of_firstAt {w u v : List UInt8} {i : ℕ} (hat : FirstAt 64 i w)
    (heq : w = u ++ (outputNames ++ v)) (hfree : 64 ∉ u) : u.length = i := by
  rw [at_mem_outputNames, List.cons_append] at heq
  exact firstAt_unique ⟨u, _, heq, hfree, rfl⟩ hat

/-- What is cut out from the first `@` on is the output parameters. -/
theorem cut_at_iff {w : List UInt8} {i : ℕ} (hat : FirstAt 64 i w) (n : Int) :
    (w.drop i).take (toSizeT (toInt n)) = outputNames ↔
      ∃ u v, w = u ++ (outputNames ++ v) ∧ 64 ∉ u ∧ CutsOutputs n v := by
  rw [cut_iff]
  constructor
  · rintro ⟨v, hdrop, hcut⟩
    obtain ⟨u, v', heq, hfree, hlen⟩ := hat
    have hu : w.take i = u := by
      rw [heq, ← hlen, List.take_left]
    refine ⟨u, v, ?_, hfree, hcut⟩
    rw [← hdrop, ← hu, List.take_append_drop]
  · rintro ⟨u, v, heq, hfree, hcut⟩
    refine ⟨v, ?_, hcut⟩
    rw [← length_of_firstAt hat heq hfree, heq, List.drop_left]

/-- `callsql` names the output parameters exactly for these statements. -/
theorem callSql_eq_iff {w : List UInt8} {i : ℕ} (hat : FirstAt 64 i w) :
    DBConnect.callSql w i = ascii "SELECT @accountid,@isNew" ↔ ReadsOutputs w := by
  have hsplit : ascii "SELECT @accountid,@isNew" = ascii "SELECT " ++ outputNames := by decide
  have hparen : ascii ")" = [41] := by decide
  unfold DBConnect.callSql
  rw [hsplit, List.append_cancel_left_eq, hparen]
  cases hfind : DBConnect.find [41] w with
  | none =>
    rw [find_singleton_eq_none_iff] at hfind
    dsimp only
    rw [cut_at_iff hat]
    constructor
    · rintro ⟨u, v, heq, hfree, hcut⟩
      refine ⟨u, v, heq, hfree, ?_, fun _ => hcut⟩
      rintro j ⟨u', v', heq', -⟩
      exact absurd (by rw [heq']; simp) hfind
    · rintro ⟨u, v, heq, hfree, -, hcut⟩
      exact ⟨u, v, heq, hfree, hcut hfind⟩
  | some j =>
    rw [find_eq_some_iff] at hfind
    dsimp only
    rw [cut_at_iff hat]
    constructor
    · rintro ⟨u, v, heq, hfree, hcut⟩
      refine ⟨u, v, heq, hfree, ?_, ?_⟩
      · intro k hk
        rw [firstAt_unique hk hfind, length_of_firstAt hat heq hfree]
        exact hcut
      · intro hnone
        obtain ⟨u', v', heq', -⟩ := hfind
        exact absurd (by rw [heq']; simp) hnone
    · rintro ⟨u, v, heq, hfree, hcut, -⟩
      have hcut' := hcut j hfind
      rw [length_of_firstAt hat heq hfree] at hcut'
      exact ⟨u, v, heq, hfree, hcut'⟩

/-! ## The statements of a query -/

/-- The statements in two lists of calls. -/
theorem statements_append (calls calls' : List MysqlCall) :
    statements (calls ++ calls') = statements calls ++ statements calls' :=
  List.filterMap_append

/-- Keeping the connection alive sends no statement. -/
theorem statements_keepAlive (db : DBConnect) (answers : LoadAnswers) :
    statements (db.keepAlive answers).calls = [] := by
  have hclear : statements db.clear.calls = [] := by
    unfold DBConnect.clear
    split <;> rfl
  have hinit : ∀ (db : DBConnect) (ip name : List UInt8) (answers : ConnectAnswers),
      statements (db.init ip name answers).calls = [] := by
    intro db ip name answers
    unfold DBConnect.init
    split
    · rfl
    · split
      · dsimp only
        split
        · split <;> rfl
        · rfl
      · rfl
  unfold DBConnect.keepAlive
  split
  · rfl
  · dsimp only
    rw [statements_append, statements_append, hclear, hinit]
    rfl

/-- Storing the result executes no statement. -/
theorem statements_storeResult (con : Option ℕ) (sql : List UInt8) (answers : LoadAnswers) :
    statements (DBConnect.storeResult con sql answers).2 = [] := by
  unfold DBConnect.storeResult
  split
  · split <;> rfl
  · rfl

/-- The statements that a call with output parameters executes. -/
theorem statements_runQuery {con : Option ℕ} {rest : List UInt8} {answers : LoadAnswers}
    (hquery : answers.realQuery = true) :
    let w := ascii "call" ++ rest
    statements (DBConnect.runQuery con w answers).2 =
      w :: ((DBConnect.find [64] w).map fun indexat => DBConnect.callSql w indexat).toList := by
  intro w
  have hat : ascii "@" = [64] := by decide
  have hhead : w.head? = some 99 := rfl
  have hcall : DBConnect.find (ascii "call") w ≠ none := by
    have hfirst : DBConnect.find (ascii "call") w = some 0 := rfl
    rw [hfirst]
    exact Option.some_ne_none 0
  unfold DBConnect.runQuery
  rw [if_neg (by rw [hquery]; simp), if_pos ⟨hhead, hcall⟩, hat]
  cases DBConnect.find [64] w with
  | none => rfl
  | some indexat =>
    dsimp only
    rw [statements_append, statements_storeResult]
    rfl

/-- The statement that reaches the database, up to a NUL in the account or the password. -/
def sentStatement (a p : List UInt8) : List UInt8 :=
  cString (CRegisterWaitNode.addAccountSql a p)

/-- The statement sent is a call. -/
theorem sentStatement_call (a p : List UInt8) : ∃ rest, sentStatement a p = ascii "call" ++ rest :=
  ⟨_, rfl⟩

/-- The second statement exists, and names the two parameters, for these calls. -/
theorem second_statement {db : DBConnect} (hcon : db.con ≠ none) {answers : LoadAnswers}
    (hstays : StaysConnected answers) (hquery : answers.realQuery = true) (a p : List UInt8) :
    (statements (db.loadtabledata (some (sentStatement a p)) answers).calls)[1]? =
        some (ascii "SELECT @accountid,@isNew") ↔ ReadsOutputs (sentStatement a p) := by
  obtain ⟨rest, hrest⟩ := sentStatement_call a p
  have hresult := (keepAlive_spec hcon answers).2.mpr hstays
  unfold DBConnect.loadtabledata
  rw [if_neg hcon]
  dsimp only
  rw [if_neg hresult, hrest]
  dsimp only
  rw [statements_append, statements_keepAlive, List.nil_append, statements_runQuery hquery]
  cases hfind : DBConnect.find [64] (ascii "call" ++ rest) with
  | none =>
    rw [find_singleton_eq_none_iff] at hfind
    refine iff_of_false (by simp) ?_
    rintro ⟨u, v, heq, -⟩
    rw [at_mem_outputNames] at heq
    exact hfind (by rw [heq]; simp)
  | some indexat =>
    rw [find_eq_some_iff] at hfind
    rw [← callSql_eq_iff hfind]
    simp

/-! ## Ordinary statements -/

section Ordinary

variable {a p : List UInt8}

/-- Without NULs the statement is sent whole. -/
theorem sentStatement_eq (ha : 0 ∉ a) (hp : 0 ∉ p) :
    sentStatement a p = CRegisterWaitNode.addAccountSql a p := by
  apply cString_eq_self
  have hopen : (0 : UInt8) ∉ ascii "call p_addAccountByMyself('" := by decide
  have hcomma : (0 : UInt8) ∉ ascii "'" ++ ascii " ,'" := by decide
  have hlast : (0 : UInt8) ∉ ascii "',@accountid,@isNew);" := by decide
  rw [List.mem_append, not_or] at hcomma
  simp only [CRegisterWaitNode.addAccountSql, List.mem_append, not_or]
  exact ⟨⟨⟨⟨⟨hopen, ha⟩, hcomma.1⟩, hcomma.2⟩, hp⟩, hlast⟩

/-- The statement ends with a semicolon. -/
theorem addAccountSql_getLast? (a p : List UInt8) :
    (CRegisterWaitNode.addAccountSql a p).getLast? = some 59 := by
  have hlast : ascii "',@accountid,@isNew);" = ascii "',@accountid,@isNew)" ++ [59] := by decide
  rw [CRegisterWaitNode.addAccountSql, hlast, ← List.append_assoc, List.getLast?_concat]

/-- There is a closing parenthesis in the statement. -/
theorem paren_mem_addAccountSql (a p : List UInt8) :
    41 ∈ CRegisterWaitNode.addAccountSql a p := by
  have hlast : (41 : UInt8) ∈ ascii "',@accountid,@isNew);" := by decide
  exact List.mem_append_right _ hlast

/-- The output parameters are not the end of a statement that ends with a semicolon, so the
first `)` closes them. -/
theorem closed_of_readsOutputs {w : List UInt8} (hlen : w.length < 2 ^ 31) (hmem : 41 ∈ w)
    (hlast : w.getLast? = some 59) (hreads : ReadsOutputs w) :
    ∃ u v, w = u ++ (outputNames ++ 41 :: v) ∧ 64 ∉ u ∧ 41 ∉ u := by
  have hnames : outputNames.length = 17 := by decide
  obtain ⟨u, v, heq, hfree, hcut, -⟩ := hreads
  obtain ⟨j, hj⟩ : ∃ j, DBConnect.find [41] w = some j := by
    rw [← Option.ne_none_iff_exists', ne_eq, find_singleton_eq_none_iff]
    exact not_not.mpr hmem
  rw [find_eq_some_iff] at hj
  have hdistance := hcut j hj
  obtain ⟨u', v', heq', hfree', hj'⟩ := hj
  have hlen₁ := congrArg List.length heq
  have hlen₂ := congrArg List.length heq'
  rw [List.length_append, List.length_append] at hlen₁
  rw [List.length_append, List.length_cons] at hlen₂
  rcases hdistance with hexact | ⟨hrest, -⟩
  · unfold toInt at hexact
    rw [Int.bmod_eq_of_le (by omega) (by omega)] at hexact
    -- the text before the first `)` is that before the outputs, and the outputs
    rw [heq, ← List.append_assoc] at heq'
    obtain ⟨hbefore, hbehind⟩ := List.append_inj heq' (by rw [List.length_append]; omega)
    refine ⟨u, v', ?_, hfree, ?_⟩
    · rw [heq, hbehind]
    · intro hparen
      apply hfree'
      rw [← hbefore]
      exact List.mem_append_left _ hparen
  · exfalso
    have hw : outputNames = ascii "@accountid,@isNe" ++ [119] := by decide
    rw [heq, hrest, List.append_nil, hw, ← List.append_assoc, List.getLast?_concat] at hlast
    exact absurd hlast (by decide)

/-- A statement with its first `@` and first `)` around the output parameters reads them. -/
theorem readsOutputs_of_closed {w u v : List UInt8} (heq : w = u ++ (outputNames ++ 41 :: v))
    (hfree : 64 ∉ u) (hfree' : 41 ∉ u) : ReadsOutputs w := by
  have hnames : outputNames.length = 17 := by decide
  have hfirst : FirstAt 41 (u.length + 17) w := by
    refine ⟨u ++ outputNames, v, ?_, ?_, ?_⟩
    · rw [heq, List.append_assoc]
    · rw [List.mem_append, not_or]
      exact ⟨hfree', by decide⟩
    · rw [List.length_append, hnames]
  refine ⟨u, 41 :: v, heq, hfree, ?_, ?_⟩
  · intro j hj
    rw [firstAt_unique hj hfirst]
    left
    have hdistance : ((u.length + 17 : ℕ) : Int) - u.length = 17 := by omega
    rw [hdistance, hnames]
    decide
  · intro hnone
    exact absurd (by rw [heq]; simp) hnone

/-- In a statement without a NUL that is shorter than `2 ^ 31`, the first `@` and the first
`)` have to be those of one text `@accountid,@isNew)`. -/
theorem readsOutputs_iff (ha : 0 ∉ a) (hp : 0 ∉ p)
    (hlen : (CRegisterWaitNode.addAccountSql a p).length < 2 ^ 31) :
    ReadsOutputs (sentStatement a p) ↔
      ∃ u v, CRegisterWaitNode.addAccountSql a p = u ++ (outputNames ++ 41 :: v) ∧
        64 ∉ u ∧ 41 ∉ u := by
  rw [sentStatement_eq ha hp]
  constructor
  · exact closed_of_readsOutputs hlen (paren_mem_addAccountSql a p) (addAccountSql_getLast? a p)
  · rintro ⟨u, v, heq, hfree, hfree'⟩
    exact readsOutputs_of_closed heq hfree hfree'

/-- Without `@` and `)` in the account and the password the outputs are read. -/
theorem readsOutputs_of_plain (ha : 0 ∉ a) (hp : 0 ∉ p)
    (hlen : (CRegisterWaitNode.addAccountSql a p).length < 2 ^ 31) (haAt : 64 ∉ a)
    (haParen : 41 ∉ a) (hpAt : 64 ∉ p) (hpParen : 41 ∉ p) :
    ReadsOutputs (sentStatement a p) := by
  rw [readsOutputs_iff ha hp hlen]
  refine ⟨ascii "call p_addAccountByMyself('" ++ a ++ ascii "'" ++ ascii " ,'" ++ p ++ ascii "',",
    [59], ?_, ?_, ?_⟩
  · have hlast : ascii "',@accountid,@isNew);" = ascii "'," ++ (outputNames ++ [41, 59]) := by
      decide
    rw [CRegisterWaitNode.addAccountSql, hlast, List.append_assoc (_ ++ p)]
  · simp only [List.mem_append, not_or]
    exact ⟨⟨⟨⟨⟨by decide, haAt⟩, by decide⟩, by decide⟩, hpAt⟩, by decide⟩
  · simp only [List.mem_append, not_or]
    exact ⟨⟨⟨⟨⟨by decide, haParen⟩, by decide⟩, by decide⟩, hpParen⟩, by decide⟩

end Ordinary

/-! ## All statements -/

/-- On a connection that lasts, a `call` that the database accepts is followed by the query
of the output parameters exactly if these are what is cut out of it; and that is so for
account and password in which there is no `@` and no `)`. -/
theorem second_statement_iff {db : DBConnect} (hcon : db.con ≠ none) {answers : LoadAnswers}
    (hstays : StaysConnected answers) (hquery : answers.realQuery = true) (a p : List UInt8) :
    ((statements (db.loadtabledata (some (sentStatement a p)) answers).calls)[1]? =
        some (ascii "SELECT @accountid,@isNew") ↔ ReadsOutputs (sentStatement a p)) ∧
      (0 ∉ a → 0 ∉ p → (CRegisterWaitNode.addAccountSql a p).length < 2 ^ 31 →
        (ReadsOutputs (sentStatement a p) ↔
          ∃ u v, CRegisterWaitNode.addAccountSql a p = u ++ (outputNames ++ 41 :: v) ∧
            64 ∉ u ∧ 41 ∉ u) ∧
        (64 ∉ a → 41 ∉ a → 64 ∉ p → 41 ∉ p → ReadsOutputs (sentStatement a p))) := by
  refine ⟨second_statement hcon hstays hquery a p, ?_⟩
  intro ha hp hlen
  exact ⟨readsOutputs_iff ha hp hlen, readsOutputs_of_plain ha hp hlen⟩

/-- An object with an open connection. -/
def connectedDB : DBConnect where
  con := some 0
  strDBip := []
  strDBName := []
  handles := 1
  con_lt := by simp

/-- A query during which nothing fails. -/
def goodAnswers : LoadAnswers := ⟨true, ⟨true, true, true⟩, true, none⟩

/-- An account and a password of letters. -/
theorem second_statement_plain :
    let a := ascii "A"
    let p := ascii "B"
    ((statements (connectedDB.loadtabledata (some (sentStatement a p)) goodAnswers).calls)[1]? =
        some (ascii "SELECT @accountid,@isNew") ↔ ReadsOutputs (sentStatement a p)) ∧
      (0 ∉ a → 0 ∉ p → (CRegisterWaitNode.addAccountSql a p).length < 2 ^ 31 →
        (ReadsOutputs (sentStatement a p) ↔
          ∃ u v, CRegisterWaitNode.addAccountSql a p = u ++ (outputNames ++ 41 :: v) ∧
            64 ∉ u ∧ 41 ∉ u) ∧
        (64 ∉ a → 41 ∉ a → 64 ∉ p → 41 ∉ p → ReadsOutputs (sentStatement a p))) := by
  have hcon : connectedDB.con ≠ none := by decide
  exact second_statement_iff hcon (Or.inl rfl) rfl (ascii "A") (ascii "B")

/-- With the account `a@b` the query starts at the `@` of the account. -/
theorem not_second_statement :
    ¬ ∀ (db : DBConnect) (answers : LoadAnswers) (a p : List UInt8), db.con ≠ none →
      StaysConnected answers → answers.realQuery = true → a.length ≤ 20 →
      39 ∉ p → 92 ∉ p → 0 ∉ p →
      (statements (db.loadtabledata (some (sentStatement a p)) answers).calls)[1]? =
        some (ascii "SELECT @accountid,@isNew") := by
  intro h
  have hsecond := h connectedDB goodAnswers (ascii "a@b") (ascii "pw") (by decide) (Or.inl rfl) rfl
    (by decide) (by decide) (by decide) (by decide)
  revert hsecond
  decide +kernel

end ShootGame.Analysis
