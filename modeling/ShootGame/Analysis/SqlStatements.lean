import ShootGame.Library.QuotedLiteral
import ShootGame.Model.RegisterNode

/-!
# What a database reads in the statements

The two nodes put the account and the password between quotes as they are.  The server
reads literals with the rules of MySQL: a doubled quote stands for a quote, a backslash
for what the table below says.  `statements_read_iff` gives the strings that come out as
they went in.
-/

set_option autoImplicit false

namespace ShootGame.Analysis

open ShootGame.Library ShootGame.Model

/-- The escape sequences of a literal.  The two wildcards of patterns keep their
backslash; before any other character it is dropped. -/
def mysqlUnescape (c : UInt8) : List UInt8 :=
  if c = 48 then [0]
  else if c = 98 then [8]
  else if c = 110 then [10]
  else if c = 114 then [13]
  else if c = 116 then [9]
  else if c = 90 then [26]
  else if c = 37 ∨ c = 95 then [92, c]
  else [c]

/-- An escape sequence means one character, or its backslash is kept. -/
theorem mysqlUnescape_length (c : UInt8) :
    (mysqlUnescape c).length ≤ 1 ∨ mysqlUnescape c = [92, c] := by
  unfold mysqlUnescape
  split_ifs <;> simp

/-- Literals between single quotes, with the backslash as escape character. -/
def mysqlRules : LiteralRules UInt8 where
  quote := 39
  escape := 92
  unescape := mysqlUnescape
  quote_ne_escape := by decide
  unescape_length := mysqlUnescape_length

/-- The wildcards keep their backslash, and nothing else does. -/
theorem mysqlUnescape_eq_iff (c : UInt8) : mysqlUnescape c = [92, c] ↔ c = 37 ∨ c = 95 := by
  unfold mysqlUnescape
  split_ifs <;> simp_all

/-- No quote, and behind every backslash one of the wildcards `%` and `_`. -/
def NeedsNoEscape (str : List UInt8) : Prop :=
  39 ∉ str ∧ ∀ i : ℕ, str[i]? = some 92 → str[i + 1]? = some 37 ∨ str[i + 1]? = some 95

/-- An ordinary character in front changes nothing. -/
theorem needsNoEscape_cons {c : UInt8} (hquote : c ≠ 39) (hescape : c ≠ 92) (cs : List UInt8) :
    NeedsNoEscape (c :: cs) ↔ NeedsNoEscape cs := by
  unfold NeedsNoEscape
  constructor
  · rintro ⟨hfree, hnext⟩
    constructor
    · intro hmem
      exact hfree (List.mem_cons_of_mem _ hmem)
    · intro i hi
      simpa using hnext (i + 1) (by simpa using hi)
  · rintro ⟨hfree, hnext⟩
    constructor
    · simpa [hquote.symm] using hfree
    · intro i hi
      cases i with
      | zero => simp [hescape] at hi
      | succ i => simpa using hnext i (by simpa using hi)

/-- A backslash in front needs a wildcard behind it. -/
theorem needsNoEscape_escape (c : UInt8) (cs : List UInt8) :
    NeedsNoEscape (92 :: c :: cs) ↔ (c = 37 ∨ c = 95) ∧ NeedsNoEscape cs := by
  constructor
  · intro h
    have hc : c = 37 ∨ c = 95 := by simpa using h.2 0 rfl
    refine ⟨hc, ?_, ?_⟩
    · intro hmem
      exact h.1 (by simp [hmem])
    · intro i hi
      simpa using h.2 (i + 2) (by simpa using hi)
  · rintro ⟨hc, hfree, hnext⟩
    have hc' : c ≠ 39 ∧ c ≠ 92 := by
      rcases hc with rfl | rfl <;> decide
    constructor
    · simpa [hc'.1.symm] using hfree
    · intro i hi
      match i with
      | 0 => simpa using hc
      | 1 => simp [hc'.2] at hi
      | i + 2 => simpa using hnext i (by simpa using hi)

/-- The condition on the positions is the one that the lexer goes by. -/
theorem plain_iff_needsNoEscape (str : List UInt8) : mysqlRules.Plain str ↔ NeedsNoEscape str := by
  induction str using LiteralRules.Plain.induct with
  | case1 => simp [LiteralRules.Plain, NeedsNoEscape]
  | case2 c =>
    have hone : mysqlRules.Plain [c] ↔ c ≠ 39 ∧ c ≠ 92 := Iff.rfl
    rw [hone]
    constructor
    · rintro ⟨hquote, hescape⟩
      rw [needsNoEscape_cons hquote hescape]
      simp [NeedsNoEscape]
    · rintro ⟨hfree, hnext⟩
      constructor
      · intro h
        exact hfree (by simp [h])
      · intro h
        simpa using hnext 0 (by simp [h])
  | case3 c c' cs ih ih' =>
    have hmore : mysqlRules.Plain (c :: c' :: cs) ↔ c ≠ 39 ∧
        if c = 92 then mysqlUnescape c' = [c, c'] ∧ mysqlRules.Plain cs
        else mysqlRules.Plain (c' :: cs) := Iff.rfl
    rw [hmore]
    by_cases hescape : c = 92
    · subst hescape
      rw [if_pos rfl, mysqlUnescape_eq_iff, ih, needsNoEscape_escape]
      simp
    · rw [if_neg hescape, ih']
      by_cases hquote : c = 39
      · simp [hquote, NeedsNoEscape]
      · simp [hquote, needsNoEscape_cons hquote hescape]

/-! ## The two statements -/

/-- The statement that a registration is meant to be. -/
def addAccountStatement (strAccount strPassword : List UInt8) : Statement UInt8 where
  segments := [(ascii "call p_addAccountByMyself(", strAccount), (ascii " ,", strPassword)]
  last := ascii ",@accountid,@isNew);"

/-- The statement that a check of a login is meant to be. -/
def checkLoginStatement (strAccount strPassword : List UInt8) : Statement UInt8 where
  segments := [(ascii "selsect * frome account where loginname = ", strAccount),
    (ascii " and password = ", strPassword)]
  last := ascii ";"

/-- The registration's statement has the two values spliced in. -/
theorem addAccountSql_eq (a p : List UInt8) :
    CRegisterWaitNode.addAccountSql a p = (addAccountStatement a p).spliced mysqlRules := by
  have hopen : ascii "call p_addAccountByMyself('" =
      ascii "call p_addAccountByMyself(" ++ [39] := by decide
  have hcomma : ascii " ,'" = ascii " ," ++ [39] := by decide
  have hlast : ascii "',@accountid,@isNew);" = 39 :: ascii ",@accountid,@isNew);" := by decide
  have hquote : ascii "'" = [39] := by decide
  simp only [CRegisterWaitNode.addAccountSql, hopen, hcomma, hlast, hquote, addAccountStatement,
    Statement.spliced, mysqlRules, List.flatMap_cons, List.flatMap_nil, List.append_assoc,
    List.cons_append, List.nil_append]

/-- So does the login's. -/
theorem checkLoginSql_eq (a p : List UInt8) :
    CLoginWaitNode.checkLoginSql a p = (checkLoginStatement a p).spliced mysqlRules := by
  have hopen : ascii "selsect * frome account where loginname = '" =
      ascii "selsect * frome account where loginname = " ++ [39] := by decide
  have hand : ascii "' and password = '" = 39 :: (ascii " and password = " ++ [39]) := by decide
  have hlast : ascii "';" = 39 :: ascii ";" := by decide
  simp only [CLoginWaitNode.checkLoginSql, hopen, hand, hlast, checkLoginStatement,
    Statement.spliced, mysqlRules, List.flatMap_cons, List.flatMap_nil, List.append_assoc,
    List.cons_append, List.nil_append]

/-- The values of the registration stand apart from each other. -/
theorem addAccountStatement_apart (a p : List UInt8) :
    (addAccountStatement a p).Apart mysqlRules := by
  refine ⟨?_, show (39 : UInt8) ∉ ascii ",@accountid,@isNew);" by decide⟩
  intro segment hsegment
  simp only [addAccountStatement, List.mem_cons, List.not_mem_nil, or_false] at hsegment
  rcases hsegment with rfl | rfl
  · dsimp only [mysqlRules]
    decide
  · dsimp only [mysqlRules]
    decide

/-- So do the login's. -/
theorem checkLoginStatement_apart (a p : List UInt8) :
    (checkLoginStatement a p).Apart mysqlRules := by
  refine ⟨?_, show (39 : UInt8) ∉ ascii ";" by decide⟩
  intro segment hsegment
  simp only [checkLoginStatement, List.mem_cons, List.not_mem_nil, or_false] at hsegment
  rcases hsegment with rfl | rfl
  · dsimp only [mysqlRules]
    decide
  · dsimp only [mysqlRules]
    decide

/-- The registration is read as meant exactly if neither value needs an escape. -/
theorem addAccount_read_iff (a p : List UInt8) :
    mysqlRules.lex (CRegisterWaitNode.addAccountSql a p) =
      some (addAccountStatement a p).tokens ↔ NeedsNoEscape a ∧ NeedsNoEscape p := by
  rw [addAccountSql_eq, Statement.lex_spliced_iff (addAccountStatement_apart a p)]
  simp [addAccountStatement, plain_iff_needsNoEscape]

/-- So is the login. -/
theorem checkLogin_read_iff (a p : List UInt8) :
    mysqlRules.lex (CLoginWaitNode.checkLoginSql a p) =
      some (checkLoginStatement a p).tokens ↔ NeedsNoEscape a ∧ NeedsNoEscape p := by
  rw [checkLoginSql_eq, Statement.lex_spliced_iff (checkLoginStatement_apart a p)]
  simp [checkLoginStatement, plain_iff_needsNoEscape]

/-- Each statement is read as its template, with the account and the password as the
values of its two literals, exactly where neither needs an escape. -/
theorem statements_read_iff (a p : List UInt8) :
    (mysqlRules.lex (CRegisterWaitNode.addAccountSql a p) =
        some (addAccountStatement a p).tokens ↔ NeedsNoEscape a ∧ NeedsNoEscape p) ∧
      (mysqlRules.lex (CLoginWaitNode.checkLoginSql a p) =
        some (checkLoginStatement a p).tokens ↔ NeedsNoEscape a ∧ NeedsNoEscape p) :=
  ⟨addAccount_read_iff a p, checkLogin_read_iff a p⟩

/-- With the password `' or ''='` neither statement is read as it was meant. -/
theorem statements_misread :
    mysqlRules.lex (CRegisterWaitNode.addAccountSql (ascii "a") (ascii "' or ''='")) ≠
        some (addAccountStatement (ascii "a") (ascii "' or ''='")).tokens ∧
      mysqlRules.lex (CLoginWaitNode.checkLoginSql (ascii "a") (ascii "' or ''='")) ≠
        some (checkLoginStatement (ascii "a") (ascii "' or ''='")).tokens := by
  have hquote : (39 : UInt8) ∈ ascii "' or ''='" := by decide
  rw [Ne, Ne, addAccount_read_iff, checkLogin_read_iff]
  constructor
  · intro h
    exact h.2.1 hquote
  · intro h
    exact h.2.1 hquote

end ShootGame.Analysis
