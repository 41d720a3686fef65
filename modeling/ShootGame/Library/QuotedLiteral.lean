import Mathlib.Algebra.Order.BigOperators.Group.List
import Mathlib.Data.List.Basic
import Mathlib.Tactic.Ring

/-!
# Quoted literals

A language in which a literal stands between two quotes.  Inside of a literal a doubled
quote stands for one quote, and the escape character together with the next one for what
`unescape` says: at most one character, or the two as they are.

A value that is put between two quotes without being quoted first is read back if and
only if it is `Plain`.  One direction is a run of the lexer.  For the other, the tokens
never weigh more than the input, and where they weigh as much, no character of a literal
was lost; so that the whole statement can be compared with its template at once, without
following the lexer through what a wrong value makes of the rest.
-/

set_option autoImplicit false

namespace ShootGame.Library

/-- How literals are written over an alphabet. -/
structure LiteralRules (α : Type) where
  quote : α
  escape : α
  unescape : α → List α
  quote_ne_escape : quote ≠ escape
  unescape_length : ∀ c, (unescape c).length ≤ 1 ∨ unescape c = [escape, c]

/-- What the lexer yields: a character outside of literals, or the value of a literal. -/
inductive Token (α : Type) where
  | code (c : α)
  | literal (value : List α)
deriving DecidableEq, Repr

/-- Where the lexer is; inside of a literal, with the value so far. -/
inductive LexMode (α : Type) where
  | outside
  | inside (value : List α)

/-- How many characters a token needs at least. -/
def Token.weight {α : Type} : Token α → ℕ
  | code _ => 1
  | literal value => value.length + 2

def weight {α : Type} (tokens : List (Token α)) : ℕ := (tokens.map Token.weight).sum

/-- What the lexer has read of a literal that it has not yielded. -/
def LexMode.owed {α : Type} : LexMode α → ℕ
  | outside => 0
  | inside value => value.length + 1

section Weight

variable {α : Type}

/-- No tokens need no characters. -/
@[simp] theorem weight_nil : weight ([] : List (Token α)) = 0 := rfl

/-- The first token needs its characters, and the others theirs. -/
@[simp] theorem weight_cons (token : Token α) (tokens : List (Token α)) :
    weight (token :: tokens) = token.weight + weight tokens := by
  simp [weight]

/-- Two lists of tokens need the characters of both. -/
@[simp] theorem weight_append (tokens tokens' : List (Token α)) :
    weight (tokens ++ tokens') = weight tokens + weight tokens' := by
  simp [weight]

/-- A text outside of literals needs its own characters. -/
@[simp] theorem weight_code (cs : List α) : weight (cs.map Token.code) = cs.length := by
  induction cs with
  | nil => rfl
  | cons c cs ih =>
    rw [List.map_cons, weight_cons, ih, List.length_cons, Nat.add_comm]
    rfl

end Weight

namespace LiteralRules

variable {α : Type} (rules : LiteralRules α)

/-- An escape stands for at most two characters. -/
theorem unescape_length_le (c : α) : (rules.unescape c).length ≤ 2 := by
  rcases rules.unescape_length c with hshort | hboth
  · omega
  · rw [hboth]
    rfl

variable [DecidableEq α]

/-- The tokens of an input; a literal that is not closed is an error. -/
def lexFrom : LexMode α → List α → Option (List (Token α))
  | .outside, [] => some []
  | .outside, c :: cs =>
    if c = rules.quote then lexFrom (.inside []) cs
    else (lexFrom .outside cs).map (.code c :: ·)
  | .inside _, [] => none
  | .inside value, [c] => if c = rules.quote then some [.literal value] else none
  | .inside value, c :: c' :: cs =>
    if c = rules.quote then
      if c' = rules.quote then lexFrom (.inside (value ++ [c])) cs
      else (lexFrom .outside (c' :: cs)).map (.literal value :: ·)
    else if c = rules.escape then lexFrom (.inside (value ++ rules.unescape c')) cs
    else lexFrom (.inside (value ++ [c])) (c' :: cs)

def lex (input : List α) : Option (List (Token α)) := rules.lexFrom .outside input

/-- The value stands for itself between two quotes. -/
def Plain : List α → Prop
  | [] => True
  | [c] => c ≠ rules.quote ∧ c ≠ rules.escape
  | c :: c' :: cs =>
    c ≠ rules.quote ∧
      if c = rules.escape then rules.unescape c' = [c, c'] ∧ Plain cs else Plain (c' :: cs)

/-! ## A plain value is read back -/

variable {rules}

/-- An ordinary character may stand in front of plain text. -/
theorem plain_cons {c : α} (hquote : c ≠ rules.quote) (hescape : c ≠ rules.escape)
    {cs : List α} (h : rules.Plain cs) : rules.Plain (c :: cs) := by
  cases cs with
  | nil => exact ⟨hquote, hescape⟩
  | cons c' cs =>
    refine ⟨hquote, ?_⟩
    rw [if_neg hescape]
    exact h

/-- An escape that stands for itself may stand in front of plain text. -/
theorem plain_escape {c : α} (hc : rules.unescape c = [rules.escape, c]) {cs : List α}
    (h : rules.Plain cs) : rules.Plain (rules.escape :: c :: cs) := by
  refine ⟨rules.quote_ne_escape.symm, ?_⟩
  rw [if_pos rfl]
  exact ⟨hc, h⟩

/-- A quote that is not doubled closes the literal. -/
theorem lexFrom_close (value : List α) {rest : List α} (h : rest.head? ≠ some rules.quote) :
    rules.lexFrom (.inside value) (rules.quote :: rest) =
      (rules.lexFrom .outside rest).map (.literal value :: ·) := by
  cases rest with
  | nil => simp [lexFrom]
  | cons c cs =>
    have hc : c ≠ rules.quote := by simpa using h
    simp [lexFrom, hc]

/-- Inside a literal, plain text up to the quote is its value. -/
theorem lexFrom_inside (value : List α) {cs rest : List α} (hcs : rules.Plain cs)
    (h : rest.head? ≠ some rules.quote) :
    rules.lexFrom (.inside value) (cs ++ rules.quote :: rest) =
      (rules.lexFrom .outside rest).map (.literal (value ++ cs) :: ·) := by
  induction cs using Plain.induct generalizing value with
  | case1 => simpa using lexFrom_close value h
  | case2 c =>
    obtain ⟨hquote, hescape⟩ := hcs
    rw [List.singleton_append, lexFrom, if_neg hquote, if_neg hescape]
    exact lexFrom_close _ h
  | case3 c c' cs ih ih' =>
    obtain ⟨hquote, hrest⟩ := hcs
    rw [List.cons_append, List.cons_append, lexFrom, if_neg hquote]
    by_cases hescape : c = rules.escape
    · rw [if_pos hescape] at hrest ⊢
      rw [ih _ hrest.2, hrest.1, List.append_assoc]
      rfl
    · rw [if_neg hescape] at hrest ⊢
      rw [← List.cons_append, ih' _ hrest, List.append_assoc]
      rfl

/-- Outside of literals, text without a quote is read as it stands. -/
theorem lexFrom_text {cs rest : List α} (h : rules.quote ∉ cs) :
    rules.lexFrom .outside (cs ++ rest) =
      (rules.lexFrom .outside rest).map (cs.map .code ++ ·) := by
  induction cs with
  | nil => simp
  | cons c cs ih =>
    rw [List.mem_cons, not_or] at h
    rw [List.cons_append, lexFrom, if_neg (Ne.symm h.1), ih h.2, Option.map_map]
    rfl

/-! ## Nothing is lost in a plain value only -/

/-- The tokens never weigh more than the input.  By the recursion of the lexer; what an
escape or a doubled quote loses is the difference. -/
theorem weight_le {mode : LexMode α} {input : List α} {tokens : List (Token α)}
    (h : rules.lexFrom mode input = some tokens) :
    weight tokens ≤ mode.owed + input.length := by
  fun_induction lexFrom rules mode input generalizing tokens with
  | case1 =>
    rw [← Option.some_inj.mp h]
    simp
  | case2 cs ih =>
    have hle := ih h
    simp only [LexMode.owed, List.length_nil, List.length_cons] at hle ⊢
    omega
  | case3 c cs hquote ih =>
    obtain ⟨rest, hrest, rfl⟩ := Option.map_eq_some_iff.mp h
    have hle := ih hrest
    simp only [weight_cons, Token.weight, LexMode.owed, List.length_cons] at hle ⊢
    omega
  | case4 value => contradiction
  | case5 value =>
    rw [← Option.some_inj.mp h]
    simp only [weight_cons, weight_nil, Token.weight, LexMode.owed, List.length_singleton]
    omega
  | case6 value c hquote => contradiction
  | case7 value cs ih =>
    have hle := ih h
    simp only [LexMode.owed, List.length_append, List.length_cons, List.length_nil] at hle ⊢
    omega
  | case8 value c' cs hquote ih =>
    obtain ⟨rest, hrest, rfl⟩ := Option.map_eq_some_iff.mp h
    have hle := ih hrest
    simp only [weight_cons, Token.weight, LexMode.owed, List.length_cons] at hle ⊢
    omega
  | case9 value c' cs hquote ih =>
    have hle := ih h
    have hlen := rules.unescape_length_le c'
    simp only [LexMode.owed, List.length_append, List.length_cons] at hle ⊢
    omega
  | case10 value c c' cs hquote hescape ih =>
    have hle := ih h
    simp only [LexMode.owed, List.length_append, List.length_cons, List.length_nil] at hle ⊢
    omega

/-- The literals among the tokens are plain; of the literal that the lexer stands in, the
part that is still to be read. -/
def Kept (rules : LiteralRules α) : LexMode α → List (Token α) → Prop
  | .outside, tokens => ∀ value, .literal value ∈ tokens → rules.Plain value
  | .inside value, tokens => ∃ cs rest, tokens = .literal (value ++ cs) :: rest ∧
    rules.Plain cs ∧ ∀ value', .literal value' ∈ rest → rules.Plain value'

/-- Tokens that weigh as much as the input have lost nothing. -/
theorem kept_of_weight {mode : LexMode α} {input : List α} {tokens : List (Token α)}
    (h : rules.lexFrom mode input = some tokens)
    (hweight : weight tokens = mode.owed + input.length) : Kept rules mode tokens := by
  fun_induction lexFrom rules mode input generalizing tokens with
  | case1 =>
    rw [← Option.some_inj.mp h]
    intro value hvalue
    exact absurd hvalue List.not_mem_nil
  | case2 cs ih =>
    obtain ⟨value, rest, rfl, hplain, hrest⟩ := ih h (by
      simp only [LexMode.owed, List.length_nil, List.length_cons] at hweight ⊢
      omega)
    intro value' hvalue'
    rcases List.mem_cons.mp hvalue' with heq | hmem
    · rw [List.nil_append, Token.literal.injEq] at heq
      rwa [heq]
    · exact hrest value' hmem
  | case3 c cs hquote ih =>
    obtain ⟨rest, hrest, rfl⟩ := Option.map_eq_some_iff.mp h
    have hkept := ih hrest (by
      simp only [weight_cons, Token.weight, LexMode.owed, List.length_cons] at hweight ⊢
      omega)
    intro value hvalue
    rcases List.mem_cons.mp hvalue with heq | hmem
    · cases heq
    · exact hkept value hmem
  | case4 value => contradiction
  | case5 value =>
    rw [← Option.some_inj.mp h]
    exact ⟨[], [], by simp, trivial, by simp⟩
  | case6 value c hquote => contradiction
  | case7 value cs ih =>
    -- a doubled quote is two characters for one
    have hle := weight_le h
    simp only [LexMode.owed, List.length_append, List.length_cons, List.length_nil]
      at hle hweight
    omega
  | case8 value c' cs hquote ih =>
    obtain ⟨rest, hrest, rfl⟩ := Option.map_eq_some_iff.mp h
    have hkept := ih hrest (by
      simp only [weight_cons, Token.weight, LexMode.owed, List.length_cons] at hweight ⊢
      omega)
    exact ⟨[], rest, by simp, trivial, hkept⟩
  | case9 value c' cs hquote ih =>
    rcases rules.unescape_length c' with hshort | hboth
    · have hle := weight_le h
      simp only [LexMode.owed, List.length_append, List.length_cons] at hle hweight
      omega
    · obtain ⟨cs', rest, rfl, hplain, hrest⟩ := ih h (by
        simp only [LexMode.owed, List.length_append, List.length_cons, hboth, List.length_nil]
          at hweight ⊢
        omega)
      refine ⟨rules.escape :: c' :: cs', rest, ?_, plain_escape hboth hplain, hrest⟩
      rw [hboth, List.append_assoc]
      rfl
  | case10 value c c' cs hquote hescape ih =>
    obtain ⟨cs', rest, rfl, hplain, hrest⟩ := ih h (by
      simp only [LexMode.owed, List.length_append, List.length_cons, List.length_nil]
        at hweight ⊢
      omega)
    refine ⟨c :: cs', rest, ?_, plain_cons hquote hescape hplain, hrest⟩
    rw [List.append_assoc]
    rfl

end LiteralRules

/-! ## Statements -/

/-- A statement with literals: a text and a value several times, and a last text. -/
structure Statement (α : Type) where
  segments : List (List α × List α)
  last : List α

namespace Statement

variable {α : Type}

/-- The tokens that the statement is meant to have. -/
def tokens (stmt : Statement α) : List (Token α) :=
  stmt.segments.flatMap (fun segment => segment.1.map .code ++ [.literal segment.2]) ++
    stmt.last.map .code

/-- The statement as it is written by putting the values between quotes. -/
def spliced (rules : LiteralRules α) (stmt : Statement α) : List α :=
  stmt.segments.flatMap (fun segment =>
    segment.1 ++ rules.quote :: (segment.2 ++ [rules.quote])) ++ stmt.last

/-- The texts have no quotes of their own and keep the literals apart. -/
def Apart (rules : LiteralRules α) (stmt : Statement α) : Prop :=
  (∀ segment ∈ stmt.segments, segment.1 ≠ [] ∧ rules.quote ∉ segment.1) ∧
    rules.quote ∉ stmt.last

/-- The tokens of a statement need as many characters as it has. -/
theorem weight_tokens (rules : LiteralRules α) (stmt : Statement α) :
    weight stmt.tokens = (stmt.spliced rules).length := by
  obtain ⟨segments, last⟩ := stmt
  induction segments with
  | nil => simp [tokens, spliced]
  | cons segment segments ih =>
    simp only [tokens, spliced, List.flatMap_cons, List.append_assoc, weight_append, weight_cons,
      weight_code, weight_nil, Token.weight, List.length_append, List.length_cons,
      List.length_nil] at ih ⊢
    omega

/-- A statement that keeps its literals apart does not begin with a quote. -/
theorem head?_spliced {rules : LiteralRules α} {stmt : Statement α} (h : stmt.Apart rules) :
    (stmt.spliced rules).head? ≠ some rules.quote := by
  obtain ⟨segments, last⟩ := stmt
  intro hhead
  cases segments with
  | nil => exact h.2 (List.mem_of_mem_head? hhead)
  | cons segment segments =>
    obtain ⟨hne, hquote⟩ := h.1 segment List.mem_cons_self
    obtain ⟨c, cs, hcs⟩ := List.exists_cons_of_ne_nil hne
    rw [spliced, List.flatMap_cons, hcs] at hhead
    rw [hcs] at hquote
    exact hquote (List.mem_of_mem_head? hhead)

section Lex

variable [DecidableEq α] {rules : LiteralRules α}

/-- Plain values are found again. -/
theorem lex_spliced {stmt : Statement α} (h : stmt.Apart rules)
    (hplain : ∀ segment ∈ stmt.segments, rules.Plain segment.2) :
    rules.lex (stmt.spliced rules) = some stmt.tokens := by
  obtain ⟨segments, last⟩ := stmt
  induction segments with
  | nil =>
    have htext : rules.lexFrom .outside (last ++ []) =
        (rules.lexFrom .outside []).map (last.map .code ++ ·) := rules.lexFrom_text h.2
    simpa [spliced, tokens, LiteralRules.lex, LiteralRules.lexFrom] using htext
  | cons segment segments ih =>
    have hrest : Apart rules ⟨segments, last⟩ :=
      ⟨fun segment' h' => h.1 segment' (List.mem_cons_of_mem _ h'), h.2⟩
    have hlex := ih hrest fun segment' h' => hplain segment' (List.mem_cons_of_mem _ h')
    have hfirst := hplain segment List.mem_cons_self
    have hquote := (h.1 segment List.mem_cons_self).2
    have hstep : spliced rules ⟨segment :: segments, last⟩ =
        segment.1 ++ rules.quote :: (segment.2 ++ rules.quote ::
          spliced rules ⟨segments, last⟩) := by
      simp [spliced]
    rw [hstep, LiteralRules.lex, LiteralRules.lexFrom_text hquote, LiteralRules.lexFrom,
      if_pos rfl, LiteralRules.lexFrom_inside [] hfirst (head?_spliced hrest)]
    rw [LiteralRules.lex] at hlex
    rw [hlex]
    simp [tokens]

/-- A statement is read as its template if and only if all values are plain. -/
theorem lex_spliced_iff {stmt : Statement α} (h : stmt.Apart rules) :
    rules.lex (stmt.spliced rules) = some stmt.tokens ↔
      ∀ segment ∈ stmt.segments, rules.Plain segment.2 := by
  constructor
  · intro hlex segment hsegment
    have hweight : weight stmt.tokens =
        (LexMode.outside : LexMode α).owed + (stmt.spliced rules).length := by
      rw [weight_tokens rules]
      exact (Nat.zero_add _).symm
    apply LiteralRules.kept_of_weight hlex hweight
    apply List.mem_append_left
    apply List.mem_flatMap_of_mem hsegment
    exact List.mem_append_right _ (List.mem_singleton_self _)
  · exact lex_spliced h

end Lex

end Statement

end ShootGame.Library
