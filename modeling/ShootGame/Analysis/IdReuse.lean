import ShootGame.Analysis.SessionTable
import ShootGame.Library.Lease

/-!
# Reuse of session ids

The counter starts again at `1` after `999999999` sessions and nobody looks whether an
id is still in use.  Seen from the table, an accept takes the id of its session and a
failed read drops the id of its session, so that the table is a lease of ids
(`table_eq_leased`).  Hence the exact condition under which no entry of another session
is ever replaced or erased (`entries_undisturbed_iff`): the library's `Exclusive`, on
the order of accepts and failed reads.
-/

set_option autoImplicit false

namespace ShootGame.Analysis

open ShootGame.Library ShootGame.Model

/-! ## The table as a lease of ids -/

/-- What an event does with an id, once `n` sessions have been accepted. -/
def leaseOp (n : ℕ) : Event → List (LeaseOp ℕ)
  | .acceptDone _ _ => [.take n]
  | .readDone object true _ _ => [.drop object]
  | .readDone _ false _ _ => []
  | .mainStep _ _ => []

def leaseOpsFrom (n : ℕ) : List Event → List (LeaseOp ℕ)
  | [] => []
  | e :: es => leaseOp n e ++ leaseOpsFrom (n + accepts [e]) es

/-- The sessions that take and drop their ids, by their numbers. -/
def leaseOps (es : List Event) : List (LeaseOp ℕ) := leaseOpsFrom 0 es

/-- The lease operations of two lists of events, the second counted on from the first. -/
theorem leaseOpsFrom_append (n : ℕ) (es fs : List Event) :
    leaseOpsFrom n (es ++ fs) = leaseOpsFrom n es ++ leaseOpsFrom (n + accepts es) fs := by
  induction es generalizing n with
  | nil => simp [leaseOpsFrom, accepts]
  | cons e es ih =>
    have hcount : accepts (e :: es) = accepts [e] + accepts es := accepts_append [e] es
    simp only [List.cons_append, leaseOpsFrom, ih, List.append_assoc, hcount, Nat.add_assoc]

/-- The lease operation of one more event. -/
theorem leaseOps_concat (es : List Event) (e : Event) :
    leaseOps (es ++ [e]) = leaseOps es ++ leaseOp (accepts es) e := by
  simp [leaseOps, leaseOpsFrom_append, leaseOpsFrom]

/-- While the process runs, the table holds under each id the session that leases it,
and no null entry. -/
def Refines (es : List Event) (s : Server) : Prop :=
  s.halted = none → ∀ key : Int,
    s.network.mapAllClientSock[key]?.map (Option.map SessionClient.object) =
      (leased sessionId (leaseOps es) key).map some

/-- A step of the server keeps the table in step with the leases. -/
theorem refines_step {es : List Event} {s t : Server} {e : Event} {o : List Effect}
    (hflow : FlowInv s) (hinv : TableInv es s) (hrunning : s.halted = none) (href : Refines es s)
    (h : Stepped s e t o) : Refines (es ++ [e]) t := by
  have htable := href hrunning
  intro hhalted key
  rw [leaseOps_concat]
  cases h with
  | accept error junk session rest haccepting =>
    obtain ⟨pending, hpending, hobject, hnum⟩ := hinv.accepting
    rw [hpending, List.cons.injEq] at haccepting
    obtain ⟨rfl, rfl⟩ := haccepting
    simp only [leaseOp, leased_concat, LeaseOp.apply, Std.TreeMap.getElem?_insert,
      Std.LawfulEqCmp.compare_eq_iff_eq, hinv.currentID]
    by_cases hkey : sessionId (accepts es) = key
    · rw [if_pos hkey, ← hkey, Function.update_self, Option.map_some, Option.map_some,
        Option.map_some, hobject]
    · rw [if_neg hkey, Function.update_of_ne (Ne.symm hkey), htable key]
  | read object error data junk session hreading hlen =>
    obtain ⟨hobject, hlt, hnum⟩ := hinv.of_find? hreading
    simp only [getElem?_tableAfterRead]
    cases error with
    | false => simp [leaseOp, htable key]
    | true =>
      simp only [leaseOp, leased_concat, LeaseOp.apply, true_and, hnum.iID, hobject]
      by_cases hkey : sessionId object = key
      · rw [if_pos hkey, ← hkey, Function.update_self, Option.map_none, Option.map_none]
      · rw [if_neg hkey, Function.update_of_ne (Ne.symm hkey), htable key]
  | deal junk outcome i hmg hpc hmsg =>
    obtain ⟨net, halted, o, hdeal, heq⟩ := hflow.dealStep_eq hpc hmsg junk outcome
    rw [heq] at hhalted ⊢
    rw [leaseOp, List.append_nil]
    cases hdeal with
    | missing => cases hhalted
    | _ => exact htable key
  | _ =>
    rw [leaseOp, List.append_nil]
    exact htable key

/-- The table of a running process is the lease of ids. -/
theorem table_eq_leased {rand : UInt32} {h : List (Event × List Effect)} {s : Server}
    (hrun : ServerRun rand h s) : Refines (inputs h) s := by
  refine hrun.invariant (fun h s => Refines (inputs h) s) ?_ ?_
  · intro _ key
    simp [Server.start, MyZServerNetwork.acceptConnect, MyZServerNetwork.empty, leaseOps,
      leaseOpsFrom]
  · intro h u i v o hprefix href hstep
    obtain ⟨hrunning, hstepped⟩ := stepped_of_step hstep
    rw [inputs_append]
    exact refines_step (flowInv_of_run hprefix) (tableInv_of_run hprefix) hrunning href hstepped

/-! ## Disturbed entries -/

/-- No session was stored over an entry, and every entry that a failed read removed was
the entry of its own session. -/
def EntriesUndisturbed (effects : List Effect) : Prop :=
  (∀ key session old, .store key session old ∈ effects → old = none) ∧
    ∀ object key old, .erase object key old ∈ effects →
      ∃ session, old = some session ∧ session.object = object

/-- Two lists of effects disturb no entry if neither does. -/
theorem entriesUndisturbed_append (o₁ o₂ : List Effect) :
    EntriesUndisturbed (o₁ ++ o₂) ↔ EntriesUndisturbed o₁ ∧ EntriesUndisturbed o₂ := by
  simp only [EntriesUndisturbed, List.mem_append, or_imp, forall_and]
  tauto

/-- Effects that store and erase nothing disturb no entry. -/
theorem entriesUndisturbed_of_forall {effects : List Effect}
    (h : ∀ eff ∈ effects, (∀ key session old, eff ≠ .store key session old) ∧
      ∀ object key old, eff ≠ .erase object key old) : EntriesUndisturbed effects :=
  ⟨fun key session old hmem => absurd rfl ((h _ hmem).1 key session old),
    fun object key old hmem => absurd rfl ((h _ hmem).2 object key old)⟩

/-- A store disturbs nothing exactly where the table has no entry under the key. -/
theorem entriesUndisturbed_store (object : ℕ) (key : Int) (session : SessionClient)
    (old : Option (Option SessionClient)) :
    EntriesUndisturbed [.armRead object, .store key session old] ↔ old = none := by
  simp only [EntriesUndisturbed, List.mem_cons, Effect.store.injEq, reduceCtorEq, List.not_mem_nil,
    or_false, false_or, false_implies, implies_true, and_true]
  constructor
  · intro hall
    exact hall key session old ⟨rfl, rfl, rfl⟩
  · rintro hnone _ _ _ ⟨-, -, rfl⟩
    exact hnone

/-- A failed read disturbs nothing exactly where the entry it finds is its session's own. -/
theorem entriesUndisturbed_erasedByRead (session : SessionClient)
    (table : Std.TreeMap Int (Option SessionClient)) :
    EntriesUndisturbed (erasedByRead session true table) ↔
      ∀ old, table[session.iID]? = some old →
        ∃ found, old = some found ∧ found.object = session.object := by
  simp only [EntriesUndisturbed, mem_erasedByRead, true_and, reduceCtorEq, and_false, exists_false,
    false_implies, implies_true, Effect.erase.injEq]
  constructor
  · intro hall old hentry
    exact hall _ _ old ⟨old, hentry, rfl, rfl, rfl⟩
  · rintro hall object key old ⟨old', hentry, rfl, rfl, rfl⟩
    exact hall _ hentry

section Refined

variable {es : List Event} {s : Server} (href : Refines es s) (hrunning : s.halted = none)

include href hrunning

/-- A key is missing in the table exactly if it is not leased. -/
theorem Refines.eq_none_iff (key : Int) :
    s.network.mapAllClientSock[key]? = none ↔ leased sessionId (leaseOps es) key = none := by
  have htable := href hrunning key
  constructor <;> intro hnone <;> rw [hnone] at htable
  · simpa using htable.symm
  · simpa using htable

/-- What is stored under a key is a certain session's, if anything, exactly if the lease is. -/
theorem Refines.forall_entry_iff (key : Int) (n : ℕ) :
    (∀ old, s.network.mapAllClientSock[key]? = some old →
      ∃ found, old = some found ∧ found.object = n) ↔
      ∀ other, leased sessionId (leaseOps es) key = some other → other = n := by
  have htable := href hrunning key
  constructor
  · intro hown other hlease
    rw [hlease, Option.map_some] at htable
    obtain ⟨old, hentry, hold⟩ := Option.map_eq_some_iff.mp htable
    obtain ⟨found, rfl, hfound⟩ := hown old hentry
    rw [Option.map_some, Option.some.injEq] at hold
    rw [← hold, hfound]
  · intro hown old hentry
    rw [hentry, Option.map_some] at htable
    obtain ⟨other, hlease, hother⟩ := Option.map_eq_some_iff.mp htable.symm
    obtain ⟨found, rfl, hfound⟩ := Option.map_eq_some_iff.mp hother.symm
    exact ⟨found, rfl, hfound.trans (hown other hlease)⟩

end Refined

/-- One step disturbs an entry exactly where its lease operation does. -/
theorem undisturbed_step {es : List Event} {s t : Server} {e : Event} {o : List Effect}
    (hflow : FlowInv s) (hinv : TableInv es s) (hrunning : s.halted = none) (href : Refines es s)
    (h : Stepped s e t o) :
    Undisturbed sessionId (leaseOps (es ++ [e])) ↔
      Undisturbed sessionId (leaseOps es) ∧ EntriesUndisturbed o := by
  rw [leaseOps_concat]
  cases h with
  | accept error junk session rest haccepting =>
    rw [leaseOp, undisturbed_concat, entriesUndisturbed_store, href.eq_none_iff hrunning,
      hinv.currentID]
  | read object error data junk session hreading hlen =>
    obtain ⟨hobject, hlt, hnum⟩ := hinv.of_find? hreading
    have hrest : EntriesUndisturbed
        [.enqueue session.object (MyZServerNetwork.receivedMsg session data junk),
          .armRead session.object] := entriesUndisturbed_of_forall (by simp)
    rw [entriesUndisturbed_append, and_iff_left hrest]
    cases error with
    | false =>
      rw [leaseOp, List.append_nil]
      exact (and_iff_left (entriesUndisturbed_of_forall (by simp [mem_erasedByRead]))).symm
    | true =>
      rw [leaseOp, undisturbed_concat, entriesUndisturbed_erasedByRead,
        href.forall_entry_iff hrunning, hnum.iID, hobject]
  | deal junk outcome i hmg hpc hmsg =>
    obtain ⟨net, halted, o, hdeal, heq⟩ := hflow.dealStep_eq hpc hmsg junk outcome
    rw [heq, leaseOp, List.append_nil]
    exact (and_iff_left (entriesUndisturbed_of_forall (by cases hdeal <;> simp))).symm
  | _ =>
    rw [leaseOp, List.append_nil]
    exact (and_iff_left (entriesUndisturbed_of_forall (by simp))).symm

/-- Over a run, the table is disturbed exactly where the lease of ids is. -/
theorem undisturbed_run {rand : UInt32} {h : List (Event × List Effect)} {s : Server}
    (hrun : ServerRun rand h s) :
    EntriesUndisturbed (outputs h) ↔ Undisturbed sessionId (leaseOps (inputs h)) := by
  induction hrun with
  | start => exact iff_of_true (entriesUndisturbed_of_forall (by simp)) (atEach_nil _)
  | next hprefix hstep ih =>
    obtain ⟨hrunning, hstepped⟩ := stepped_of_step hstep
    rw [outputs_append, entriesUndisturbed_append, ih, inputs_append, inputs_cons, inputs_nil,
      undisturbed_step (flowInv_of_run hprefix) (tableInv_of_run hprefix) hrunning
        (table_eq_leased hprefix) hstepped, outputs_cons, outputs_nil, List.append_nil]

/-- No entry is disturbed exactly where an id is taken again only after the session that
had it is gone, and a session that is gone drops it before that. -/
theorem entries_undisturbed_iff {rand : UInt32} {h : List (Event × List Effect)} {s : Server}
    (hrun : ServerRun rand h s) :
    EntriesUndisturbed (outputs h) ↔ Exclusive sessionId (leaseOps (inputs h)) :=
  (undisturbed_run hrun).trans (undisturbed_iff_exclusive sessionId _)

/-- Two clients connect and the first one disconnects. -/
theorem entries_undisturbed_iff_two_clients :
    ∃ h s, ServerRun 7 h s ∧
      inputs h = [.acceptDone false 5, .acceptDone false 6,
        .readDone 0 true [] zeroed] ∧
      EntriesUndisturbed (outputs h) := by
  obtain ⟨h, s, hrun, hin⟩ := exists_serverRun 7
    [.acceptDone false 5, .acceptDone false 6, .readDone 0 true [] zeroed] rfl
  refine ⟨h, s, hrun, hin, (entries_undisturbed_iff hrun).mpr ?_⟩
  rw [hin]
  change Exclusive sessionId ((([] ++ [.take 0]) ++ [.take 1]) ++ [.drop 0])
  rw [exclusive_concat, exclusive_concat, exclusive_concat]
  simp only [live_concat, not_live_nil, or_false, LeaseOp.take.injEq, ne_eq,
    reduceCtorEq, not_false_eq_true, and_true]
  refine ⟨⟨⟨atEach_nil _, fun _ h => h.elim⟩, ?_⟩, ?_⟩
  · rintro other rfl
    decide
  · rintro other (rfl | rfl)
    · exact fun hkey => absurd hkey (by decide)
    · exact fun _ => rfl

/-- Accepts alone take the leases in order. -/
theorem leaseOps_replicate_acceptDone (n : ℕ) :
    leaseOps (List.replicate n (.acceptDone false 0)) = (List.range n).map LeaseOp.take := by
  induction n with
  | zero => rfl
  | succ n ih =>
    have hcount : accepts (List.replicate n (.acceptDone false 0)) = n := by
      simp [accepts, List.countP_replicate, isAccept]
    rw [List.replicate_succ', leaseOps_concat, ih, hcount, List.range_succ, List.map_append]
    rfl

/-- One client more than there are ids connects while all others stay connected. -/
theorem wrapped_id_disturbs :
    ∃ h s, ServerRun 7 h s ∧
      inputs h = List.replicate (999999999 + 1) (.acceptDone false 0) ∧
      ¬ EntriesUndisturbed (outputs h) := by
  obtain ⟨h, s, hrun, -, hin⟩ := exists_run_accepts 7 (999999999 + 1)
  refine ⟨h, s, hrun, hin, fun hundisturbed => ?_⟩
  have hexclusive := (undisturbed_iff_exclusive _ _).mp ((undisturbed_run hrun).mp hundisturbed)
  rw [hin, leaseOps_replicate_acceptDone, List.range_succ, List.map_append] at hexclusive
  have hlast := ((exclusive_concat _ _ _).mp hexclusive).2
  -- the first client is still live and has the id of the last one
  refine hlast 0 ?_ (by decide)
  obtain ⟨l₁, l₂, heq⟩ := List.append_of_mem
    (List.mem_map_of_mem (f := LeaseOp.take) (List.mem_range.mpr (show 0 < 999999999 by decide)))
  refine ⟨l₁, l₂, heq, fun hmem => ?_⟩
  have hall : LeaseOp.drop 0 ∈ (List.range 999999999).map LeaseOp.take := by
    rw [heq]
    simp [hmem]
  simp at hall

end ShootGame.Analysis
