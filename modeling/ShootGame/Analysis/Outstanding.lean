import ShootGame.Analysis.SessionTable

/-!
# Outstanding operations

Each completion handler starts the next operation of its kind, `Handle_Read` also when the
read has failed.  One accept is therefore outstanding at any time, and one read on every
connection there has ever been; what can happen next is known from the number of accepts
(`outstanding_of_run`).
-/

set_option autoImplicit false

namespace ShootGame.Analysis

open ShootGame.Library ShootGame.Model

/-- The connections on which a read is outstanding. -/
def readingOn (s : Server) : List ℕ := s.network.reading.map SessionClient.object

/-- The completions that can come, once there have been `n` accepts. -/
def Possible (n : ℕ) : Event → Prop
  | .acceptDone _ _ => True
  | .readDone object _ data _ => object < n ∧ data.length ≤ 4000
  | .mainStep _ _ => True

/-- A read is outstanding on exactly the connections that were accepted. -/
theorem find?_reading_isSome_iff {es : List Event} {s : Server} (hinv : TableInv es s)
    (object : ℕ) :
    (s.network.reading.find? fun c => c.object == object).isSome ↔ object < accepts es := by
  rw [List.find?_isSome]
  constructor
  · rintro ⟨session, hmem, hobject⟩
    have hsame : session.object = object := by simpa using hobject
    rw [← hsame]
    exact (hinv.reading session hmem).1
  · intro hlt
    obtain ⟨session, hmem, hobject⟩ := hinv.armed object hlt
    exact ⟨session, hmem, by simpa using hobject⟩

/-- What can happen to a process that runs. -/
theorem step_isSome_iff {es : List Event} {s : Server} (hinv : TableInv es s) (e : Event) :
    (s.step e).isSome ↔ s.halted = none ∧ Possible (accepts es) e := by
  unfold Server.step
  cases hhalted : s.halted with
  | some halt => simp
  | none =>
    rw [if_neg (by simp)]
    cases e with
    | acceptDone error junk =>
      obtain ⟨session, haccepting, -⟩ := hinv.accepting
      simp [haccepting, Possible]
    | readDone object error data junk =>
      have hfound := find?_reading_isSome_iff hinv object
      cases hreading : s.network.reading.find? (fun c => c.object == object) with
      | none =>
        rw [hreading] at hfound
        simpa [hreading, Possible] using fun hlt => absurd (hfound.mpr hlt) (by simp)
      | some session =>
        rw [hreading] at hfound
        have hlt := hfound.mp rfl
        by_cases hlen : 4000 < data.length
        · simp [hreading, Possible, hlen]
        · simp [hreading, Possible, hlen, hlt, Nat.le_of_not_lt hlen]
    | mainStep junk outcome => simp [Possible]

/-- A step keeps one read outstanding on each accepted connection. -/
theorem readingOn_step {es : List Event} {s t : Server} {e : Event} {o : List Effect}
    (hflow : FlowInv s) (hinv : TableInv es s)
    (hperm : (readingOn s).Perm (List.range (accepts es)))
    (h : Stepped s e t o) : (readingOn t).Perm (List.range (accepts (es ++ [e]))) := by
  have hmain : ∀ {u : Server} {junk outcome}, u.network.reading = s.network.reading →
      (readingOn u).Perm (List.range (accepts (es ++ [.mainStep junk outcome]))) := by
    intro u junk outcome hsame
    rw [accepts_append, accepts_mainStep, Nat.add_zero, readingOn, hsame]
    exact hperm
  cases h with
  | accept error junk session rest haccepting =>
    obtain ⟨pending, hpending, hobject, -⟩ := hinv.accepting
    rw [hpending, List.cons.injEq] at haccepting
    obtain ⟨rfl, -⟩ := haccepting
    rw [accepts_append, accepts_acceptDone, List.range_succ]
    simp only [readingOn, List.map_append, List.map_singleton, hobject]
    exact hperm.append_right _
  | read object error data junk session hreading hlen =>
    rw [accepts_append, accepts_readDone, Nat.add_zero]
    refine List.Perm.trans ?_ hperm
    -- the session that was read goes to the end of the list
    have hobject : session.object = object := by simpa using List.find?_some hreading
    obtain ⟨old, l₁, l₂, -, hold, hsplit, herase⟩ := List.exists_of_eraseP
      (List.mem_of_find?_eq_some hreading) (List.find?_some hreading)
    have hsame : old.object = object := by simpa using hold
    rw [readingOn, readingOn, herase, hsplit]
    simp only [List.map_append, List.map_cons, List.map_nil, hobject, hsame, List.append_assoc]
    exact (List.perm_append_comm).append_left _
  | deal junk outcome i hmg hpc hmsg =>
    apply hmain
    obtain ⟨net, halted, o, hdeal, heq⟩ := hflow.dealStep_eq hpc hmsg junk outcome
    rw [heq]
    cases hdeal <;> rfl
  | fetch | hand | finish => exact hmain rfl

/-- So does every run. -/
theorem readingOn_of_run {rand : UInt32} {h : List (Event × List Effect)} {s : Server}
    (hrun : ServerRun rand h s) : (readingOn s).Perm (List.range (accepts (inputs h))) := by
  induction hrun with
  | start => exact .refl _
  | next hrun hstep ih =>
    rw [inputs_append]
    exact readingOn_step (flowInv_of_run hrun) (tableInv_of_run hrun) ih
      (stepped_of_step hstep).2

/-- At any time one accept is outstanding, and exactly one read on each connection that was
ever accepted, whether it has failed or not; so a process that runs can take any accept, any
step of its main loop, and the read of at most 4000 bytes on exactly these connections. -/
theorem outstanding_of_run {rand : UInt32} {h : List (Event × List Effect)} {s : Server}
    (hrun : ServerRun rand h s) :
    (∃ session, s.network.accepting = [session] ∧ session.object = accepts (inputs h)) ∧
      (readingOn s).Perm (List.range (accepts (inputs h))) ∧
      ∀ e, (s.step e).isSome ↔ s.halted = none ∧ Possible (accepts (inputs h)) e := by
  have hinv := tableInv_of_run hrun
  obtain ⟨session, haccepting, hobject, -⟩ := hinv.accepting
  exact ⟨⟨session, haccepting, hobject⟩, readingOn_of_run hrun, step_isSome_iff hinv⟩

/-- A client connects and its connection fails. -/
theorem outstanding_of_run_failed :
    ∃ h s, ServerRun 7 h s ∧
      inputs h = [.acceptDone false 5, .readDone 0 true [] zeroed] ∧
      (∃ session, s.network.accepting = [session] ∧ session.object = accepts (inputs h)) ∧
      (readingOn s).Perm (List.range (accepts (inputs h))) ∧
      ∀ e, (s.step e).isSome ↔ s.halted = none ∧ Possible (accepts (inputs h)) e := by
  obtain ⟨h, s, hrun, hin⟩ := exists_serverRun 7
    [.acceptDone false 5, .readDone 0 true [] zeroed] rfl
  exact ⟨h, s, hrun, hin, outstanding_of_run hrun⟩

end ShootGame.Analysis
