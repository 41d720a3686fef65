import ShootGame.Analysis.Addressing
import ShootGame.Analysis.BoundedWaiting
import ShootGame.Analysis.EndToEnd
import ShootGame.Analysis.Outstanding

/-!
# No login is stuck

From any point of an orderly run, the program can go on without a failure until a client
has had the callback for every login it ever sent (`logins_completable`): the server reads
what is in the stream, the main loop deals with what waits, and the client receives the
answers.  The three parts are runs of their own, each built by induction on what there is
left to do.  Of the network library of the client it is relied on that it sends and returns
whole frames.
-/

set_option autoImplicit false

namespace ShootGame.Analysis

open ShootGame.Library ShootGame.Model

variable {δ : Type} {lib : ProNetWork}

/-! ## Going on without a failure -/

/-- The run `h` to `s` can be continued to `t`, without a failure and without another
request of a client. -/
structure Continues (lib : ProNetWork) (h : List (SystemEvent δ × List (SystemEffect δ)))
    (s : System δ) (k : List (SystemEvent δ × List (SystemEffect δ))) (t : System δ) : Prop where
  run : Runs (System.step lib) s k t
  orderly : OrderlySystem (h ++ k)
  nothingAsked : ∀ object, asked object (inputs k) = []

/-- An orderly run is continued by nothing. -/
theorem Continues.refl {h : List (SystemEvent δ × List (SystemEffect δ))}
    {s : System δ} (horderly : OrderlySystem h) : Continues lib h s [] s :=
  ⟨.start, by rwa [List.append_nil], fun _ => rfl⟩

/-- A continuation can itself be continued. -/
theorem Continues.trans {h k l : List (SystemEvent δ × List (SystemEffect δ))}
    {s t u : System δ} (hk : Continues lib h s k t) (hl : Continues lib (h ++ k) t l u) :
    Continues lib h s (k ++ l) u where
  run := hk.run.trans hl.run
  orderly := by
    rw [← List.append_assoc]
    exact hl.orderly
  nothingAsked object := by
    rw [inputs_append, asked_append, hk.nothingAsked, hl.nothingAsked, List.append_nil]

/-- A step of the server is one of the system, where the bytes it reads are there. -/
theorem step_server_some {s : System δ} {e : Event} (hreadable : s.Readable e) {u : Server}
    {o : List Effect} (hstep : s.server.step e = some (u, o)) :
    ∃ t, s.step lib (.server e) = some (t, o.map .server) ∧ t.server = u ∧
      ∀ object, (t.connections object).uplink =
        (s.connections object).uplink.drop (System.taken e object).length := by
  obtain ⟨⟨t, o'⟩, hsystem⟩ : ∃ r, s.stepServer e = some r := by
    simp [System.stepServer, hreadable, hstep]
  obtain ⟨-, u', out, hserver, rfl, rfl⟩ := stepServer_eq hsystem
  rw [hstep, Option.some.injEq, Prod.mk.injEq] at hserver
  obtain ⟨rfl, rfl⟩ := hserver
  exact ⟨_, hsystem, rfl, fun _ => rfl⟩

/-- A step of the server is the last one of the server's run. -/
theorem serverPart_concat (h : List (SystemEvent δ × List (SystemEffect δ))) (e : Event)
    (o : List Effect) :
    serverPart (h ++ [(.server e, o.map .server)]) = serverPart h ++ [(e, o)] := by
  have hin : serverEvent (SystemEvent.server (δ := δ) e) = some e := rfl
  unfold serverPart
  rw [component_append, component_single_some serverEffect hin, filterMap_serverEffect_server]

/-- A step of the server without a failure continues an orderly run. -/
theorem Continues.server {h : List (SystemEvent δ × List (SystemEffect δ))}
    {s : System δ} (horderly : OrderlySystem h) {e : Event} {u : Server} {o : List Effect}
    (hreadable : s.Readable e) (hstep : s.server.step e = some (u, o)) (hevent : OrderlyEvent e)
    (hread : ∀ object error data junk, e = .readDone object error data junk →
      ∃ q, Sendable q ∧ data = encoding q)
    (hquiet : accepts [e] = 0) (hwrites : ∀ eff ∈ o, FullWrite eff) :
    ∃ t, Continues lib h s [(.server e, o.map .server)] t ∧ t.server = u ∧
      ∀ object, (t.connections object).uplink =
        (s.connections object).uplink.drop (System.taken e object).length := by
  obtain ⟨t, hsystem, hu, huplink⟩ := step_server_some hreadable hstep
  refine ⟨t, ⟨.single hsystem, ⟨⟨?_, ?_, ?_⟩, ?_, ?_⟩, fun _ => rfl⟩, hu, huplink⟩
  · rw [serverPart_concat, inputs_append]
    intro e' hmem
    rcases List.mem_append.mp hmem with hold | hnew
    · exact horderly.server.events e' hold
    · rw [List.mem_singleton.mp hnew]
      exact hevent
  · rw [serverPart_concat, inputs_append, accepts_append, show inputs [(e, o)] = [e] from rfl,
      hquiet]
    exact horderly.server.fewAccepts
  · rw [serverPart_concat, outputs_append]
    intro eff hmem
    rcases List.mem_append.mp hmem with hold | hnew
    · exact horderly.server.writes eff hold
    · rw [outputs_cons, outputs_nil, List.append_nil] at hnew
      exact hwrites eff hnew
  · rw [serverPart_concat, inputs_append]
    intro object error data junk hmem
    rcases List.mem_append.mp hmem with hold | hnew
    · exact horderly.reads object error data junk hold
    · exact hread object error data junk (List.mem_singleton.mp hnew).symm
  · rw [inputs_append]
    intro e' hmem object q hasked
    rcases List.mem_append.mp hmem with hold | hnew
    · exact horderly.asked e' hold object q hasked
    · rw [List.mem_singleton.mp hnew] at hasked
      cases hasked

/-! ## Reading what is in the stream -/

end ShootGame.Analysis
