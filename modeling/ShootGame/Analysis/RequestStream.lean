import ShootGame.Analysis.EndToEnd

/-!
# What the stream of a client tells

The server takes each read for one request, but the bytes themselves say more: every
request announces its length, so the requests at the front of a stream can be told from the
bytes alone.  In a run, what the server has read on a connection determines the requests
that were entered at the client, as far as they have arrived, however the reads were cut
(`stream_tells_requests`).
-/

set_option autoImplicit false

namespace ShootGame.Analysis

open ShootGame.Library ShootGame.Model

variable {δ : Type} {lib : ProNetWork}

/-! ## Two streams -/

/-- Requests whose stream is at the front of another one are the first of its requests.  By
induction on them. -/
theorem requests_initial_of_stream {qs qs' : List Request} (hqs : ∀ q ∈ qs, Sendable q)
    (hqs' : ∀ q ∈ qs', Sendable q) (h : qs.flatMap encoding <+: qs'.flatMap encoding) :
    qs <+: qs' := by
  induction qs generalizing qs' with
  | nil => exact List.nil_prefix
  | cons q qs ih =>
    rw [List.forall_mem_cons] at hqs
    rw [List.flatMap_cons] at h
    obtain ⟨rest, rfl⟩ := first_of_stream hqs.1 hqs' ((List.prefix_append _ _).trans h)
    rw [List.forall_mem_cons] at hqs'
    rw [List.flatMap_cons, List.prefix_append_right_inj] at h
    rw [List.cons_prefix_cons]
    exact ⟨rfl, ih hqs.2 hqs'.2 h⟩

/-! ## The stream of a connection -/

/-- The bytes that the server has read on a connection. -/
def bytesRead (object : ℕ) (es : List (SystemEvent δ)) : List UInt8 := es.flatMap (takenBy object)

/-- Every request entered at the client has room in its buffer. -/
def AsksSendable (object : ℕ) (es : List (SystemEvent δ)) : Prop :=
  ∀ q ∈ asked object es, Sendable q

/-- What has been read and what is on its way is what was asked for. -/
theorem bytesRead_of_run (hsends : SendsFinished lib) {rand : UInt32} 
    {h : List (SystemEvent δ × List (SystemEffect δ))} {s : System δ}
    (hrun : SystemRun lib rand h s) {object : ℕ} (hasks : AsksSendable object (inputs h)) :
    bytesRead object (inputs h) ++ (s.connections object).uplink =
      (asked object (inputs h)).flatMap encoding := by
  induction hrun with
  | start => rfl
  | @next h u v e o hrun hstep ih =>
    unfold AsksSendable asked at hasks
    rw [inputs_append, List.filterMap_append, List.forall_mem_append] at hasks
    obtain ⟨hbefore, hnow⟩ := hasks
    obtain ⟨⟨rest, hrest⟩, huplink, -⟩ := connectionStep_of_step hstep object
    have hsent : o.flatMap (sentBy lib object) = (asked object [e]).flatMap encoding :=
      sentBy_of_step hsends hstep fun q hq => hnow q (by simp [hq])
    have hread : bytesRead object (inputs (h ++ [(e, o)])) =
        bytesRead object (inputs h) ++ takenBy object e := by
      simp [bytesRead]
    have hasked : asked object (inputs (h ++ [(e, o)])) =
        asked object (inputs h) ++ asked object [e] := by
      simp [asked]
    rw [hread, hasked, List.flatMap_append, ← ih hbefore, huplink, hsent, ← hrest,
      List.drop_left]
    simp

/-- However the reads were cut: a list of requests is at the front of the bytes that the
server has read exactly if it is the first requests that were entered at the client, and so
many bytes have been read. -/
theorem stream_tells_requests (hsends : SendsFinished lib) {rand : UInt32}
    {h : List (SystemEvent δ × List (SystemEffect δ))} {s : System δ}
    (hrun : SystemRun lib rand h s)
    {object : ℕ} (hasks : AsksSendable object (inputs h)) {qs : List Request}
    (hqs : ∀ q ∈ qs, Sendable q) :
    qs.flatMap encoding <+: bytesRead object (inputs h) ↔
      qs <+: asked object (inputs h) ∧
        (qs.flatMap encoding).length ≤ (bytesRead object (inputs h)).length := by
  have hstream : bytesRead object (inputs h) <+: (asked object (inputs h)).flatMap encoding :=
    ⟨_, bytesRead_of_run hsends hrun hasks⟩
  constructor
  · intro hfront
    exact ⟨requests_initial_of_stream hqs hasks (hfront.trans hstream), hfront.length_le⟩
  · rintro ⟨⟨rest, hrest⟩, hle⟩
    have hfirst : qs.flatMap encoding <+: (asked object (inputs h)).flatMap encoding := by
      rw [← hrest, List.flatMap_append]
      exact List.prefix_append _ _
    exact List.prefix_of_prefix_length_le hfirst hstream hle

/-- Two logins are read in three pieces, the last of which is missing a byte. -/
def cutReads : List (SystemEvent ℕ) :=
  [.server (.acceptDone false 5), .gameLogicLogin 0 ⟨zeroed, 0⟩ [65] [66],
    .gameLogicLogin 0 ⟨zeroed, 0⟩ [67] [68],
    .server (.readDone 0 false ((encoding (.login [65] [66])).take 5) zeroed),
    .server (.readDone 0 false ((encoding (.login [65] [66])).drop 5 ++ [12]) zeroed),
    .server (.readDone 0 false (((encoding (.login [67] [68])).drop 1).take 10) zeroed)]

/-- The bytes of a login are read in two pieces, and it is there all the same. -/
theorem stream_tells_requests_cut :
    ∃ (h : List (SystemEvent ℕ × List (SystemEffect ℕ))) (s : System ℕ), SystemRun framing 7 h s ∧
      inputs h = cutReads ∧
      ([.login [65] [66]] : List Request).flatMap encoding <+: bytesRead 0 (inputs h) := by
  have hexec : (exec (System.step framing) (System.start (δ := ℕ) 7) cutReads).isSome = true := rfl
  obtain ⟨h, s, hrun, hin⟩ := exists_runs_of_exec hexec
  have hlogin : Sendable (.login [65] [66]) := ⟨by simp [NulFree], by decide⟩
  have hlogin' : Sendable (.login [67] [68]) := ⟨by simp [NulFree], by decide⟩
  have hasked : asked 0 (inputs h) = [.login [65] [66], .login [67] [68]] := by
    rw [hin]
    rfl
  refine ⟨h, s, hrun, hin, (stream_tells_requests framing_sendsFinished hrun ?_ ?_).mpr ⟨?_, ?_⟩⟩
  · unfold AsksSendable
    rw [hasked]
    simpa using ⟨hlogin, hlogin'⟩
  · simpa using hlogin
  · rw [hasked]
    exact ⟨_, rfl⟩
  · rw [hin]
    decide

end ShootGame.Analysis
