import ShootGame.Analysis.LiveTable

/-!
# What reaches a socket

`SendMsgBySessionID` gives `write_some` a whole frame and does not look at how much of
it was taken, so the bytes on a socket are the frames of its sends, each cut where the
socket stopped.  They are the whole frames only if no send was cut
(`stream_eq_frames_iff`).
-/

set_option autoImplicit false

namespace ShootGame.Analysis

open ShootGame.Library ShootGame.Model

section Cuts

variable {α : Type}

/-- Cutting no list makes the concatenation longer. -/
theorem length_flatten_take_le (l : List (List α × ℕ)) :
    (l.map fun x => x.1.take x.2).flatten.length ≤ (l.map Prod.fst).flatten.length := by
  induction l with
  | nil => exact le_rfl
  | cons x l ih =>
    simp only [List.map_cons, List.flatten_cons, List.length_append, List.length_take]
    omega

/-- A concatenation survives cuts of its parts only if no part was cut. -/
theorem flatten_take_eq_iff (l : List (List α × ℕ)) :
    (l.map fun x => x.1.take x.2).flatten = (l.map Prod.fst).flatten ↔
      ∀ x ∈ l, x.1.length ≤ x.2 := by
  induction l with
  | nil => simp
  | cons x l ih =>
    simp only [List.map_cons, List.flatten_cons, List.forall_mem_cons]
    constructor
    · intro heq
      have hlength := congrArg List.length heq
      have hrest := length_flatten_take_le l
      simp only [List.length_append, List.length_take] at hlength
      have hwhole : x.1.length ≤ x.2 := by omega
      rw [List.take_of_length_le hwhole] at heq
      exact ⟨hwhole, ih.mp (List.append_cancel_left heq)⟩
    · rintro ⟨hwhole, hrest⟩
      rw [List.take_of_length_le hwhole, ih.mpr hrest]

end Cuts

/-- The bytes that an effect puts on the socket of `object`. -/
def bytesTo (object : ℕ) : Effect → List UInt8
  | .write target frame accepted => if target = object then frame.take accepted else []
  | _ => []

def streamTo (object : ℕ) (effects : List Effect) : List UInt8 := effects.flatMap (bytesTo object)

/-- The stream of two lists of effects. -/
theorem streamTo_append (object : ℕ) (effects effects' : List Effect) :
    streamTo object (effects ++ effects') = streamTo object effects ++ streamTo object effects' :=
  List.flatMap_append

/-- The calls that send the messages to one id, `write_some` taking at most so many
bytes of each. -/
def sendsTo (iSessionID : Int) (sends : List (HMessage × ℕ)) : List NetworkCall :=
  sends.map fun x => .sendMsgBySessionID iSessionID x.1 (.accepts x.2)

section Live

variable {s : NetworkLayer} {iSessionID : Int} {session : SessionClient}

/-- A send to a live session changes nothing in the network. -/
theorem step_send (hrunning : s.halted = none)
    (hentry : s.network.mapAllClientSock[iSessionID]? = some (some session)) (hmg : HMessage)
    (n : ℕ) :
    s.step (.sendMsgBySessionID iSessionID hmg (.accepts n)) =
      some (s, [.lookup iSessionID (some session) (sentFrame hmg),
        .write session.object (sentFrame hmg) (min n (sentFrame hmg).length)]) := by
  simp only [NetworkLayer.step, hrunning, MyZServerNetwork.sendMsgBySessionID, hentry,
    Option.isSome_none, Bool.false_eq_true, if_false]
  rw [← hrunning]
  rfl

/-- The sends go through and leave on the socket what was taken of each frame. -/
theorem exec_sendsTo (hrunning : s.halted = none)
    (hentry : s.network.mapAllClientSock[iSessionID]? = some (some session))
    (sends : List (HMessage × ℕ)) :
    ∃ h, exec NetworkLayer.step s (sendsTo iSessionID sends) = some (s, h) ∧
      streamTo session.object (outputs h) =
        (sends.map fun x => (sentFrame x.1).take x.2).flatten := by
  induction sends with
  | nil => exact ⟨[], rfl, rfl⟩
  | cons x sends ih =>
    obtain ⟨h, hexec, hstream⟩ := ih
    refine ⟨(.sendMsgBySessionID iSessionID x.1 (.accepts x.2),
      [.lookup iSessionID (some session) (sentFrame x.1),
        .write session.object (sentFrame x.1) (min x.2 (sentFrame x.1).length)]) :: h, ?_, ?_⟩
    · exact exec_cons (step_send hrunning hentry x.1 x.2) hexec
    · rw [outputs_cons, streamTo_append, hstream]
      simp [streamTo, bytesTo]

/-- The stream on a live session's socket is the concatenation of the frames sent to it
exactly if `write_some` took the whole of each. -/
theorem stream_eq_frames_iff (hrunning : s.halted = none)
    (hentry : s.network.mapAllClientSock[iSessionID]? = some (some session))
    (sends : List (HMessage × ℕ)) :
    ∃ h, exec NetworkLayer.step s (sendsTo iSessionID sends) = some (s, h) ∧
      (streamTo session.object (outputs h) = (sends.map fun x => sentFrame x.1).flatten ↔
        ∀ x ∈ sends, (sentFrame x.1).length ≤ x.2) := by
  obtain ⟨h, hexec, hstream⟩ := exec_sendsTo hrunning hentry sends
  refine ⟨h, hexec, ?_⟩
  have hcuts := flatten_take_eq_iff (sends.map fun x => (sentFrame x.1, x.2))
  rw [List.map_map, List.map_map, List.forall_mem_map] at hcuts
  rw [hstream]
  exact hcuts

end Live

/-- The first client, once its accept has completed. -/
def firstClient : SessionClient := ⟨0, 1, .assigned 7⟩

/-- The network layer after that accept. -/
def oneClient : NetworkLayer where
  network := ({ MyZServerNetwork.empty.acceptConnect 7 with accepting := [] }.handleAccept
    firstClient false 0).1
  halted := none

/-- The client is in the table under its number. -/
theorem oneClient_entry :
    oneClient.network.mapAllClientSock[(1 : Int)]? = some (some firstClient) := rfl

/-- Two answers, of which the socket takes at most so many bytes. -/
def twoAnswers (m n : ℕ) : List (HMessage × ℕ) :=
  [(MsgLogic.loginReply ⟨0, 0, zeroed⟩, m), (MsgLogic.loginReply ⟨0, 0, zeroed⟩, n)]

/-- The equivalence, for two answers to one client. -/
theorem stream_eq_frames_iff_one_client :
    ∃ h, exec NetworkLayer.step oneClient (sendsTo 1 (twoAnswers 100 19)) = some (oneClient, h) ∧
      (streamTo 0 (outputs h) = ((twoAnswers 100 19).map fun x => sentFrame x.1).flatten ↔
        ∀ x ∈ twoAnswers 100 19, (sentFrame x.1).length ≤ x.2) :=
  stream_eq_frames_iff rfl oneClient_entry _

/-- The socket takes five bytes of the first answer, and the second one follows them. -/
theorem stream_torn :
    ∃ h, exec NetworkLayer.step (NetworkLayer.start 7)
        (.acceptDone false 0 :: sendsTo 1 (twoAnswers 5 19)) = some (oneClient, h) ∧
      streamTo 0 (outputs h) ≠ ((twoAnswers 5 19).map fun x => sentFrame x.1).flatten := by
  obtain ⟨h, hexec, hstream⟩ := exec_sendsTo rfl oneClient_entry (twoAnswers 5 19)
  refine ⟨_, exec_cons rfl hexec, ?_⟩
  rw [outputs_cons, streamTo_append, show (0 : ℕ) = firstClient.object from rfl, hstream]
  simp only [twoAnswers, List.map_cons, List.map_nil, loginReply_sent]
  decide

end ShootGame.Analysis
