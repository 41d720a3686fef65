import ShootGame.Analysis.Encoding
import ShootGame.Model.GameHMsg

/-!
# The size limits of the two sides

A frame has to fit where it is read: the server reads at most 4000 bytes at once, the
client keeps a message in 4096 bytes.  Neither limit is the one `CheckPut` decides by,
so what keeps a frame within them is the size of its puts alone:
`frame_limits_iff` says for which sequences of puts a frame is small enough.
-/

set_option autoImplicit false

namespace ShootGame.Analysis

open ShootGame.Library ShootGame.Model

/-- All puts of a sequence into a new message report success. -/
def Succeeds (run : Put → HMessage → Bool × HMessage) (puts : List Put) (junk : Junk) : Prop :=
  ∀ ok ∈ (runPuts run puts (HMessage.new junk)).1, ok = true

/-- The client's frame fits the server's single read. -/
def ClientLimit (puts : List Put) : Prop :=
  ∀ junk, Succeeds Put.gameRun puts junk →
    (GameHMsg.finished (runPuts Put.gameRun puts (HMessage.new junk)).2).length ≤ 4000

/-- The server's frame, which ends with a newline, fits the client's buffer. -/
def ServerLimit (puts : List Put) : Prop :=
  ∀ junk, Succeeds Put.run (puts ++ [.char 10]) junk →
    (sentFrame (runPuts Put.run puts (HMessage.new junk)).2).length ≤ GameHMsg.bufferSize

/-- A finished buffer is as long as the cursor says. -/
theorem finished_length (hmg : HMessage) : hmg.finished.length = hmg.iPos.toNat := by
  unfold HMessage.finished HMessage.getData
  exact Memory.load_length _ _ _

/-- A sequence of puts succeeds exactly if all of them fit. -/
theorem succeeds_iff (puts : List Put) (junk : Junk) :
    Succeeds Put.run puts junk ↔ fitAll 0 puts = true :=
  runPuts_reports puts (HMessage.new junk)

/-- The client's frame has the size of its puts. -/
theorem clientFrame_length {puts : List Put} (junk : Junk) (h : fitAll 0 puts = true) :
    (GameHMsg.finished (runPuts Put.gameRun puts (HMessage.new junk)).2).length =
      (encodedSize puts).toNat := by
  rw [GameHMsg.gameRun_eq, GameHMsg.finished_eq, finished_length, iPos_runPuts h,
    HMessage.new_iPos, zero_add]

/-- The newline is one more put. -/
theorem sentFrame_runPuts (puts : List Put) (hmg : HMessage) :
    sentFrame (runPuts Put.run puts hmg).2 =
      (runPuts Put.run (puts ++ [.char 10]) hmg).2.finished := by
  rw [runPuts_append]
  rfl

/-- The server's frame has a newline more. -/
theorem serverFrame_length {puts : List Put} (junk : Junk)
    (h : fitAll 0 (puts ++ [.char 10]) = true) :
    (sentFrame (runPuts Put.run puts (HMessage.new junk)).2).length =
      (encodedSize puts + 1).toNat := by
  rw [sentFrame_runPuts, finished_length, iPos_runPuts h, encodedSize_append,
    HMessage.new_iPos, zero_add]
  rfl

/-- The client's limit is one on the size of puts that fit. -/
theorem clientLimit_iff (puts : List Put) :
    ClientLimit puts ↔ (fitAll 0 puts = true → encodedSize puts ≤ 4000) := by
  unfold ClientLimit
  constructor
  · intro hlimit hfits
    have hlen := hlimit zeroed (by rwa [GameHMsg.gameRun_eq, succeeds_iff])
    rw [clientFrame_length _ hfits] at hlen
    omega
  · intro hsize junk hok
    rw [GameHMsg.gameRun_eq, succeeds_iff] at hok
    rw [clientFrame_length _ hok]
    have hle := hsize hok
    omega

/-- The server's limit is one on the size of puts that fit. -/
theorem serverLimit_iff (puts : List Put) :
    ServerLimit puts ↔ (fitAll 0 (puts ++ [.char 10]) = true → encodedSize puts ≤ 4095) := by
  unfold ServerLimit GameHMsg.bufferSize
  constructor
  · intro hlimit hfits
    have hlen := hlimit zeroed (by rwa [succeeds_iff])
    rw [serverFrame_length _ hfits] at hlen
    omega
  · intro hsize junk hok
    rw [succeeds_iff] at hok
    rw [serverFrame_length _ hok]
    have hle := hsize hok
    omega

/-- A sequence of puts that `CheckPut` lets pass makes a frame within the limit of the
other side where its size is, on both sides. -/
theorem frame_limits_iff (puts : List Put) :
    (ClientLimit puts ↔ (fitAll 0 puts = true → encodedSize puts ≤ 4000)) ∧
      (ServerLimit puts ↔
        (fitAll 0 (puts ++ [.char 10]) = true → encodedSize puts ≤ 4095)) :=
  ⟨clientLimit_iff puts, serverLimit_iff puts⟩

/-- A login request with an account of 4000 bytes. -/
def longLogin : GameHMsg.C2ZSRLogin :=
  { GameHMsg.C2ZSRLogin.new 0 with strAccount := List.replicate 4000 65, strPassword := [66] }

/-- A server list of one entry whose address has 4100 bytes. -/
def longEntry : ZS2CALogin := { ZS2CALogin.new 0 3 with strIP := List.replicate 4100 65 }

/-- Neither limit holds: 4011 bytes of a login, and 4130 of a login answer. -/
theorem not_frame_limits :
    ¬ ((∀ puts, ClientLimit puts) ∧ ∀ puts, ServerLimit puts) ∧
      ¬ ClientLimit longLogin.puts ∧
      ¬ ServerLimit (longEntry.puts ++ longEntry.serverDataPuts) := by
  have hclient : ¬ ClientLimit longLogin.puts := by
    rw [clientLimit_iff]
    simp only [longLogin, GameHMsg.AccountRequest.puts, GameHMsg.BaseMessage.puts,
      List.cons_append, List.nil_append, fitAll, Put.fits, encodedSize_cons, encodedSize_nil,
      Put.size, List.length_replicate]
    decide
  have hserver : ¬ ServerLimit (longEntry.puts ++ longEntry.serverDataPuts) := by
    rw [serverLimit_iff]
    simp only [longEntry, ZS2CALogin.puts, ZS2CALogin.serverDataPuts, BaseMessage.puts,
      List.cons_append, List.nil_append, fitAll, Put.fits, encodedSize_cons, encodedSize_nil,
      Put.size, List.length_replicate]
    decide
  exact ⟨fun h => hclient (h.1 _), hclient, hserver⟩

end ShootGame.Analysis
