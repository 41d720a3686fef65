import ShootGame.Analysis.Encoding
import ShootGame.Analysis.EncoderSafety
import ShootGame.Library.PrefixCode

/-!
# The frames of the server

A message of the server is a header and puts behind it, each of which may fail, and
`SendMsgBySessionID` puts a newline behind them and stamps the length over the first two
bytes.  The newline tells nothing, since any byte of a frame may be one, and it is missing
where there is no room for it.  The stamp does: a cursor that stays below 10000 is not
truncated by its 16 bits, so each frame announces its own length.
-/

set_option autoImplicit false

namespace ShootGame.Analysis

open ShootGame.Library ShootGame.Model InformationTheory

/-! ## Messages -/

/-- A message put into a new `HMessage`: the header, and any puts behind it. -/
structure ServerMessage where
  junk : Junk
  header : BaseMessage
  puts : List Put
  intLength : ∀ put ∈ puts, IntLength put

namespace ServerMessage

def hmg (msg : ServerMessage) : HMessage :=
  (runPuts Put.run msg.puts (msg.header.put (HMessage.new msg.junk))).2

/-- What `SendMsgBySessionID` transmits. -/
def frame (msg : ServerMessage) : List UInt8 := sentFrame msg.hmg

end ServerMessage

/-- A message whose arrays and strings have at most `2 ^ 30` bytes. -/
structure BoundedMessage extends ServerMessage where
  bounded : ∀ put ∈ puts, put.Bounded

/-- The length that a frame announces. -/
def announced : List UInt8 → ℕ
  | lo :: hi :: _ => (leWord lo hi).toNat
  | _ => 0

/-- The first two bytes are the length, low byte first. -/
theorem announced_leBytes (w : UInt16) (rest : List UInt8) :
    announced (leBytes w ++ rest) = w.toNat := by
  change (leWord w.toUInt8 (w >>> 8).toUInt8).toNat = w.toNat
  rw [leWord_leBytes]

/-- A finished buffer is its stamp and what stands behind it. -/
theorem finished_eq_stamped {hmg : HMessage} (h : 2 ≤ hmg.iPos) :
    hmg.finished =
      leBytes (UInt16.ofInt hmg.iPos) ++ hmg.byBuffer.load 2 (hmg.iPos.toNat - 2) := by
  have hsplit : hmg.iPos.toNat = 2 + (hmg.iPos.toNat - 2) := by omega
  simp only [HMessage.finished, HMessage.getData, HMessage.getPosition]
  rw [hsplit, Memory.load_add, Memory.load_store_of_length _ _ (leBytes_length _),
    Memory.load_store_disjoint _ (by right; simp)]
  simp

/-- Up to `2 ^ 16` the stamp is the length. -/
theorem announced_finished {hmg : HMessage} (hlo : 2 ≤ hmg.iPos) (hhi : hmg.iPos < 2 ^ 16)
    (rest : List UInt8) : announced (hmg.finished ++ rest) = hmg.finished.length := by
  obtain ⟨n, hn⟩ := Int.eq_ofNat_of_zero_le (show 0 ≤ hmg.iPos by omega)
  rw [finished_eq_stamped hlo, List.append_assoc, announced_leBytes, List.length_append,
    leBytes_length, Memory.load_length, hn, ofInt_natCast, UInt16.toNat_ofNat', Int.toNat_natCast]
  omega

/-! ## Every frame announces its length -/

/-- The header is six bytes. -/
theorem header_iPos (junk : Junk) (header : BaseMessage) :
    (header.put (HMessage.new junk)).iPos = 6 := by
  rw [(baseMessage_put_extends header junk).iPos]
  simp

/-- Behind puts that keep to the buffer the newline does too, if it is put at all. -/
theorem ServerMessage.iPos_sent {msg : ServerMessage}
    (h : Advances (msg.header.put (HMessage.new msg.junk)) msg.hmg) :
    6 ≤ (msg.hmg.putChar 10).2.iPos ∧ (msg.hmg.putChar 10).2.iPos ≤ 9999 := by
  have hpos := h.iPos_mono
  rw [header_iPos] at hpos
  have hline := (put_safe (show (Put.char 10).Bounded from trivial) (by omega) h.iPos_le).advances
  exact ⟨hpos.trans hline.iPos_mono, hline.iPos_le⟩

namespace BoundedMessage

/-- The puts behind the header only advance. -/
theorem advances (msg : BoundedMessage) :
    Advances (msg.header.put (HMessage.new msg.junk)) msg.hmg := by
  apply runPuts_advances msg.bounded
  · rw [header_iPos]
    omega
  · rw [header_iPos]
    omega

/-- A frame announces its own length, whatever follows it. -/
theorem announced_frame (msg : BoundedMessage) (rest : List UInt8) :
    announced (msg.frame ++ rest) = msg.frame.length := by
  obtain ⟨hlo, hhi⟩ := ServerMessage.iPos_sent msg.advances
  exact announced_finished (by omega) (by omega) rest

/-- It has a header at least. -/
theorem frame_length_ge (msg : BoundedMessage) : 6 ≤ msg.frame.length := by
  obtain ⟨hlo, -⟩ := ServerMessage.iPos_sent msg.advances
  unfold ServerMessage.frame sentFrame
  rw [finished_eq_stamped (by omega), List.length_append, leBytes_length, Memory.load_length]
  omega

end BoundedMessage

/-- The frames that the server can transmit. -/
def serverFrames : Set (List UInt8) := {w | ∃ msg : BoundedMessage, msg.frame = w}

/-- Frames that follow one another are told apart. -/
theorem serverFrames_uniquelyDecodable : UniquelyDecodable serverFrames := by
  have hprefix : PrefixFree serverFrames := by
    apply prefixFree_of_length announced
    rintro w ⟨msg, rfl⟩ rest
    exact msg.announced_frame rest
  apply hprefix.uniquelyDecodable
  rintro ⟨msg, hmsg⟩
  have hlength := msg.frame_length_ge
  rw [hmsg, List.length_nil] at hlength
  omega

/-- Two lists of messages are transmitted as one stream of bytes only if their frames are
the same, and each frame starts with its own length. -/
theorem wire_format_decodable :
    (∀ msgs msgs' : List BoundedMessage,
      (msgs.map fun msg => msg.frame).flatten = (msgs'.map fun msg => msg.frame).flatten ↔
        (msgs.map fun msg => msg.frame) = msgs'.map fun msg => msg.frame) ∧
      ∀ msg : BoundedMessage,
        6 ≤ msg.frame.length ∧ announced msg.frame = msg.frame.length := by
  constructor
  · intro msgs msgs'
    have hframes : ∀ (msgs : List BoundedMessage), ∀ w ∈ msgs.map fun msg => msg.frame,
        w ∈ serverFrames := by
      intro msgs w hw
      obtain ⟨msg, -, rfl⟩ := List.mem_map.mp hw
      exact ⟨msg, rfl⟩
    constructor
    · exact serverFrames_uniquelyDecodable _ _ (hframes msgs) (hframes msgs')
    · intro hsame
      rw [hsame]
  · intro msg
    refine ⟨msg.frame_length_ge, ?_⟩
    have hself := msg.announced_frame []
    rwa [List.append_nil] at hself

/-- A message, and another one with a put behind it that fails. -/
theorem wire_format_decodable_failed_put :
    ∃ msg msg' : BoundedMessage, msg'.puts = msg.puts ++ [.charArray [65] 10000] ∧
      (runPuts Put.run msg'.puts (msg'.header.put (HMessage.new msg'.junk))).1 = [true, false] ∧
      (([msg, msg'].map fun msg => msg.frame).flatten =
          ([msg', msg].map fun msg => msg.frame).flatten ↔
        [msg, msg'].map (fun msg => msg.frame) = [msg', msg].map fun msg => msg.frame) ∧
      6 ≤ msg'.frame.length ∧ announced msg'.frame = msg'.frame.length := by
  let header : BaseMessage := ⟨0, MainProtocol.fmZdqLogin.code, SubProtocol.zs2cALogin.code⟩
  let msg : BoundedMessage := ⟨⟨⟨fun _ => 0, 0, 0⟩, header, [.uInt 5], by simp [IntLength]⟩,
    by simp [Put.Bounded]⟩
  let msg' : BoundedMessage := ⟨⟨⟨fun _ => 0, 0, 0⟩, header, [.uInt 5, .charArray [65] 10000],
    by simp [IntLength]⟩, by simp [Put.Bounded]⟩
  exact ⟨msg, msg', rfl, rfl, wire_format_decodable.1 [msg, msg'] [msg', msg],
    wire_format_decodable.2 msg'⟩

/-! ## What puts that fit write -/

/-- The bytes that a put copies into the buffer where its checks hold: for an array as many
as `memcpy` is told to. -/
def putBytes : Put → List UInt8
  | .char data => [data]
  | .uShort data => leBytes data
  | .uInt data => beBytes data
  | .charArray pData iLen => HMessage.charArray pData (toSizeT iLen)
  | .string str => HMessage.stringBytes str

section Fitting

variable {start hmg hmg' : HMessage} {bs : List UInt8} {put : Put}

/-- An array that fits has a length that is no negative `int`. -/
theorem toSizeT_of_fits {iLen : Int} (hlo : -2 ^ 31 ≤ iLen) (hhi : iLen < 2 ^ 31)
    (hfit : toSizeT iLen < 10000) : (toSizeT iLen : Int) = iLen := by
  unfold toSizeT at hfit ⊢
  omega

/-- An array that fits is put behind what is there. -/
theorem putCharArray_extends (h : Extends start hmg bs) (hpos : 0 ≤ start.iPos)
    (pData : List UInt8) {iLen : Int} (hlen : (toSizeT iLen : Int) = iLen)
    (hfit : start.iPos + bs.length + iLen < 10000) :
    Extends start (hmg.putCharArray pData iLen).2
      (bs ++ HMessage.charArray pData (toSizeT iLen)) := by
  apply h.trans
  rw [← h.iPos] at hfit
  rw [HMessage.putCharArray, HMessage.checkPut_eq_true (by rw [h.iPos]; omega) hfit]
  refine ⟨rfl, ?_⟩
  change hmg.iPos + iLen = _
  rw [HMessage.charArray, List.length_map, List.length_range, hlen]

/-- A put that fits writes its bytes at the cursor. -/
theorem put_extends (hlen : IntLength put) (h : Extends start hmg bs) (hpos : 0 ≤ start.iPos)
    (hfit : start.iPos + bs.length + (putBytes put).length < 10000) :
    Extends start (put.run hmg).2 (bs ++ putBytes put) := by
  cases put with
  | char data => exact h.putChar hpos data hfit
  | uShort data => exact h.putUShort hpos data hfit
  | uInt data => exact h.putUInt hpos data hfit
  | charArray pData iLen =>
    rw [putBytes, HMessage.charArray, List.length_map, List.length_range] at hfit
    have hsize := toSizeT_of_fits hlen.1 hlen.2 (by omega)
    exact putCharArray_extends h hpos pData hsize (by omega)
  | string str =>
    rw [putBytes, HMessage.stringBytes_length] at hfit
    push_cast at hfit
    exact h.putString hpos str (by omega)

/-- A copy behind `CheckPut` that ends inside the buffer, made or not. -/
theorem staysInside_checked {a : Access} (iSize : Int) (hin : StaysInside hmg)
    (haccesses : hmg'.accesses = hmg.accesses ++ [a]) (hend : a.start + a.len ≤ 10000) :
    StaysInside (if hmg.checkPut iSize = false then (false, hmg) else (true, hmg')).2 := by
  split
  · exact hin
  · change StaysInside hmg'
    intro b hb
    rw [haccesses, List.mem_append, List.mem_singleton] at hb
    rcases hb with hold | rfl
    · exact hin b hold
    · exact hend

/-- One that fits is written within the capacity. -/
theorem putCharArray_staysInside (hin : StaysInside hmg) (pData : List UInt8) {iLen : Int}
    (hfit : hmg.iPos + toSizeT iLen ≤ 10000) : StaysInside (hmg.putCharArray pData iLen).2 := by
  apply staysInside_checked iLen hin rfl
  simpa [HMessage.charArray] using hfit

/-- So is every value. -/
theorem put_staysInside (hin : StaysInside hmg) (put : Put) (hpos : 0 ≤ hmg.iPos)
    (hfit : hmg.iPos + (putBytes put).length < 10000) : StaysInside (put.run hmg).2 := by
  cases put with
  | char data => exact staysInside_checked 1 hin rfl hfit.le
  | uShort data => exact staysInside_checked 2 hin rfl hfit.le
  | uInt data => exact staysInside_checked 4 hin rfl hfit.le
  | charArray pData iLen =>
    rw [putBytes, HMessage.charArray, List.length_map, List.length_range] at hfit
    exact putCharArray_staysInside hin pData hfit.le
  | string str =>
    rw [putBytes, HMessage.stringBytes_length] at hfit
    push_cast at hfit
    have hhead : StaysInside (hmg.putUShort (UInt16.ofInt (toInt str.length))).2 := by
      apply staysInside_checked 2 hin rfl
      change hmg.iPos + (2 : ℕ) ≤ 10000
      omega
    simp only [Put.run, HMessage.putString]
    split
    · exact hhead
    · rename_i hok
      obtain ⟨hreport, hcursor⟩ := HMessage.putUShort_spec (UInt16.ofInt (toInt str.length)) hmg
      rw [hreport, Bool.not_eq_false] at hok
      apply putCharArray_staysInside hhead
      rw [hcursor hok, HMessage.toInt_eq_self (by omega) (by omega)]
      unfold toSizeT
      omega

/-- By induction on the puts: what fits is written, one put behind the other. -/
theorem runPuts_written {puts : List Put} (hlen : ∀ put ∈ puts, IntLength put)
    (h : Extends start hmg bs) (hpos : 0 ≤ start.iPos) (hin : StaysInside hmg)
    (hfit : start.iPos + bs.length + (puts.flatMap putBytes).length < 10000) :
    Extends start (runPuts Put.run puts hmg).2 (bs ++ puts.flatMap putBytes) ∧
      StaysInside (runPuts Put.run puts hmg).2 := by
  induction puts generalizing hmg bs with
  | nil =>
    rw [List.flatMap_nil, List.append_nil]
    exact ⟨h, hin⟩
  | cons put puts ih =>
    rw [List.forall_mem_cons] at hlen
    rw [List.flatMap_cons, List.length_append] at hfit
    push_cast at hfit
    have hput := put_extends hlen.1 h hpos (by omega)
    have hinside := put_staysInside hin put (by rw [h.iPos]; omega) (by rw [h.iPos]; omega)
    have hrest : start.iPos + (bs ++ putBytes put).length + (puts.flatMap putBytes).length <
        10000 := by
      rw [List.length_append]
      push_cast
      omega
    rw [runPuts_cons_snd, List.flatMap_cons, ← List.append_assoc]
    exact ih hlen.2 hput hinside hrest

end Fitting

/-! ## The newline -/

namespace ServerMessage

/-- The encoding of a message behind its size field. -/
def content (msg : ServerMessage) : List UInt8 :=
  leBytes msg.header.iMainProtocol ++ leBytes msg.header.iSubProtocol ++
    msg.puts.flatMap putBytes

/-- The encoding with its size field. -/
def size (msg : ServerMessage) : ℕ := 2 + msg.content.length

/-- The message has been built without a write behind `m_byBuffer`, after which nothing
would be promised, and is transmitted with its size stamped and a newline at the end. -/
structure NewlineTerminated (msg : ServerMessage) : Prop where
  inside : StaysInside msg.hmg
  frame : msg.frame = sized (msg.content ++ [10])

variable {msg : ServerMessage}

/-- A message whose encoding has room in the buffer is its encoding. -/
theorem written (h : msg.size < 10000) :
    Extends (HMessage.new msg.junk) msg.hmg (leBytes msg.header.wSize ++ msg.content) ∧
      StaysInside msg.hmg := by
  unfold size content at h
  rw [List.length_append, List.length_append, leBytes_length, leBytes_length] at h
  have hheader : StaysInside (msg.header.put (HMessage.new msg.junk)) := by
    intro a ha
    have hwrites : a ∈ [⟨true, 0, 2⟩, ⟨true, 2, 2⟩, ⟨true, 4, 2⟩] := ha
    simp only [List.mem_cons, List.not_mem_nil, or_false] at hwrites
    rcases hwrites with rfl | rfl | rfl <;> decide
  have hputs := runPuts_written msg.intLength (baseMessage_put_extends msg.header msg.junk)
    le_rfl hheader (by
      simp only [HMessage.new_iPos, List.length_append, leBytes_length]
      omega)
  rw [List.append_assoc, List.append_assoc, ← List.append_assoc (leBytes _)] at hputs
  exact hputs

/-- There is room for the newline up to 9998 bytes. -/
theorem newlineTerminated_of_size (h : msg.size ≤ 9998) : NewlineTerminated msg := by
  obtain ⟨hwritten, hinside⟩ := written (show msg.size < 10000 by omega)
  refine ⟨hinside, ?_⟩
  have hline := hwritten.putChar le_rfl 10 (by
    unfold size at h
    rw [HMessage.new_iPos, List.length_append, leBytes_length]
    omega)
  rw [List.append_assoc] at hline
  exact HMessage.finished_of_extends hline

/-- Puts that stay within the capacity advance. -/
theorem advances_of_inside (h : StaysInside msg.hmg) :
    Advances (msg.header.put (HMessage.new msg.junk)) msg.hmg := by
  apply runPuts_advances_of_inside msg.intLength _ _ h
  · rw [header_iPos]
    omega
  · rw [header_iPos]
    omega

/-- A frame has at most 9999 bytes, the newline included. -/
theorem size_le_of_frame (h : Advances (msg.header.put (HMessage.new msg.junk)) msg.hmg)
    (hframe : msg.frame = sized (msg.content ++ [10])) : msg.size ≤ 9998 := by
  obtain ⟨hlo, hhi⟩ := iPos_sent h
  have hlength : msg.frame.length = (msg.hmg.putChar 10).2.iPos.toNat := Memory.load_length _ _ _
  rw [hframe, sized_length, List.length_append, List.length_singleton] at hlength
  unfold size
  omega

/-- The frame ends with the newline exactly up to that size. -/
theorem newlineTerminated_iff (msg : ServerMessage) :
    NewlineTerminated msg ↔ msg.size ≤ 9998 := by
  constructor
  · intro h
    exact size_le_of_frame (advances_of_inside h.inside) h.frame
  · exact newlineTerminated_of_size

/-- One byte more and there is no newline. -/
theorem frame_of_full (h : msg.size = 9999) : msg.frame = sized msg.content := by
  obtain ⟨hwritten, -⟩ := written (show msg.size < 10000 by omega)
  have hfull : (msg.hmg.putChar 10).2 = msg.hmg := by
    have hcursor : msg.hmg.iPos = 9999 := by
      rw [hwritten.iPos, List.length_append, leBytes_length, HMessage.new_iPos]
      unfold size at h
      omega
    rw [HMessage.putChar, HMessage.checkPut, hcursor]
    rfl
  rw [frame, sentFrame, hfull]
  exact HMessage.finished_of_extends hwritten

end ServerMessage

/-- A login answer with entries of a server list behind it. -/
def loginListAnswer (junk : Junk) (msg : ZS2CALogin) (entries : List ZS2CALogin) :
    ServerMessage where
  junk := junk
  header := msg.toBaseMessage
  puts := [.uInt msg.iErrorCode, .uInt msg.dynmicCode, .uInt msg.iCount] ++
    entries.flatMap ZS2CALogin.serverDataPuts
  intLength := by
    intro put hput
    simp only [ZS2CALogin.serverDataPuts, List.mem_append, List.mem_cons, List.not_mem_nil,
      or_false, List.mem_flatMap] at hput
    rcases hput with (rfl | rfl | rfl) | ⟨entry, -, rfl | rfl | rfl | rfl | rfl⟩ <;> trivial

/-- The list is put entry by entry behind the answer. -/
theorem loginListAnswer_hmg (junk : Junk) (msg : ZS2CALogin) (entries : List ZS2CALogin) :
    (loginListAnswer junk msg entries).hmg =
      entries.foldl (fun hmg entry => entry.putServerData hmg) (msg.put (HMessage.new junk)) := by
  unfold ServerMessage.hmg loginListAnswer
  dsimp only
  rw [runPuts_append]
  change (runPuts Put.run _ (msg.put (HMessage.new junk))).2 = _
  generalize msg.put (HMessage.new junk) = hmg
  induction entries generalizing hmg with
  | nil => rfl
  | cons entry entries ih =>
    rw [List.flatMap_cons, runPuts_append, List.foldl_cons,
      ZS2CALogin.putServerData_eq_runPuts]
    exact ih _

/-- Its size is that of the answer and of all entries. -/
theorem loginListAnswer_size (junk : Junk) (msg : ZS2CALogin) (entries : List ZS2CALogin) :
    (loginListAnswer junk msg entries).size =
      18 + (entries.map fun entry => 11 + entry.strName.length + entry.strIP.length).sum := by
  have hentries : (entries.flatMap fun entry => entry.serverDataPuts.flatMap putBytes).length =
      (entries.map fun entry => 11 + entry.strName.length + entry.strIP.length).sum := by
    rw [List.length_flatMap]
    congr 1
    apply List.map_congr_left
    intro entry _
    simp [ZS2CALogin.serverDataPuts, putBytes]
    omega
  rw [← hentries]
  unfold ServerMessage.size ServerMessage.content loginListAnswer
  dsimp only
  rw [List.flatMap_append, List.flatMap_assoc]
  simp only [putBytes, List.flatMap_cons, List.flatMap_nil, List.append_nil, List.length_append,
    leBytes_length, beBytes_length]
  omega

/-- A frame ends with the newline, behind the encoding with its size, exactly if that has
at most 9998 bytes.  At 9999 the newline is left out; a login answer comes to as many with
its entries. -/
theorem frames_newline_terminated_iff (msg : ServerMessage) (bounded : BoundedMessage)
    (junk : Junk) (answer : ZS2CALogin) (entries : List ZS2CALogin) :
    (msg.NewlineTerminated ↔ msg.size ≤ 9998) ∧
      (bounded.frame = sized (bounded.content ++ [10]) ↔ bounded.size ≤ 9998) ∧
      (msg.size = 9999 → msg.frame = sized msg.content) ∧
      ((loginListAnswer junk answer entries).NewlineTerminated ↔
        18 + (entries.map fun entry => 11 + entry.strName.length + entry.strIP.length).sum ≤
          9998) := by
  refine ⟨msg.newlineTerminated_iff, ?_, ServerMessage.frame_of_full, ?_⟩
  · constructor
    · exact ServerMessage.size_le_of_frame bounded.advances
    · intro hsize
      exact (ServerMessage.newlineTerminated_of_size hsize).frame
  · rw [ServerMessage.newlineTerminated_iff, loginListAnswer_size]

/-- A server whose address has 9970 bytes. -/
def fullEntry : ZS2CALogin := { ZS2CALogin.new 0 3 with strIP := List.replicate 9970 65 }

/-- All puts succeed, and there is no room for the newline. -/
theorem not_frames_newline_terminated :
    ¬ ∀ msg : ServerMessage,
      (∀ ok ∈ (runPuts Put.run msg.puts (msg.header.put (HMessage.new msg.junk))).1, ok = true) →
        msg.NewlineTerminated := by
  intro hclaim
  have hsucceeds : ∀ ok ∈ (runPuts Put.run (loginListAnswer zeroed fullEntry [fullEntry]).puts
      (fullEntry.toBaseMessage.put (HMessage.new zeroed))).1, ok = true := by
    rw [runPuts_reports, header_iPos]
    simp only [loginListAnswer, fullEntry, ZS2CALogin.serverDataPuts, List.flatMap_cons,
      List.flatMap_nil, List.append_nil, List.cons_append, List.nil_append, fitAll, Put.fits,
      Put.size, List.length_replicate]
    decide
  have hterminated := hclaim (loginListAnswer zeroed fullEntry [fullEntry]) hsucceeds
  rw [ServerMessage.newlineTerminated_iff, loginListAnswer_size] at hterminated
  simp only [fullEntry, List.map_cons, List.map_nil, List.sum_cons, List.sum_nil,
    List.length_replicate] at hterminated
  exact absurd hterminated (by decide)

end ShootGame.Analysis
