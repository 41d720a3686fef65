import ShootGame.Analysis.Encoding
import ShootGame.Analysis.FieldRoundTrip

/-!
# Credentials are decoded as C strings

The cursor of `getString` follows the length prefix, its value ends at the first NUL.  An
account or a password with a NUL in it is therefore decoded to less than was received:
`decoding_lossless_iff` says that nothing else is ever lost, and that a payload whose
strings have no NUL is the only such payload that decodes to them.
-/

set_option autoImplicit false

namespace ShootGame.Analysis

open ShootGame.Library ShootGame.Model

/-- Received bytes that the buffer holds, with two length-prefixed strings behind the
header. -/
structure Credentials where
  header : List UInt8
  account : List UInt8
  password : List UInt8
  rest : List UInt8
  header_length : header.length = 6
  fits : 6 + (2 + account.length + (2 + password.length)) + rest.length ≤ 10000

namespace Credentials

def payload (c : Credentials) : List UInt8 :=
  HMessage.stringBytes c.account ++ HMessage.stringBytes c.password

def received (c : Credentials) : List UInt8 := c.header ++ (c.payload ++ c.rest)

/-- The message after `BaseMessage::get`. -/
def message (c : Credentials) (junk : Junk) : HMessage :=
  (BaseMessage.get (HMessage.ofData junk c.received)).2

/-- What `get` makes of an object of the class. -/
def decode (c : Credentials) (junk : Junk) (msg : AccountRequest) : AccountRequest :=
  (msg.get (c.message junk)).1

/-- Neither string has a NUL in it. -/
def IsNulFree (c : Credentials) : Prop := 0 ∉ c.account ∧ 0 ∉ c.password

end Credentials

/-- The bytes that `putString` makes of the two strings in a new message. -/
def reencoded (junk : Junk) (msg : AccountRequest) : List UInt8 :=
  writtenBytes
    (runPuts Put.run [.string msg.strAccount, .string msg.strPassword] (HMessage.new junk)).2

/-! ## Length prefixes -/

/-- A length-prefixed string is told apart from what follows it. -/
theorem stringBytes_append_inj {a b r s : List UInt8} (ha : a.length < 2 ^ 16)
    (hb : b.length < 2 ^ 16)
    (h : HMessage.stringBytes a ++ r = HMessage.stringBytes b ++ s) : a = b ∧ r = s := by
  unfold HMessage.stringBytes at h
  rw [List.append_assoc, List.append_assoc] at h
  obtain ⟨hlength, hbytes⟩ := List.append_inj h (by simp)
  have hword := congrArg UInt16.toNat (leBytes_inj hlength)
  rw [UInt16.toNat_ofNat_of_lt' ha, UInt16.toNat_ofNat_of_lt' hb] at hword
  exact List.append_inj hbytes hword

/-- Bytes are their own C string exactly if no NUL is among them. -/
theorem cString_eq_self_iff (bs : List UInt8) : cString bs = bs ↔ 0 ∉ bs := by
  constructor
  · intro h hzero
    rw [← h] at hzero
    exact zero_notMem_cString bs hzero
  · exact cString_eq_self

/-- Strings that have room in a new message are written one behind the other. -/
theorem reencoded_of_fits (junk : Junk) {msg : AccountRequest}
    (hfit : 2 + msg.strAccount.length + (2 + msg.strPassword.length) < 10000) :
    reencoded junk msg =
      HMessage.stringBytes msg.strAccount ++ HMessage.stringBytes msg.strPassword := by
  have hwritten : Extends (HMessage.new junk)
      (runPuts Put.run ([Field.string msg.strAccount, .string msg.strPassword].map Field.put)
        (HMessage.new junk)).2
      ([] ++ [Field.string msg.strAccount, .string msg.strPassword].flatMap Field.bytes) := by
    apply fields_written (Extends.refl _) (by simp)
    simp only [fieldsSize, Field.size, List.map_cons, List.map_nil, List.sum_cons, List.sum_nil,
      HMessage.new_iPos, List.length_nil]
    omega
  have hbytes := writtenBytes_of_extends hwritten
  rw [List.nil_append, List.flatMap_cons, List.flatMap_cons, List.flatMap_nil, List.append_nil]
    at hbytes
  exact hbytes

/-! ## Decoding -/

namespace Credentials

variable (c : Credentials)

/-- Two strings and their lengths. -/
theorem payload_length : c.payload.length = 2 + c.account.length + (2 + c.password.length) := by
  simp [payload]

/-- `get` finds the strings up to their first NUL. -/
theorem decode_spec (junk : Junk) (msg : AccountRequest) :
    (c.decode junk msg).strAccount = cString c.account ∧
      (c.decode junk msg).strPassword = cString c.password := by
  have hfits := c.fits
  obtain ⟨-, -, hbuffer, hcursor, -⟩ :=
    baseMessage_get_spec (HMessage.ofData junk c.received) rfl
  obtain ⟨haccount, hpassword, -⟩ := accountRequest_get_spec msg (c.message junk) hcursor
  have hmem : (c.message junk).byBuffer = junk.byBuffer.store 0 c.received := hbuffer
  have hload : (junk.byBuffer.store 0 c.received).load 6
      (2 + c.account.length + (2 + c.password.length)) = c.payload := by
    apply Memory.load_store_slice
    · rw [c.header_length]
      rfl
    · exact c.payload_length.symm
  obtain ⟨⟨hlenA, hA⟩, hlenP, hP⟩ := lengths_of_load (by omega) (by omega) hload
  unfold decode
  rw [haccount, hpassword, hmem]
  constructor
  · rw [accountAt, hlenA, hA]
  · rw [passwordAt, hlenA, hlenP, hP]

/-- The strings that were decoded have room in a new message. -/
theorem reencoded_decode (junk junk' : Junk) (msg : AccountRequest) :
    reencoded junk' (c.decode junk msg) =
      HMessage.stringBytes (cString c.account) ++ HMessage.stringBytes (cString c.password) := by
  have hfits := c.fits
  have hlenA := cString_length_le c.account
  have hlenP := cString_length_le c.password
  obtain ⟨haccount, hpassword⟩ := c.decode_spec junk msg
  rw [reencoded_of_fits _ (by rw [haccount, hpassword]; omega), haccount, hpassword]

/-- The strings that are decoded encode to the payload again exactly if it has no NUL. -/
theorem reencoded_eq_payload_iff (junk junk' : Junk) (msg : AccountRequest) :
    reencoded junk' (c.decode junk msg) = c.payload ↔ c.IsNulFree := by
  have hfits := c.fits
  have hlenA := cString_length_le c.account
  have hlenP := cString_length_le c.password
  unfold IsNulFree
  rw [reencoded_decode, payload, ← cString_eq_self_iff, ← cString_eq_self_iff]
  constructor
  · intro h
    obtain ⟨haccount, hrest⟩ := stringBytes_append_inj (by omega) (by omega) h
    rw [← List.append_nil (HMessage.stringBytes (cString c.password)),
      ← List.append_nil (HMessage.stringBytes c.password)] at hrest
    exact ⟨haccount, (stringBytes_append_inj (by omega) (by omega) hrest).1⟩
  · rintro ⟨haccount, hpassword⟩
    rw [haccount, hpassword]

/-- Payloads without a NUL are told apart by what they decode to. -/
theorem payload_eq_of_decode_eq {c c' : Credentials} (hnul : c.IsNulFree) (hnul' : c'.IsNulFree)
    (junk junk' : Junk) (msg msg' : AccountRequest)
    (haccount : (c.decode junk msg).strAccount = (c'.decode junk' msg').strAccount)
    (hpassword : (c.decode junk msg).strPassword = (c'.decode junk' msg').strPassword) :
    c.payload = c'.payload := by
  have hc := (c.reencoded_eq_payload_iff junk junk msg).mpr hnul
  have hc' := (c'.reencoded_eq_payload_iff junk' junk msg').mpr hnul'
  rw [← hc, ← hc', reencoded, reencoded, haccount, hpassword]

/-- The same chunk with each string cut off at its first NUL. -/
def cut (c : Credentials) : Credentials where
  header := c.header
  account := cString c.account
  password := cString c.password
  rest := c.rest
  header_length := c.header_length
  fits := by
    have hfits := c.fits
    have hlenA := cString_length_le c.account
    have hlenP := cString_length_le c.password
    omega

/-- What is cut off at its first NUL has none. -/
theorem cut_isNulFree : c.cut.IsNulFree :=
  ⟨zero_notMem_cString c.account, zero_notMem_cString c.password⟩

/-- The cut chunk is decoded to the same strings. -/
theorem decode_cut (junk junk' : Junk) (msg msg' : AccountRequest) :
    (c.cut.decode junk msg).strAccount = (c.decode junk' msg').strAccount ∧
      (c.cut.decode junk msg).strPassword = (c.decode junk' msg').strPassword := by
  obtain ⟨haccount, hpassword⟩ := c.decode_spec junk' msg'
  obtain ⟨haccount', hpassword'⟩ := c.cut.decode_spec junk msg
  rw [haccount, hpassword, haccount', hpassword']
  exact ⟨cString_eq_self c.cut_isNulFree.1, cString_eq_self c.cut_isNulFree.2⟩

/-- With a NUL in one of the strings, the cut chunk is another one. -/
theorem cut_payload_ne (hnul : ¬ c.IsNulFree) : c.cut.payload ≠ c.payload := by
  intro heq
  have hcut := (c.reencoded_eq_payload_iff zeroed zeroed (C2ZSRLogin.new 0)).not.mpr hnul
  apply hcut
  rw [reencoded_decode]
  exact heq

end Credentials

/-- Two chunks are decoded to the same account and password. -/
def DecodeAlike (c c' : Credentials) : Prop :=
  ∀ junk junk' msg msg',
    (c.decode junk msg).strAccount = (c'.decode junk' msg').strAccount ∧
      (c.decode junk msg).strPassword = (c'.decode junk' msg').strPassword

/-- Decoding and encoding again gives the payload back exactly where it has no NUL in a
string.  Such payloads are all decoded differently, and each other payload is decoded like
a different one. -/
theorem decoding_lossless_iff (c : Credentials) :
    (∀ junk junk' msg, reencoded junk' (c.decode junk msg) = c.payload ↔ c.IsNulFree) ∧
      (c.IsNulFree → ∀ c' : Credentials, c'.IsNulFree → DecodeAlike c c' →
        c.payload = c'.payload) ∧
      (¬ c.IsNulFree → ∃ c' : Credentials, DecodeAlike c' c ∧ c'.payload ≠ c.payload) := by
  refine ⟨c.reencoded_eq_payload_iff, ?_, ?_⟩
  · intro hnul c' hnul' hsame
    obtain ⟨haccount, hpassword⟩ :=
      hsame zeroed zeroed (C2ZSRLogin.new 0) (C2ZSRLogin.new 0)
    exact Credentials.payload_eq_of_decode_eq hnul hnul' _ _ _ _ haccount hpassword
  · intro hnul
    exact ⟨c.cut, c.decode_cut, c.cut_payload_ne hnul⟩

/-- A login with the account `A`, NUL, `B` and the password `C`. -/
def splitAccount : Credentials where
  header := leBytes 13 ++ leBytes MainProtocol.fmZdqLogin.code ++
    leBytes SubProtocol.c2zsRLogin.code
  account := [65, 0, 66]
  password := [67]
  rest := []
  header_length := rfl
  fits := by decide

/-- An account with a NUL in it is not encoded to the same bytes again. -/
theorem not_decoding_lossless :
    ¬ ∀ (c : Credentials) (junk junk' : Junk) (junkSize : UInt16),
      reencoded junk' (c.decode junk (C2ZSRLogin.new junkSize)) = c.payload := by
  intro h
  have hnul := (splitAccount.reencoded_eq_payload_iff zeroed zeroed _).mp
    (h splitAccount zeroed zeroed 0)
  exact absurd hnul.1 (by decide)

end ShootGame.Analysis
