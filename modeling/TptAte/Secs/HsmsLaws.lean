import TptAte.Secs.Hsms
import TptAte.Secs.ItemLaws

/-! # Laws of HSMS frames

Messages that their frame can carry are read back from it. A frame has seven
bits for stream and function, and the status of a Select.rsp and the fields of
a Reject stand where the low system bytes stand.
-/

namespace Secs

open Wire

namespace HsmsMessage

def systemByte (systemBytes : UInt32) (i : Nat) : UInt8 :=
  (Word.u32.bytes .big systemBytes).getD i 0

/-- The message agrees with what its frame can carry. -/
def Canonical : HsmsMessage → Prop
  | .data _ stream function _ _ body =>
      stream < 128 ∧ function < 128 ∧
        ∀ item ∈ body, item.Encodable ∧
          ∀ bytes, item.encode = some bytes → 10 + bytes.length < 2 ^ 32
  | .selectRsp systemBytes status => systemByte systemBytes 3 = status.code
  | .reject systemBytes reason rejectedS rejectedF =>
      systemByte systemBytes 1 = rejectedS ∧ systemByte systemBytes 2 = rejectedF ∧
        systemByte systemBytes 3 = reason
  | _ => True

theorem u32_bytes (n : UInt32) :
    Word.u32.bytes .big n =
      [systemByte n 0, systemByte n 1, systemByte n 2, systemByte n 3] := by
  simp [systemByte, Word.bytes, Word.u32, Endian.bytes, leBytes]

theorem u32_ofNat_bytes (n : UInt32) :
    Word.u32.ofNat (Endian.big.value
      [systemByte n 0, systemByte n 1, systemByte n 2, systemByte n 3]) = n := by
  rw [← u32_bytes, Word.bytes, Endian.value_bytes _ _ _ (Word.u32.toNat_lt n),
    Word.u32.ofNat_toNat]

theorem length_header (message : HsmsMessage) : message.header.length = 10 := by
  cases message <;> simp [header, control, Word.u16, Word.u32]

/-- A frame is cut into its header and its body. -/
theorem fromBytes_frame {header body : Bytes} (hheader : header.length = 10)
    (hlength : 10 + body.length < 2 ^ 32)
    (hptype : header.getD 5 0 = SType.data.code → header.getD 4 0 = 0) (tail : Bytes) :
    fromBytes (Word.u32.bytes .big (UInt32.ofNat (10 + body.length)) ++ header ++ body ++ tail) =
      (·, 14 + body.length) <$> parse header body := by
  generalize hinitial : Word.u32.bytes .big (UInt32.ofNat (10 + body.length)) = lengthPrefix
  have hfour : lengthPrefix.length = 4 := by
    rw [← hinitial]
    exact Word.length_bytes _ _ _
  have htotal : Endian.big.value lengthPrefix = 10 + body.length := by
    rw [← hinitial, Word.bytes, Endian.value_bytes _ _ _ (Word.u32.toNat_lt _)]
    exact UInt32.toNat_ofNat_of_lt' hlength
  have hcut : (lengthPrefix ++ header ++ body ++ tail).take 4 = lengthPrefix := by
    rw [List.append_assoc, List.append_assoc, List.take_left' hfour]
  have hfront : (lengthPrefix ++ header ++ body ++ tail).take 14 = lengthPrefix ++ header := by
    rw [List.append_assoc, List.take_left' (by simp [hfour, hheader])]
  have hframe : (lengthPrefix ++ header ++ body ++ tail).take (4 + (10 + body.length)) =
      lengthPrefix ++ header ++ body := List.take_left' (by simp [hfour, hheader])
  have hbody : (lengthPrefix ++ header ++ body).drop 14 = body :=
    List.drop_left' (by simp [hfour, hheader])
  have hsize : (lengthPrefix ++ header ++ body ++ tail).length =
      14 + body.length + tail.length := by
    simp [hfour, hheader]
    omega
  have hpass : ¬ (header.getD 5 0 = SType.data.code ∧ header.getD 4 0 ≠ 0) :=
    fun h => h.2 (hptype h.1)
  simp only [fromBytes, hcut, hfront, hframe, htotal, hbody, List.drop_left' hfour, if_neg hpass]
  have hneeded : 4 + (10 + body.length) = 14 + body.length := by omega
  rw [hsize, if_neg (by omega), if_neg (by omega), if_neg (by omega), hneeded]

/-- The W-bit and the stream share a byte without disturbing each other. -/
theorem and_or_wBit (stream : UInt8) (hstream : stream < 128) (wBit : Bool) :
    (stream &&& 0x7F ||| (if wBit then 0x80 else 0)) &&& 0x7F = stream ∧
      ((stream &&& 0x7F ||| (if wBit then 0x80 else 0)) &&& 0x80 != 0) = wBit := by
  obtain ⟨n, hn, rfl⟩ : ∃ n < 128, stream = UInt8.ofNat n := ⟨stream.toNat, hstream, by simp⟩
  -- 128 streams, each with and without the W-bit
  clear hstream
  revert n
  cases wBit <;> decide +kernel

theorem and_function (function : UInt8) (hfunction : function < 128) :
    function &&& 0x7F &&& 0x7F = function := by
  obtain ⟨n, hn, rfl⟩ : ∃ n < 128, function = UInt8.ofNat n :=
    ⟨function.toNat, hfunction, by simp⟩
  clear hfunction
  revert n
  decide +kernel

theorem u16_bytes (n : UInt16) :
    Word.u16.bytes .big n =
      [(Word.u16.bytes .big n).getD 0 0, (Word.u16.bytes .big n).getD 1 0] := by
  simp [Word.bytes, Word.u16, Endian.bytes, leBytes]

theorem u16_ofNat_bytes (n : UInt16) :
    Word.u16.ofNat (Endian.big.value
      [(Word.u16.bytes .big n).getD 0 0, (Word.u16.bytes .big n).getD 1 0]) = n := by
  rw [← u16_bytes, Word.bytes, Endian.value_bytes _ _ _ (Word.u16.toNat_lt n),
    Word.u16.ofNat_toNat]

theorem parseBody_of_fromBytes {item : SecsItem} {bytes : Bytes} (hne : bytes ≠ [])
    (hitem : SecsItem.fromBytes bytes = .ok (item, bytes.length)) :
    parseBody bytes = .ok (some item) := by
  rw [parseBody, if_neg hne, hitem, Reader.ok_bind]
  exact if_neg (fun h => h rfl)

/-- The body of a data message is read back from its bytes. -/
theorem parseBody_bodyBytes {sessionId : UInt16} {stream function : UInt8} {wBit : Bool}
    {systemBytes : UInt32} {item : Option SecsItem} {body : Bytes}
    (hencodable : ∀ value ∈ item, value.Encodable)
    (hbody : bodyBytes (.data sessionId stream function wBit systemBytes item) = some body) :
    parseBody body = .ok item := by
  cases item with
  | none =>
      cases hbody
      rfl
  | some item =>
      obtain ⟨bytes, hbytes, hread⟩ := readBack item (hencodable item rfl)
      obtain rfl : bytes = body := Option.some.inj (hbytes.symm.trans hbody)
      refine parseBody_of_fromBytes ?_ (fromBytes_of_decodeItem hread)
      -- an item is never empty: the decoder finds no item in no bytes
      rintro rfl
      have hnone := hread []
      simp [decodeItem] at hnone

/-- The parts of a frame are read back as the message. -/
theorem parse_header {message : HsmsMessage} (hcanonical : message.Canonical) {body : Bytes}
    (hbody : message.bodyBytes = some body) : parse message.header body = .ok message := by
  cases message with
  | data sessionId stream function wBit systemBytes item =>
      obtain ⟨hstream, hfunction, hitem⟩ := hcanonical
      have hparse := parseBody_bodyBytes (fun value hvalue => (hitem value hvalue).1) hbody
      obtain ⟨hlow, hhigh⟩ := and_or_wBit stream hstream wBit
      rw [header, u16_bytes, u32_bytes]
      simp only [parse, List.cons_append, List.nil_append, List.getD_cons_zero,
        List.getD_cons_succ, SType.code, SType.fromU8, if_pos, hparse, Reader.ok_bind, hlow, hhigh,
        and_function function hfunction, u32_ofNat_bytes, Reader.pure_eq_ok]
      rw [u16_ofNat_bytes]
  | selectRsp systemBytes status =>
      rw [header, control, u32_bytes]
      have hsystem := u32_ofNat_bytes systemBytes
      rw [show systemByte systemBytes 3 = status.code from hcanonical] at hsystem ⊢
      simp [parse, SType.code, SType.fromU8, hsystem]
      cases status <;> rfl
  | reject systemBytes reason rejectedS rejectedF =>
      obtain ⟨hone, htwo, hthree⟩ := hcanonical
      have hsystem := u32_ofNat_bytes systemBytes
      rw [header, control, u32_bytes]
      rw [hone, htwo, hthree] at hsystem ⊢
      simp [parse, SType.code, SType.fromU8, hsystem]
  | _ =>
      simp [header, control, u32_bytes, parse, SType.code, SType.fromU8, u32_ofNat_bytes]

theorem header_pType (message : HsmsMessage) : message.header.getD 4 0 = 0 := by
  cases message with
  | data => rw [header, u16_bytes]; rfl
  | _ => simp [header, control]

/-- A canonical message has a body, and its length fits the frame. -/
theorem exists_bodyBytes {message : HsmsMessage} (hcanonical : message.Canonical) :
    ∃ body, message.bodyBytes = some body ∧ 10 + body.length < 2 ^ 32 := by
  cases message with
  | data sessionId stream function wBit systemBytes item =>
      cases item with
      | none => exact ⟨[], rfl, by decide⟩
      | some item =>
          obtain ⟨hencodable, hlength⟩ := hcanonical.2.2 item rfl
          obtain ⟨bytes, hbytes, -⟩ := readBack item hencodable
          exact ⟨bytes, hbytes, hlength bytes hbytes⟩
  | _ => exact ⟨[], rfl, by decide⟩

/-- What a frame can carry is read back from it, whatever follows. -/
theorem fromBytes_toBytes {message : HsmsMessage} (hcanonical : message.Canonical) :
    ∃ bytes, message.toBytes = some bytes ∧
      ∀ tail, fromBytes (bytes ++ tail) = .ok (message, bytes.length) := by
  obtain ⟨body, hbody, hlength⟩ := exists_bodyBytes hcanonical
  refine ⟨_, by rw [toBytes, encode, hbody]; rfl, fun tail => ?_⟩
  have hheader := length_header message
  rw [fromBytes_frame hheader hlength (fun _ => header_pType message),
    parse_header hcanonical hbody]
  simp [hheader, Word.u32]
  omega

end HsmsMessage

/-! ## Errors of decoding -/

/-- An error that decoding can report. -/
def SecsError.OfDecoding : SecsError → Prop
  | .notSelected _ | .unexpectedStreamFunction _ _ _ | .gem _ => False
  | _ => True

/-- A decoder reports only errors of decoding. -/
def Decodes {α : Type} (result : Except SecsError α) : Prop :=
  ∀ error, result = .error error → error.OfDecoding

section Decodes

variable {α β : Type}

theorem decodes_ok (value : α) : Decodes (.ok value) := by
  intro error herror
  cases herror

theorem decodes_error {error : SecsError} (h : error.OfDecoding) :
    Decodes (.error error : Except SecsError α) := by
  intro error' herror
  cases herror
  exact h

theorem Decodes.bind {first : Except SecsError α} {next : α → Except SecsError β}
    (hfirst : Decodes first) (hnext : ∀ value, Decodes (next value)) :
    Decodes (first >>= next) := by
  cases first with
  | error error => exact decodes_error (hfirst error rfl)
  | ok value => exact hnext value

end Decodes

/-- The decoder of items fails with errors of decoding alone: by induction on the bytes. -/
theorem decodes_items : (∀ data, Decodes (decodeItem data)) ∧
    ∀ count cursor, Decodes (decodeItems count cursor) := by
  refine decodeItem.mutual_induct (fun data => Decodes (decodeItem data))
    (fun count cursor => Decodes (decodeItems count cursor)) ?_ ?_ ?_ ?_ ?_ ?_ ?_ ?_ ?_
  · rw [decodeItem]
    exact decodes_error trivial
  · intro header rest hformat
    rw [decodeItem, hformat]
    exact decodes_error trivial
  · intro header rest format hformat bits hbits
    rw [decodeItem, hformat]
    simp only [if_pos hbits, bits]
    exact decodes_error trivial
  · intro header rest format hformat bits hbits hshort
    rw [decodeItem, hformat]
    simp only [if_neg hbits, if_pos hshort, bits]
    exact decodes_error trivial
  · intro header rest bits hbits hshort length body hformat ih
    rw [decodeItem, hformat]
    simp only [if_neg hbits, if_neg hshort, bits, dif_pos]
    exact ih.bind fun _ => decodes_ok _
  · intro header rest format hformat bits hbits hshort length body hlist hless
    rw [decodeItem, hformat]
    simp only [if_neg hbits, if_neg hshort, bits, dif_neg hlist, if_pos hless, length, body]
    exact decodes_error trivial
  · intro header rest format hformat bits hbits hshort length body hlist hless
    rw [decodeItem, hformat]
    simp only [if_neg hbits, if_neg hshort, bits, dif_neg hlist, if_neg hless, length, body]
    exact decodes_ok _
  · intro cursor
    rw [decodeItems]
    exact decodes_ok _
  · intro count cursor hitem hitems
    rw [decodeItems]
    exact hitem.bind fun pair => (hitems pair.2).bind fun _ => decodes_ok _

/-- A result that may turn out to have left bytes over. -/
theorem decodes_ite {α : Type} {rejected : Prop} [Decidable rejected] {error : SecsError}
    (h : error.OfDecoding) (value : α) :
    Decodes (if rejected then .error error else .ok value) := by
  split
  · exact decodes_error h
  · exact decodes_ok value

theorem decodes_parse (headerBytes body : Bytes) :
    Decodes (HsmsMessage.parse headerBytes body) := by
  have hitem : Decodes (SecsItem.fromBytes body) :=
    (decodes_items.1 body).bind fun _ => decodes_ite (by trivial) _
  have hbody : Decodes (HsmsMessage.parseBody body) := by
    rw [HsmsMessage.parseBody]
    split
    · exact decodes_ok _
    · exact hitem.bind fun _ => decodes_ite (by trivial) _
  rw [HsmsMessage.parse]
  split
  · exact hbody.bind fun _ => decodes_ok _
  all_goals exact decodes_ok _

/-- The decoder of messages fails with errors of decoding alone. -/
theorem decodes_fromBytes (data : Bytes) : Decodes (HsmsMessage.fromBytes data) := by
  rw [HsmsMessage.fromBytes]
  split
  · exact decodes_error trivial
  dsimp only
  split
  · exact decodes_error trivial
  split
  · exact decodes_error trivial
  split
  · exact decodes_error trivial
  · exact (decodes_parse _ _).bind fun _ => decodes_ok _

end Secs
