import TptAte.Secs.Traffic

/-! # Frames of a byte stream

A stream of HSMS traffic is cut into frames by their length bytes alone. What a
frame holds, and whether it can be decoded, has no influence on where the next
one begins.
-/

namespace Secs

open Wire

/-- A length-delimited frame: any payload that four length bytes can count. -/
structure Frame where
  payload : Bytes
  fits : payload.length < 2 ^ 32

namespace Frame

def bytes (frame : Frame) : Bytes :=
  Word.u32.bytes .big (UInt32.ofNat frame.payload.length) ++ frame.payload

def decode (frame : Frame) : Except SecsError HsmsMessage :=
  Prod.fst <$> HsmsMessage.fromBytes frame.bytes

def result (frame : Frame) : Except Stop HsmsMessage := frame.decode.mapError .error

theorem length_bytes (frame : Frame) : frame.bytes.length = 4 + frame.payload.length := by
  simp [bytes, Word.u32]

theorem take_bytes (frame : Frame) (rest : Bytes) :
    (frame.bytes ++ rest).take 4 = frame.bytes.take 4 :=
  List.take_append_of_le_length (by rw [length_bytes]; omega)

/-- The length bytes count the payload. -/
theorem value_bytes (frame : Frame) :
    Endian.big.value (frame.bytes.take 4) = frame.payload.length := by
  have hfour : (Word.u32.bytes .big (UInt32.ofNat frame.payload.length)).length = 4 :=
    Word.length_bytes _ _ _
  rw [bytes, List.take_left' hfour, Word.bytes, Endian.value_bytes _ _ _ (Word.u32.toNat_lt _)]
  exact UInt32.toNat_ofNat_of_lt' frame.fits

end Frame

/-- On a clean source a read gets its bytes, or else waits or meets the end. -/
theorem readExactCounted_clean (closed : Bool) (wanted : Nat) {source : Source}
    (hclean : source.Clean) :
    readExactCounted closed wanted source =
      if source.bytes.length < wanted then
        (.error (if closed then .error (.unexpectedEof wanted source.bytes.length) else .blocked),
          [])
      else (.ok (source.bytes.take wanted), source.skip wanted) := by
  rw [readExactCounted, Source.readExact_nil_of_calm (hclean.calm wanted)]

/-- A call reads the frame at the front, whatever it decodes to, and takes
nothing else. -/
theorem readMessage_frame (closed : Bool) {frame : Frame} {rest : Bytes} {source : Source}
    (hclean : source.Clean) (hbytes : source.bytes = frame.bytes ++ rest) :
    ∃ after : Source, readMessage closed source = (frame.result, after) ∧ after.Clean ∧
      after.bytes = rest := by
  have hlength := frame.length_bytes
  have hmiddle : (source.skip 4).bytes = frame.payload ++ rest := by
    rw [Source.bytes_skip, hbytes, Frame.bytes, List.append_assoc,
      List.drop_left' (by simp [Word.u32])]
  refine ⟨(source.skip 4).skip frame.payload.length, ?_, (hclean.skip 4).skip _, ?_⟩
  · rw [readMessage, readExactCounted_clean closed 4 hclean, hbytes,
      if_neg (by rw [List.length_append]; omega)]
    simp only [frame.take_bytes rest, frame.value_bytes]
    rw [readExactCounted_clean closed _ (hclean.skip 4), hmiddle,
      if_neg (by rw [List.length_append]; omega), List.take_left' rfl]
    have hwhole : frame.bytes.take 4 ++ frame.payload = frame.bytes := by
      rw [Frame.bytes, List.take_left' (by simp [Word.u32])]
    simp only [hwhole, Frame.result, Frame.decode]
    rcases HsmsMessage.fromBytes frame.bytes with error | ⟨message, used⟩ <;> rfl
  · rw [Source.bytes_skip, hmiddle, List.drop_left' rfl]

/-- Bytes that end before the frame they begin does. -/
def IsStump (stump : Bytes) : Prop :=
  ∃ frame : Frame, stump <+: frame.bytes ∧ stump.length < frame.bytes.length

theorem isStump_nil : IsStump [] :=
  ⟨⟨[], by decide⟩, List.nil_prefix, by decide⟩

/-- A stream that ends within a frame is reported as such, and nothing is left
of it. -/
theorem readMessage_stump {stump : Bytes} (hstump : IsStump stump) {source : Source}
    (hclean : source.Clean) (hbytes : source.bytes = stump) :
    ∃ wanted had, ∃ after : Source,
      readMessage true source = (.error (.error (.unexpectedEof wanted had)), after) ∧
        after.Clean ∧ after.bytes = [] := by
  obtain ⟨frame, hinitial, hshort⟩ := hstump
  have hnil : (Source.Clean [] ∧ Source.bytes [] = []) := ⟨by simp [Source.Clean], rfl⟩
  rw [readMessage, readExactCounted_clean true 4 hclean, hbytes]
  -- the stream ends within the length bytes or within the payload
  by_cases hfour : stump.length < 4
  · rw [if_pos hfour]
    exact ⟨4, stump.length, [], rfl, hnil⟩
  · have htake : stump.take 4 = frame.bytes.take 4 := by
      obtain ⟨rest, hrest⟩ := hinitial
      rw [← hrest, List.take_append_of_le_length (by omega)]
    have hless : (source.skip 4).bytes.length < frame.payload.length := by
      rw [Source.bytes_skip, hbytes, List.length_drop]
      have hlength := frame.length_bytes
      omega
    rw [if_neg hfour]
    simp only [htake, frame.value_bytes]
    rw [readExactCounted_clean true _ (hclean.skip 4), if_pos hless]
    exact ⟨_, _, [], rfl, hnil⟩

/-- The source after a number of calls of `readMessage`. -/
def afterCalls (closed : Bool) : Nat → Source → Source
  | 0, source => source
  | calls + 1, source => afterCalls closed calls (readMessage closed source).2

/-- At the end of its bytes a stream reports nothing but that end. -/
theorem eof_afterCalls {stump : Bytes} (hstump : IsStump stump) {source : Source}
    (hclean : source.Clean) (hbytes : source.bytes = stump) (calls : Nat) :
    ∃ wanted had, (readMessage true (afterCalls true calls source)).1 =
      .error (.error (.unexpectedEof wanted had)) := by
  induction calls generalizing stump source with
  | zero =>
      obtain ⟨wanted, had, after, hread, -⟩ := readMessage_stump hstump hclean hbytes
      exact ⟨wanted, had, congrArg Prod.fst hread⟩
  | succ calls ih =>
      obtain ⟨wanted, had, after, hread, hafter, hempty⟩ :=
        readMessage_stump hstump hclean hbytes
      rw [afterCalls, hread]
      exact ih isStump_nil hafter hempty

/-- The calls over a stream of frames return what the frames decode to, one
frame a call and each by itself; behind the last frame they report the end. -/
theorem readMessage_afterCalls (frames : List Frame) {stump : Bytes} (hstump : IsStump stump)
    {source : Source} (hclean : source.Clean)
    (hbytes : source.bytes = frames.flatMap Frame.bytes ++ stump) :
    (∀ before frame after, frames = before ++ frame :: after →
      (afterCalls true before.length source).bytes =
          frame.bytes ++ (after.flatMap Frame.bytes ++ stump) ∧
        (readMessage true (afterCalls true before.length source)).1 = frame.result ∧
        (readMessage true (afterCalls true before.length source)).2.bytes =
          after.flatMap Frame.bytes ++ stump) ∧
    ∀ calls, frames.length ≤ calls → ∃ wanted had,
      (readMessage true (afterCalls true calls source)).1 =
        .error (.error (.unexpectedEof wanted had)) := by
  -- by induction on the frames: the call on the first leaves the source in front of the others
  induction frames generalizing source with
  | nil => exact ⟨by simp, fun calls _ => eof_afterCalls hstump hclean hbytes calls⟩
  | cons first frames ih =>
      rw [List.flatMap_cons, List.append_assoc] at hbytes
      obtain ⟨next, hread, hnext, hrest⟩ := readMessage_frame true hclean hbytes
      obtain ⟨hframes, hend⟩ := ih hnext hrest
      constructor
      · intro before frame after hsplit
        cases before with
        | nil =>
            obtain ⟨rfl, rfl⟩ := List.cons.inj hsplit
            rw [List.length_nil, afterCalls, hread]
            exact ⟨hbytes, rfl, hrest⟩
        | cons head before =>
            rw [List.cons_append, List.cons.injEq] at hsplit
            rw [List.length_cons, afterCalls, hread]
            exact hframes before frame after hsplit.2
      · intro calls hcalls
        cases calls with
        | zero => simp at hcalls
        | succ calls =>
            rw [afterCalls, hread]
            exact hend calls (Nat.le_of_succ_le_succ hcalls)

/-- A frame that is too short for a header, a Linktest.req and the start of a
third frame, in three chunks. -/
def raggedTraffic : Source :=
  [.chunk 0 [0, 0, 3, 7], .chunk 7 [7, 0, 0, 0, 10, 0, 0, 0, 0, 0, 5, 0],
    .chunk 0 [0, 9, 0, 0, 0, 10, 0]]

/-- A short frame is reported as one, and the frame behind it is read. -/
theorem readMessage_afterCalls_raggedTraffic :
    ∃ short linktest : Frame,
      (readMessage true (afterCalls true 0 raggedTraffic)).1 = short.result ∧
      short.decode = .error (.badHeaderSize 3) ∧
      (readMessage true (afterCalls true 1 raggedTraffic)).1 = linktest.result ∧
      linktest.decode = .ok (.linktestReq 9) ∧
      ∃ wanted had, (readMessage true (afterCalls true 2 raggedTraffic)).1 =
        .error (.error (.unexpectedEof wanted had)) := by
  have hstump : IsStump [0, 0, 0, 10, 0] :=
    ⟨⟨List.replicate 10 0, by decide⟩, by decide, by decide⟩
  have hclean : raggedTraffic.Clean := by simp [Source.Clean, raggedTraffic]
  obtain ⟨hframes, hend⟩ := readMessage_afterCalls
    [⟨[7, 7, 7], by decide⟩, ⟨[0, 0, 0, 0, 0, 5, 0, 0, 0, 9], by decide⟩] hstump hclean
    (by decide)
  exact ⟨⟨[7, 7, 7], by decide⟩, ⟨[0, 0, 0, 0, 0, 5, 0, 0, 0, 9], by decide⟩,
    (hframes [] _ _ rfl).2.1, rfl, (hframes [_] _ [] rfl).2.1, rfl, hend 2 le_rfl⟩

/-! ## What a frame carries of a message -/

namespace HsmsMessage

/-- The system bytes made of four bytes. -/
def ofSystemBytes (byte0 byte1 byte2 byte3 : UInt8) : UInt32 :=
  Word.u32.ofNat (Endian.big.value [byte0, byte1, byte2, byte3])

/-- The message that the frame of a message carries: seven bits of stream and
function, and system bytes that a status or a rejection has overwritten. -/
def onWire : HsmsMessage → HsmsMessage
  | .data sessionId stream function wBit systemBytes body =>
      .data sessionId (stream &&& 0x7F) (function &&& 0x7F) wBit systemBytes body
  | .selectRsp systemBytes status =>
      .selectRsp (ofSystemBytes (systemByte systemBytes 0) (systemByte systemBytes 1)
        (systemByte systemBytes 2) status.code) status
  | .reject systemBytes reason rejectedS rejectedF =>
      .reject (ofSystemBytes (systemByte systemBytes 0) rejectedS rejectedF reason) reason
        rejectedS rejectedF
  | message => message

/-- The body of a message can be encoded, and its frame be counted. -/
def Sendable : HsmsMessage → Prop
  | .data _ _ _ _ _ body =>
      ∀ item ∈ body, item.Encodable ∧
        ∀ bytes, item.encode = some bytes → 10 + bytes.length < 2 ^ 32
  | _ => True

theorem bytes_ofSystemBytes (byte0 byte1 byte2 byte3 : UInt8) :
    Word.u32.bytes .big (ofSystemBytes byte0 byte1 byte2 byte3) = [byte0, byte1, byte2, byte3] := by
  have hvalue := Endian.big.bytes_value [byte0, byte1, byte2, byte3]
  have hless : Endian.big.value [byte0, byte1, byte2, byte3] < 256 ^ Word.u32.width :=
    Endian.big.value_lt [byte0, byte1, byte2, byte3]
  rw [Word.bytes, ofSystemBytes, Word.u32.toNat_ofNat, Nat.mod_eq_of_lt hless]
  exact hvalue

theorem systemByte_ofSystemBytes (byte0 byte1 byte2 byte3 : UInt8) (i : Nat) :
    systemByte (ofSystemBytes byte0 byte1 byte2 byte3) i =
      [byte0, byte1, byte2, byte3].getD i 0 := by
  rw [systemByte, bytes_ofSystemBytes]

/-- A message and what its frame carries have the same frame. -/
theorem toBytes_onWire (message : HsmsMessage) : message.onWire.toBytes = message.toBytes := by
  have hmask (byte : UInt8) : byte &&& 0x7F &&& 0x7F = byte &&& 0x7F := by
    rw [UInt8.and_assoc]
    rfl
  have hheader : message.onWire.header = message.header := by
    cases message with
    | data => simp only [onWire, header, hmask]
    | selectRsp systemBytes status =>
        simp [onWire, header, control, bytes_ofSystemBytes, u32_bytes systemBytes]
    | reject systemBytes reason rejectedS rejectedF =>
        simp [onWire, header, control, bytes_ofSystemBytes, u32_bytes systemBytes]
    | _ => rfl
  have hbody : message.onWire.bodyBytes = message.bodyBytes := by
    cases message with
    | data sessionId stream function wBit systemBytes body => cases body <;> rfl
    | _ => rfl
  rw [toBytes, toBytes, encode, encode, hheader, hbody]

/-- A message that can be sent is canonical once it is on the wire. -/
theorem canonical_onWire {message : HsmsMessage} (hsendable : message.Sendable) :
    message.onWire.Canonical := by
  have hlow (byte : UInt8) : byte &&& 0x7F < 128 := by
    rw [UInt8.lt_iff_toNat_lt, UInt8.toNat_and]
    exact Nat.lt_of_le_of_lt Nat.and_le_right (by decide)
  cases message with
  | data => exact ⟨hlow _, hlow _, hsendable⟩
  | selectRsp => simp [onWire, Canonical, systemByte_ofSystemBytes]
  | reject => simp [onWire, Canonical, systemByte_ofSystemBytes]
  | _ => trivial

end HsmsMessage

/-! ## Frames of messages -/

/-- A message whose frame can carry it is what its frame decodes to. -/
theorem exists_frame {message : HsmsMessage} (hcanonical : message.Canonical) :
    ∃ frame : Frame, message.toBytes = some frame.bytes ∧ frame.decode = .ok message := by
  obtain ⟨body, hbody, hlength⟩ := HsmsMessage.exists_bodyBytes hcanonical
  have hheader := message.length_header
  have hpayload : (message.header ++ body).length = 10 + body.length := by
    rw [List.length_append, hheader]
  have hbytes : message.toBytes =
      some (Frame.bytes ⟨message.header ++ body, hpayload ▸ hlength⟩) := by
    rw [HsmsMessage.toBytes, HsmsMessage.encode, hbody, Frame.bytes]
    simp only [hpayload, Option.map_eq_map, Option.map_some, List.append_assoc]
  refine ⟨_, hbytes, ?_⟩
  obtain ⟨encoded, hencoded, hread⟩ := HsmsMessage.fromBytes_toBytes hcanonical
  obtain rfl := Option.some.inj (hencoded.symm.trans hbytes)
  have hexact := hread []
  rw [List.append_nil] at hexact
  rw [Frame.decode, hexact]
  rfl

/-- The frame of a message decodes to what it carries of the message. -/
theorem exists_frame_onWire {message : HsmsMessage} (hsendable : message.Sendable) :
    ∃ frame : Frame, message.toBytes = some frame.bytes ∧ frame.decode = .ok message.onWire := by
  obtain ⟨frame, hbytes, hdecode⟩ := exists_frame (HsmsMessage.canonical_onWire hsendable)
  exact ⟨frame, (HsmsMessage.toBytes_onWire message).symm.trans hbytes, hdecode⟩

/-- Encoding a message that its frame can carry never fails, and from the bytes,
whatever follows them, the message is read back with their number. -/
theorem fromBytes_of_canonical {message : HsmsMessage} (hcanonical : message.Canonical)
    (tail : Bytes) :
    ∃ bytes, message.toBytes = some bytes ∧
      HsmsMessage.fromBytes (bytes ++ tail) = .ok (message, bytes.length) := by
  obtain ⟨bytes, hbytes, hread⟩ := HsmsMessage.fromBytes_toBytes hcanonical
  exact ⟨bytes, hbytes, hread tail⟩

/-- A reject is read back with the kind and the reason it was sent with. -/
theorem fromBytes_of_canonical_reject :
    ∃ bytes, (HsmsMessage.reject 0x07020304 4 2 3).toBytes = some bytes ∧
      HsmsMessage.fromBytes (bytes ++ [0xFF]) = .ok (.reject 0x07020304 4 2 3, bytes.length) := by
  have hcanonical : (HsmsMessage.reject 0x07020304 4 2 3).Canonical :=
    ⟨by decide, by decide, by decide⟩
  exact fromBytes_of_canonical hcanonical [0xFF]

end Secs
