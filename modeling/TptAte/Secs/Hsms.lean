import TptAte.Secs.Item

/-! # HSMS frames

A four-byte big-endian total length, a ten-byte header and, for data messages,
a SECS-II body. Header bytes: session id (0, 1), W-bit and stream (2), function
(3), PType (4), SType (5), system bytes (6 to 9).
-/

namespace Secs

open Wire

namespace HsmsMessage

def control (stype : SType) (systemBytes : UInt32) : Bytes :=
  [0, 0, 0, 0, 0, stype.code] ++ Word.u32.bytes .big systemBytes

/-- The ten header bytes. The status of a Select.rsp and the fields of a Reject
overlap the system bytes. -/
def header : HsmsMessage → Bytes
  | .data sessionId stream function wBit systemBytes _ =>
      Word.u16.bytes .big sessionId ++
        [stream &&& 0x7F ||| (if wBit then 0x80 else 0), function &&& 0x7F, 0, SType.data.code] ++
        Word.u32.bytes .big systemBytes
  | .selectReq systemBytes => control .selectReq systemBytes
  | .selectRsp systemBytes status => (control .selectRsp systemBytes).set 9 status.code
  | .linktestReq systemBytes => control .linktestReq systemBytes
  | .linktestRsp systemBytes => control .linktestRsp systemBytes
  | .separate systemBytes => control .separateReq systemBytes
  | .reject systemBytes reason rejectedS rejectedF =>
      (((control .rejectReq systemBytes).set 7 rejectedS).set 8 rejectedF).set 9 reason

/-- The body bytes: those of the item of a data message. -/
def bodyBytes : HsmsMessage → Option Bytes
  | .data _ _ _ _ _ (some item) => item.encode
  | _ => some []

def encode (message : HsmsMessage) : Option Bytes :=
  (fun body => Word.u32.bytes .big (UInt32.ofNat (10 + body.length)) ++ message.header ++ body) <$>
    message.bodyBytes

def toBytes (message : HsmsMessage) : Option Bytes := message.encode

def parseBody (bytes : Bytes) : Except SecsError (Option SecsItem) :=
  if bytes = [] then .ok none
  else do
    let (item, used) ← SecsItem.fromBytes bytes
    if used ≠ bytes.length then .error (.trailingBytesAfterItem (bytes.length - used))
    else .ok (some item)

def parse (headerBytes body : Bytes) : Except SecsError HsmsMessage :=
  let header (i : Nat) : UInt8 := headerBytes.getD i 0
  let systemBytes := Word.u32.ofNat (Endian.big.value [header 6, header 7, header 8, header 9])
  match SType.fromU8 (header 5) with
  | some .data => do
      let item ← parseBody body
      return .data (Word.u16.ofNat (Endian.big.value [header 0, header 1])) (header 2 &&& 0x7F)
        (header 3 &&& 0x7F) (header 2 &&& 0x80 != 0) systemBytes item
  | some .selectReq => .ok (.selectReq systemBytes)
  | some .selectRsp =>
      .ok (.selectRsp systemBytes
        (if header 9 = 0 then .selected else if header 9 = 1 then .alreadySelected
          else .notSelected))
  | some .linktestReq => .ok (.linktestReq systemBytes)
  | some .linktestRsp => .ok (.linktestRsp systemBytes)
  | some .separateReq => .ok (.separate systemBytes)
  | some .rejectReq => .ok (.reject systemBytes (header 9) (header 7) (header 8))
  -- deselect and unknown types become rejects whose reason is the type
  | _ => .ok (.reject systemBytes (header 5) (header 7) (header 8))

/-- Decode one message from the front, with the number of bytes it takes. -/
def fromBytes (data : Bytes) : Except SecsError (HsmsMessage × Nat) :=
  if data.length < 4 then .error (.unexpectedEof 4 data.length)
  else
    let totalLen := Endian.big.value (data.take 4)
    if totalLen < 10 then .error (.badHeaderSize totalLen)
    else
      let needed := 4 + totalLen
      if data.length < needed then .error (.unexpectedEof needed data.length)
      else
        let header := (data.take 14).drop 4
        if header.getD 5 0 = SType.data.code ∧ header.getD 4 0 ≠ 0 then
          .error (.unsupportedPType (header.getD 4 0))
        else (·, needed) <$> parse header ((data.take needed).drop 14)

end HsmsMessage

end Secs
