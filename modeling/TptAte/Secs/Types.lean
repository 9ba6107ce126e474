import TptAte.Wire.Field
import TptAte.Wire.Source

/-! # SECS-II items and HSMS messages

The typed values of a SECS message body, the messages of an HSMS session and
the errors of both layers. Where the source prints a message into an error's
text, the error carries the message.
-/

namespace Secs

open Wire

/-- Format codes of SECS-II items: the upper six bits of the item header. -/
inductive FormatCode where
  | list
  | binary
  | boolean
  | ascii
  | jis8
  | i8
  | i1
  | i2
  | i4
  | f8
  | f4
  | u8
  | u1
  | u2
  | u4
  deriving DecidableEq, Repr

namespace FormatCode

def code : FormatCode → UInt8
  | list => 0x00
  | binary => 0x20
  | boolean => 0x24
  | ascii => 0x40
  | jis8 => 0x44
  | i8 => 0x60
  | i1 => 0x64
  | i2 => 0x68
  | i4 => 0x70
  | f8 => 0x80
  | f4 => 0x84
  | u8 => 0xA0
  | u1 => 0xA4
  | u2 => 0xA8
  | u4 => 0xB0

/-- The format of a header byte, whose low two bits count the length bytes. -/
def fromByte (header : UInt8) : Option FormatCode :=
  let code := header &&& 0b11111100
  if code = 0x00 then some list
  else if code = 0x20 then some binary
  else if code = 0x24 then some boolean
  else if code = 0x40 then some ascii
  else if code = 0x44 then some jis8
  else if code = 0x60 then some i8
  else if code = 0x64 then some i1
  else if code = 0x68 then some i2
  else if code = 0x70 then some i4
  else if code = 0x80 then some f8
  else if code = 0x84 then some f4
  else if code = 0xA0 then some u8
  else if code = 0xA4 then some u1
  else if code = 0xA8 then some u2
  else if code = 0xB0 then some u4
  else none

end FormatCode

inductive SecsItem where
  | list (items : List SecsItem)
  | binary (values : Bytes)
  | boolean (values : List Bool)
  | ascii (text : String)
  | jis (bytes : Bytes)
  | i8 (values : List Int64)
  | i1 (values : List Int8)
  | i2 (values : List Int16)
  | i4 (values : List Int32)
  | f8 (values : List F64)
  | f4 (values : List F32)
  | u8 (values : List UInt64)
  | u1 (values : Bytes)
  | u2 (values : List UInt16)
  | u4 (values : List UInt32)
  deriving Repr

inductive SType where
  | data
  | selectReq
  | selectRsp
  | deselectReq
  | deselectRsp
  | linktestReq
  | linktestRsp
  | rejectReq
  | separateReq
  deriving DecidableEq, Repr

namespace SType

def code : SType → UInt8
  | data => 0
  | selectReq => 1
  | selectRsp => 2
  | deselectReq => 3
  | deselectRsp => 4
  | linktestReq => 5
  | linktestRsp => 6
  | rejectReq => 7
  | separateReq => 9

def fromU8 (v : UInt8) : Option SType :=
  if v = 0 then some data
  else if v = 1 then some selectReq
  else if v = 2 then some selectRsp
  else if v = 3 then some deselectReq
  else if v = 4 then some deselectRsp
  else if v = 5 then some linktestReq
  else if v = 6 then some linktestRsp
  else if v = 7 then some rejectReq
  else if v = 9 then some separateReq
  else none

end SType

inductive SelectStatus where
  | selected
  | alreadySelected
  | notSelected
  deriving DecidableEq, Repr

def SelectStatus.code : SelectStatus → UInt8
  | selected => 0
  | alreadySelected => 1
  | notSelected => 2

inductive RejectReason where
  | notSelected
  | insufficientResources
  | unrecognizedParameter
  | illegalStatus
  | timerExpired
  | congestion
  deriving DecidableEq, Repr

def RejectReason.code : RejectReason → UInt8
  | notSelected => 1
  | insufficientResources => 2
  | unrecognizedParameter => 3
  | illegalStatus => 4
  | timerExpired => 5
  | congestion => 6

/-- Connection states that a single-session transport moves through. -/
inductive HsmsState where
  | notConnected
  | connectedNotSelected
  | selected
  deriving DecidableEq, Repr

/-- An HSMS message. `wBit` marks a primary that expects a reply. -/
inductive HsmsMessage where
  | data (sessionId : UInt16) (stream function : UInt8) (wBit : Bool) (systemBytes : UInt32)
      (body : Option SecsItem)
  | selectReq (systemBytes : UInt32)
  | selectRsp (systemBytes : UInt32) (status : SelectStatus)
  | linktestReq (systemBytes : UInt32)
  | linktestRsp (systemBytes : UInt32)
  | separate (systemBytes : UInt32)
  | reject (systemBytes : UInt32) (reason rejectedS rejectedF : UInt8)
  deriving Repr

/-- The system bytes echoed back in replies and used to match transactions. -/
def HsmsMessage.systemBytes : HsmsMessage → UInt32
  | .data _ _ _ _ systemBytes _ => systemBytes
  | .selectReq systemBytes => systemBytes
  | .selectRsp systemBytes _ => systemBytes
  | .linktestReq systemBytes => systemBytes
  | .linktestRsp systemBytes => systemBytes
  | .separate systemBytes => systemBytes
  | .reject systemBytes _ _ _ => systemBytes

inductive GemDetail where
  | text (detail : String)
  | selectRejected (status : SelectStatus)
  | unexpected (other : HsmsMessage) (awaited : String)
  deriving Repr

/-- What was wanted in place of an unexpected message. -/
inductive Wanted where
  | text (detail : String)
  | reply (systemBytes : UInt32) (got : HsmsMessage)
  deriving Repr

inductive SecsError where
  | io (kind : ErrorKind)
  | unexpectedEof (wanted had : Nat)
  | invalidItemHeader (header : UInt8)
  | invalidItemLengthBits (bits : UInt8)
  | itemLengthOverflow (length remaining : Nat)
  | trailingBytesAfterItem (count : Nat)
  | badHeaderSize (size : Nat)
  | unsupportedPType (pType : UInt8)
  | notSelected (state : HsmsState)
  | missingDataBody (stream function : UInt8)
  | unexpectedStreamFunction (stream function : UInt8) (wanted : Wanted)
  | gem (detail : GemDetail)
  deriving Repr

end Secs
