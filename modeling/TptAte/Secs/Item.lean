import TptAte.Secs.Types
import TptAte.Wire.Utf8

/-! # SECS-II item codec

A format byte that also counts the length bytes, one to three big-endian length
bytes, then the elements. A list's length counts its items, every other length
counts bytes. `none` is the encoder's failed assertion on a length that three
bytes cannot hold.
-/

namespace Secs

open Wire

/-- Largest count encodable in three bytes. -/
def maxLength : Nat := 0x00FFFFFF

/-- The length bytes of an item header, as few as the length needs. -/
def lengthBytes (length : Nat) : Bytes :=
  if length ≤ 0xFF then [UInt8.ofNat length]
  else if length ≤ 0xFFFF then [UInt8.ofNat (length >>> 8), UInt8.ofNat length]
  else [UInt8.ofNat (length >>> 16), UInt8.ofNat (length >>> 8), UInt8.ofNat length]

/-- The item header: format byte and length bytes. -/
def pushHeader (format : FormatCode) (length : Nat) : Option Bytes :=
  if length ≤ maxLength then
    some ((format.code ||| UInt8.ofNat (lengthBytes length).length) :: lengthBytes length)
  else none

/-- A fixed-width array: header, then big-endian elements. -/
def pushFixed (format : FormatCode) {α : Type} (word : Word α) (values : List α) : Option Bytes :=
  (· ++ values.flatMap (word.bytes .big)) <$> pushHeader format (values.length * word.width)

mutual

def SecsItem.encode : SecsItem → Option Bytes
  | .list items => do
      let header ← pushHeader .list items.length
      let rest ← encodeItems items
      return header ++ rest
  | .binary values => pushFixed .binary Word.u8 values
  | .boolean values => pushFixed .boolean Word.u8 (values.map Bool.toUInt8)
  | .ascii text => (· ++ asBytes text) <$> pushHeader .ascii (asBytes text).length
  | .jis bytes => pushFixed .jis8 Word.u8 bytes
  | .i8 values => pushFixed .i8 Word.i64 values
  | .i1 values => pushFixed .i1 Word.i8 values
  | .i2 values => pushFixed .i2 Word.i16 values
  | .i4 values => pushFixed .i4 Word.i32 values
  | .f8 values => pushFixed .f8 Word.f64 values
  | .f4 values => pushFixed .f4 Word.f32 values
  | .u8 values => pushFixed .u8 Word.u64 values
  | .u1 values => pushFixed .u1 Word.u8 values
  | .u2 values => pushFixed .u2 Word.u16 values
  | .u4 values => pushFixed .u4 Word.u32 values

def encodeItems : List SecsItem → Option Bytes
  | [] => some []
  | item :: items => do
      let bytes ← item.encode
      let rest ← encodeItems items
      return bytes ++ rest

end

/-- Big-endian fixed-width elements; what is left over at the end is dropped. -/
def decodeFixed {α : Type} (word : Word α) (bytes : Bytes) : List α :=
  if word.width ≤ bytes.length then
    word.ofNat (Endian.big.value (bytes.take word.width)) ::
      decodeFixed word (bytes.drop word.width)
  else []
termination_by bytes.length
decreasing_by
  have hwidth := word.width_pos
  rw [List.length_drop]
  omega

/-- The item of any format but the list's, from its payload. -/
def flatItem : (format : FormatCode) → format ≠ .list → Bytes → SecsItem
  | .list, hflat, _ => absurd rfl hflat
  | .binary, _, bytes => .binary bytes
  | .boolean, _, bytes => .boolean (bytes.map (· != 0))
  | .ascii, _, bytes => .ascii (fromUtf8Lossy bytes)
  | .jis8, _, bytes => .jis bytes
  | .i8, _, bytes => .i8 (decodeFixed Word.i64 bytes)
  | .i1, _, bytes => .i1 (decodeFixed Word.i8 bytes)
  | .i2, _, bytes => .i2 (decodeFixed Word.i16 bytes)
  | .i4, _, bytes => .i4 (decodeFixed Word.i32 bytes)
  | .f8, _, bytes => .f8 (decodeFixed Word.f64 bytes)
  | .f4, _, bytes => .f4 (decodeFixed Word.f32 bytes)
  | .u8, _, bytes => .u8 (decodeFixed Word.u64 bytes)
  | .u1, _, bytes => .u1 bytes
  | .u2, _, bytes => .u2 (decodeFixed Word.u16 bytes)
  | .u4, _, bytes => .u4 (decodeFixed Word.u32 bytes)

def lengthOf (bytes : Bytes) : Nat :=
  bytes.foldl (fun length byte => length <<< 8 ||| byte.toNat) 0

/-- How many length bytes a header byte announces. -/
def lengthBits (header : UInt8) : Nat := (header &&& 0b11).toNat

/-- The loop over the length bytes computes the big-endian number they spell. -/
theorem foldl_length (bytes : Bytes) (length : Nat) :
    bytes.foldl (fun length byte => length <<< 8 ||| byte.toNat) length =
      length * 256 ^ bytes.length + Endian.big.value bytes := by
  induction bytes generalizing length with
  | nil => simp [Endian.value, leValue]
  | cons byte rest ih =>
      have hshift : length <<< 8 ||| byte.toNat = length * 256 + byte.toNat := by
        rw [← Nat.shiftLeft_add_eq_or_of_lt (by simpa using byte.toNat_lt), Nat.shiftLeft_eq]
      have hvalue : Endian.big.value (byte :: rest) =
          Endian.big.value rest + 256 ^ rest.length * byte.toNat := by
        simp [Endian.value, leValue_append, leValue]
      rw [List.foldl_cons, ih, hshift, hvalue, List.length_cons, Nat.pow_succ]
      ring

/-- The length bytes hold a big-endian number. -/
theorem lengthOf_eq (bytes : Bytes) : lengthOf bytes = Endian.big.value bytes := by
  rw [lengthOf, foldl_length]
  simp

/-- A header announces at most three length bytes. -/
theorem lengthBits_le (header : UInt8) : lengthBits header ≤ 3 := by
  have hand : header.toNat &&& 3 ≤ 3 := Nat.and_le_right
  simpa [lengthBits] using hand

theorem lengthOf_take_lt (header : UInt8) (rest : Bytes) :
    lengthOf (rest.take (lengthBits header)) < 256 ^ 3 := by
  rw [lengthOf_eq]
  have hlt := Endian.big.value_lt (rest.take (lengthBits header))
  have hbits := lengthBits_le header
  have hlength : (rest.take (lengthBits header)).length ≤ 3 := by
    rw [List.length_take]
    omega
  exact lt_of_lt_of_le hlt (Nat.pow_le_pow_right (by decide) hlength)

/-- More steps than the items announced by one header. -/
@[irreducible] def stepsPerByte : Nat := 256 ^ 4

theorem stepsPerByte_eq : stepsPerByte = 256 ^ 4 := by
  unfold stepsPerByte
  rfl

mutual

/-- Decode one item from the front, with the number of bytes it takes. -/
def decodeItem : Bytes → Except SecsError (SecsItem × Nat)
  | [] => .error (.unexpectedEof 1 0)
  | header :: rest =>
      match FormatCode.fromByte header with
      | none => .error (.invalidItemHeader header)
      | some format =>
          let bits := lengthBits header
          if bits = 0 then .error (.invalidItemLengthBits 0)
          else if rest.length < bits then .error (.unexpectedEof bits rest.length)
          else
            let length := lengthOf (rest.take bits)
            let body := rest.drop bits
            -- the length of a list counts items, so only flat payloads are checked against it
            if hlist : format = .list then do
              let (items, cursor) ← decodeItems length body
              return (.list items, (header :: rest).length - cursor.length)
            else if body.length < length then .error (.itemLengthOverflow length body.length)
            else .ok (flatItem format hlist (body.take length), 1 + bits + length)
termination_by data => stepsPerByte * data.length
decreasing_by
  have hlength : length < 256 ^ 3 := lengthOf_take_lt header rest
  have hsteps : 256 ^ 3 < stepsPerByte := by
    rw [stepsPerByte_eq]
    decide
  simp only [List.length_drop, List.length_cons]
  calc stepsPerByte * (rest.length - bits) + length + 1
      < stepsPerByte * rest.length + stepsPerByte := by
        have hless := Nat.mul_le_mul_left stepsPerByte (Nat.sub_le rest.length bits)
        omega
    _ = stepsPerByte * (rest.length + 1) := by ring

/-- Decode a number of items, with what is left behind them. -/
def decodeItems : Nat → Bytes → Except SecsError (List SecsItem × Bytes)
  | 0, cursor => .ok ([], cursor)
  | count + 1, cursor => do
      let (item, used) ← decodeItem cursor
      let (items, rest) ← decodeItems count (cursor.drop used)
      return (item :: items, rest)
termination_by count cursor => stepsPerByte * cursor.length + count + 1
decreasing_by
  · omega
  · have hless := Nat.mul_le_mul_left stepsPerByte (Nat.sub_le cursor.length used)
    rw [List.length_drop]
    omega

end

namespace SecsItem

def toBytes (item : SecsItem) : Option Bytes := item.encode

/-- Decode bytes that hold exactly one item. -/
def fromBytes (data : Bytes) : Except SecsError (SecsItem × Nat) := do
  let (item, consumed) ← decodeItem data
  if consumed ≠ data.length then .error (.trailingBytesAfterItem (data.length - consumed))
  else .ok (item, consumed)

end SecsItem

end Secs
