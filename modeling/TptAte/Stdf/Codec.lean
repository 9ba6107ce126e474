import TptAte.Wire.Body
import TptAte.Wire.Source

/-! # STDF field codec

The primitive fields of an STDF record: fixed-width integers and floats, and the
length-prefixed string forms. Floats are their bit patterns. The writer's
helpers are the fields' writers in little-endian order; `none` is a failed
assertion.
-/

namespace Stdf

open Wire

inductive StdfError where
  | io (kind : ErrorKind)
  | unexpectedEof (wanted had : Nat)
  | shortRecordHeader (length : Nat)
  | malformedRecord (typ sub : UInt8) (detail : String)
  deriving DecidableEq, Repr

/-- The one error of the record parsers: the body ends within a field. -/
def IsEof (error : StdfError) : Prop := ∃ wanted had, error = .unexpectedEof wanted had

theorem isEof_unexpectedEof (wanted had : Nat) : IsEof (.unexpectedEof wanted had) :=
  ⟨wanted, had, rfl⟩

namespace CpuType

def m68000 : UInt8 := 1

def x86 : UInt8 := 3

end CpuType

def stdfVersionV4 : UInt8 := 4

abbrev Reader := Wire.Reader StdfError

def u1 : Field StdfError UInt8 := Word.u8.field .unexpectedEof

def u2 : Field StdfError UInt16 := Word.u16.field .unexpectedEof

def u4 : Field StdfError UInt32 := Word.u32.field .unexpectedEof

def i1 : Field StdfError Int8 := Word.i8.field .unexpectedEof

def i2 : Field StdfError Int16 := Word.i16.field .unexpectedEof

def r4 : Field StdfError F32 := Word.f32.field .unexpectedEof

/-- `Cn`: one length byte, then that many characters. The writer asserts that
the length fits its byte. -/
def cn : Field StdfError String := Payload.text.field Word.u8 .unexpectedEof true

/-- `U*2`-prefixed byte array, used by GDR. -/
def kBytes : Field StdfError Bytes := Payload.blob.field Word.u16 .unexpectedEof true

/-- `Sn`: two-byte count of strings, each encoded as `Cn`. -/
def sn : Field StdfError (List String) := cn.listOf Word.u16 .unexpectedEof

/-- `Nn`: two-byte length, then that many characters. The writer lets the length
wrap. -/
def nn : Field StdfError String := Payload.text.field Word.u16 .unexpectedEof false

theorem u1_failsWith : u1.FailsWith IsEof := Word.field_failsWith _ isEof_unexpectedEof

theorem u2_failsWith : u2.FailsWith IsEof := Word.field_failsWith _ isEof_unexpectedEof

theorem u4_failsWith : u4.FailsWith IsEof := Word.field_failsWith _ isEof_unexpectedEof

theorem i1_failsWith : i1.FailsWith IsEof := Word.field_failsWith _ isEof_unexpectedEof

theorem i2_failsWith : i2.FailsWith IsEof := Word.field_failsWith _ isEof_unexpectedEof

theorem r4_failsWith : r4.FailsWith IsEof := Word.field_failsWith _ isEof_unexpectedEof

theorem cn_failsWith : cn.FailsWith IsEof := Payload.field_failsWith _ _ isEof_unexpectedEof _

theorem nn_failsWith : nn.FailsWith IsEof := Payload.field_failsWith _ _ isEof_unexpectedEof _

theorem kBytes_failsWith : kBytes.FailsWith IsEof :=
  Payload.field_failsWith _ _ isEof_unexpectedEof _

theorem sn_failsWith : sn.FailsWith IsEof := Field.listOf_failsWith cn_failsWith isEof_unexpectedEof

@[simp] theorem u1_write (order : Endian) (value : UInt8) :
    u1.write order value = some [value] := by
  cases order <;> simp [u1, Word.field, Word.bytes, Word.u8, Endian.bytes, leBytes]

@[simp] theorem u1_valid (value : UInt8) : u1.Valid value := trivial

@[simp] theorem u2_valid (value : UInt16) : u2.Valid value := trivial

@[simp] theorem u4_valid (value : UInt32) : u4.Valid value := trivial

@[simp] theorem i1_valid (value : Int8) : i1.Valid value := trivial

@[simp] theorem i2_valid (value : Int16) : i2.Valid value := trivial

@[simp] theorem r4_valid (value : F32) : r4.Valid value := trivial

@[simp] theorem cn_valid (text : String) : cn.Valid text ↔ (asBytes text).length ≤ 255 :=
  Nat.lt_succ_iff

@[simp] theorem nn_valid (text : String) : nn.Valid text ↔ (asBytes text).length ≤ 65535 :=
  Nat.lt_succ_iff

@[simp] theorem kBytes_valid (data : Bytes) : kBytes.Valid data ↔ data.length ≤ 65535 :=
  Nat.lt_succ_iff

@[simp] theorem sn_valid (texts : List String) :
    sn.Valid texts ↔ texts.length ≤ 65535 ∧ ∀ text ∈ texts, (asBytes text).length ≤ 255 := by
  simp only [← cn_valid, sn, Field.listOf]
  exact and_congr_left fun _ => Nat.lt_succ_iff

end Stdf
