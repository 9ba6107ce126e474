import TptAte.Stdf.Records

/-! # STDF reader

The reader over a byte source that delivers its bytes in chunks and may report
errors in between. The FAR record must come first, because it declares the byte
order of the fields that follow.
-/

namespace Stdf

open Wire

/-- Read a record body: from the source until `wanted` bytes are there. -/
def readBody (wanted : Nat) (body : Bytes) (source : Source) :
    Except StdfError Bytes × Source :=
  source.readExact StdfError.io StdfError.unexpectedEof wanted body

structure StdfReader where
  inner : Source
  endian : Endian
  sawFar : Bool
  deriving DecidableEq

namespace StdfReader

def new (inner : Source) : StdfReader := { inner, endian := .little, sawFar := false }

def isFar (typ sub : UInt8) : Bool := typ == 0 && sub == 10

/-- The byte order after a record: a FAR declares it in its first byte. -/
def endianAfter (endian : Endian) (typ sub : UInt8) (body : Bytes) : Endian :=
  if isFar typ sub then
    match body with
    | [] => endian
    | cpuType :: _ => if cpuType = CpuType.m68000 then .big else .little
  else endian

def readRecord (reader : StdfReader) (length0 length1 typ sub : UInt8) :
    Except StdfError (Option Record) × StdfReader :=
  if !reader.sawFar && !isFar typ sub then
    (.error (.malformedRecord typ sub "first record in an STDF file must be FAR"), reader)
  else
    match readBody (Endian.little.value [length0, length1]) [] reader.inner with
    | (.error error, inner) => (.error error, { reader with inner })
    | (.ok body, inner) =>
        -- a FAR is itself parsed in the byte order it declares
        let endian := endianAfter reader.endian typ sub body
        (some <$> Record.parse typ sub body endian,
          { inner, endian, sawFar := reader.sawFar || isFar typ sub })

/-- Read the next record; `none` at the end of the file. The header is read in
one call, and an interruption of that call counts as the end. -/
def nextRecord (reader : StdfReader) : Except StdfError (Option Record) × StdfReader :=
  match reader.inner.read 4 with
  | (.ok [], inner) => (.ok none, { reader with inner })
  | (.ok [length0, length1, typ, sub], inner) =>
      readRecord { reader with inner } length0 length1 typ sub
  | (.ok _, inner) => (.error (.shortRecordHeader 0), { reader with inner })
  | (.error .interrupted, inner) => (.ok none, { reader with inner })
  | (.error kind, inner) => (.error (.io kind), { reader with inner })

/-- A record uses up at least its header. -/
theorem size_nextRecord {reader reader' : StdfReader} {record : Record}
    (hnext : reader.nextRecord = (.ok (some record), reader')) :
    reader'.inner.size < reader.inner.size := by
  have hsize := reader.inner.size_read 4
  unfold nextRecord at hnext
  split at hnext
  next => simp at hnext
  next length0 length1 typ sub inner hread =>
    rw [hread] at hsize
    unfold readRecord at hnext
    split at hnext
    · simp at hnext
    · have hbody :
          (readBody (Endian.little.value [length0, length1]) [] inner).2.size ≤ inner.size :=
        Source.size_readExact _ [] inner
      split at hnext
      · simp at hnext
      next body inner' hread' =>
        rw [hread'] at hbody
        simp only [Prod.mk.injEq] at hnext
        obtain ⟨-, rfl⟩ := hnext
        simp only [List.length_cons, List.length_nil] at hsize hbody ⊢
        omega
  all_goals simp at hnext

/-- Read all remaining records. -/
def readAll (reader : StdfReader) : Except StdfError (List Record) × StdfReader :=
  match h : reader.nextRecord with
  | (.ok none, reader') => (.ok [], reader')
  | (.error error, reader') => (.error error, reader')
  | (.ok (some record), reader') =>
      have := size_nextRecord h
      let (records, final) := readAll reader'
      ((record :: ·) <$> records, final)
termination_by reader.inner.size

end StdfReader

end Stdf
