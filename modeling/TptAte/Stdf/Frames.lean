import TptAte.Stdf.Layout
import TptAte.Stdf.Reader

/-! # Frames of an STDF byte string

What a file means as a byte string, apart from how a source delivers it. The
reader over a source that is not disturbed while it is read refines this.
-/

namespace Stdf

open Wire StdfReader

/-! ## Record headers -/

/-- A header is the length to 16 bits, the type and the subtype. -/
theorem recordHeader_eq (typ sub : UInt8) (length : Nat) :
    ∃ length0 length1, recordHeader typ sub length = [length0, length1, typ, sub] ∧
      Endian.little.value [length0, length1] = length % 65536 := by
  obtain ⟨length0, length1, hbytes⟩ : ∃ length0 length1,
      Word.u16.bytes .little (UInt16.ofNat length) = [length0, length1] :=
    List.length_eq_two.mp (Word.length_bytes Word.u16 .little _)
  refine ⟨length0, length1, by rw [recordHeader, hbytes]; rfl, ?_⟩
  rw [← hbytes, Word.bytes, Endian.value_bytes _ _ _ (Word.u16.toNat_lt _)]
  exact Word.u16.toNat_ofNat length

/-- Headers are equal exactly if their types are and their lengths are to 16 bits. -/
theorem recordHeader_eq_iff {typ sub typ' sub' : UInt8} {length length' : Nat} :
    recordHeader typ sub length = recordHeader typ' sub' length' ↔
      typ = typ' ∧ sub = sub' ∧ length % 65536 = length' % 65536 := by
  constructor
  · intro heq
    obtain ⟨length0, length1, hheader, hvalue⟩ := recordHeader_eq typ sub length
    obtain ⟨length0', length1', hheader', hvalue'⟩ := recordHeader_eq typ' sub' length'
    rw [hheader, hheader'] at heq
    simp only [List.cons.injEq, and_true] at heq
    obtain ⟨rfl, rfl, rfl, rfl⟩ := heq
    exact ⟨rfl, rfl, hvalue.symm.trans hvalue'⟩
  · rintro ⟨rfl, rfl, hlength⟩
    have hcount : UInt16.ofNat length = UInt16.ofNat length' := UInt16.toNat_inj.mp (by simpa)
    rw [recordHeader, recordHeader, hcount]

theorem length_recordHeader (typ sub : UInt8) (length : Nat) :
    (recordHeader typ sub length).length = 4 := by
  obtain ⟨length0, length1, hheader, -⟩ := recordHeader_eq typ sub length
  rw [hheader]
  rfl

theorem headerLength_le (length0 length1 : UInt8) :
    Endian.little.value [length0, length1] ≤ 65535 := by
  have hlt := Endian.value_lt .little [length0, length1]
  simp only [List.length_cons, List.length_nil] at hlt
  omega

theorem recordHeader_value (typ sub length0 length1 : UInt8) :
    recordHeader typ sub (Endian.little.value [length0, length1]) =
      [length0, length1, typ, sub] := by
  have hlt := Endian.value_lt .little [length0, length1]
  have hnat : Word.u16.toNat (Word.u16.ofNat (Endian.little.value [length0, length1])) =
      Endian.little.value [length0, length1] := by
    rw [Word.u16.toNat_ofNat]
    exact Nat.mod_eq_of_lt hlt
  have hbytes : Word.u16.bytes .little (Word.u16.ofNat (Endian.little.value [length0, length1])) =
      [length0, length1] := by
    rw [Word.bytes, hnat]
    exact Endian.bytes_value .little [length0, length1]
  exact congrArg (· ++ [typ, sub]) hbytes

/-! ## Frames -/

/-- The first record of a byte string, with the byte order after it and the
bytes behind it. -/
def nextFrame (endian : Endian) (sawFar : Bool) :
    Bytes → Except StdfError (Option (Record × Endian × Bytes))
  | [] => .ok none
  | length0 :: length1 :: typ :: sub :: data =>
      if !sawFar && !isFar typ sub then
        .error (.malformedRecord typ sub "first record in an STDF file must be FAR")
      else
        let length := Endian.little.value [length0, length1]
        if data.length < length then .error (.unexpectedEof length data.length)
        else
          let endian' := endianAfter endian typ sub (data.take length)
          (fun record => some (record, endian', data.drop length)) <$>
            Record.parse typ sub (data.take length) endian'
  | _ => .error (.shortRecordHeader 0)

/-- A first record that is not a FAR is refused before its body is read. -/
def Refused (sawFar : Bool) (typ sub : UInt8) : Prop := (!sawFar && !isFar typ sub) = true

instance (sawFar : Bool) (typ sub : UInt8) : Decidable (Refused sawFar typ sub) :=
  inferInstanceAs (Decidable (_ = true))

/-- A file that does not start with a FAR is refused at its first header. -/
theorem nextFrame_refused {endian : Endian} {sawFar : Bool} {length0 length1 typ sub : UInt8}
    {data : Bytes} (hrefused : Refused sawFar typ sub) :
    nextFrame endian sawFar (length0 :: length1 :: typ :: sub :: data) =
      .error (.malformedRecord typ sub "first record in an STDF file must be FAR") :=
  if_pos hrefused

/-- Behind an accepted header the body is taken, if it is there. -/
theorem nextFrame_accepted {endian : Endian} {sawFar : Bool} {length0 length1 typ sub : UInt8}
    {data : Bytes} (hfar : ¬ Refused sawFar typ sub) :
    nextFrame endian sawFar (length0 :: length1 :: typ :: sub :: data) =
      if data.length < Endian.little.value [length0, length1] then
        .error (.unexpectedEof (Endian.little.value [length0, length1]) data.length)
      else
        (fun record => some (record,
          endianAfter endian typ sub (data.take (Endian.little.value [length0, length1])),
          data.drop (Endian.little.value [length0, length1]))) <$>
          Record.parse typ sub (data.take (Endian.little.value [length0, length1]))
            (endianAfter endian typ sub (data.take (Endian.little.value [length0, length1]))) :=
  if_neg hfar

/-- A frame that decodes starts with a header that counts its body. -/
theorem nextFrame_eq_ok {endian endian' : Endian} {sawFar : Bool} {data rest : Bytes}
    {record : Record} (hnext : nextFrame endian sawFar data = .ok (some (record, endian', rest))) :
    ∃ typ sub body, data = recordHeader typ sub body.length ++ body ++ rest ∧
      body.length ≤ 65535 ∧ ¬ Refused sawFar typ sub ∧
      endian' = endianAfter endian typ sub body ∧
      Record.parse typ sub body endian' = .ok record := by
  unfold nextFrame at hnext
  split at hnext
  · simp at hnext
  next length0 length1 typ sub data =>
    dsimp only at hnext
    split at hnext
    · simp at hnext
    next hfar =>
    split at hnext
    · simp at hnext
    next hlength =>
      -- the header is accepted and its body is there
      have hbody : (data.take (Endian.little.value [length0, length1])).length =
          Endian.little.value [length0, length1] := by
        simp
        omega
      cases hparse : Record.parse typ sub
          (data.take (Endian.little.value [length0, length1]))
          (endianAfter endian typ sub (data.take (Endian.little.value [length0, length1]))) with
      | error error =>
          rw [hparse] at hnext
          simp [Functor.map, Except.map] at hnext
      | ok record' =>
          rw [hparse] at hnext
          simp only [Reader.ok_map, Except.ok.injEq, Option.some.injEq, Prod.mk.injEq] at hnext
          obtain ⟨rfl, rfl, rfl⟩ := hnext
          refine ⟨typ, sub, _, ?_, ?_, hfar, rfl, hparse⟩
          · rw [hbody, recordHeader_value, List.append_assoc, List.take_append_drop]
            rfl
          · rw [hbody]
            exact headerLength_le length0 length1
  · simp at hnext

/-- The record a frame starts with, when its header and body are complete. -/
theorem nextFrame_header {endian : Endian} {sawFar : Bool} {typ sub : UInt8} {body : Bytes}
    {record : Record} (hfar : ¬ Refused sawFar typ sub) (hbody : body.length ≤ 65535)
    (hparse : Record.parse typ sub body (endianAfter endian typ sub body) = .ok record)
    (rest : Bytes) :
    nextFrame endian sawFar (recordHeader typ sub body.length ++ body ++ rest) =
      .ok (some (record, endianAfter endian typ sub body, rest)) := by
  obtain ⟨length0, length1, hheader, hvalue⟩ := recordHeader_eq typ sub body.length
  rw [Nat.mod_eq_of_lt (by omega)] at hvalue
  rw [hheader]
  simp only [List.cons_append, List.nil_append]
  rw [nextFrame_accepted hfar, hvalue, if_neg (by simp), List.take_left, List.drop_left, hparse]
  rfl

theorem nextFrame_eq_none {endian : Endian} {sawFar : Bool} {data : Bytes}
    (hnext : nextFrame endian sawFar data = .ok none) : data = [] := by
  unfold nextFrame at hnext
  split at hnext
  · rfl
  · dsimp only at hnext
    split at hnext
    · simp at hnext
    split at hnext
    · simp at hnext
    cases hparse : Record.parse _ _ _ _ <;> rw [hparse] at hnext <;>
      simp [Functor.map, Except.map] at hnext
  · simp at hnext

/-- Every frame read leaves fewer bytes. -/
theorem length_nextFrame {endian endian' : Endian} {sawFar : Bool} {data rest : Bytes}
    {record : Record} (hnext : nextFrame endian sawFar data = .ok (some (record, endian', rest))) :
    rest.length < data.length := by
  obtain ⟨typ, sub, body, rfl, -⟩ := nextFrame_eq_ok hnext
  rw [List.length_append, List.length_append, length_recordHeader]
  omega

/-! ## Decoding byte strings -/

/-- All records of a byte string. -/
def decodeAll (endian : Endian) (sawFar : Bool) (data : Bytes) : Except StdfError (List Record) :=
  match h : nextFrame endian sawFar data with
  | .ok none => .ok []
  | .error error => .error error
  | .ok (some (record, endian', rest)) =>
      have := length_nextFrame h
      (record :: ·) <$> decodeAll endian' true rest
termination_by data.length

theorem decodeAll_eq (endian : Endian) (sawFar : Bool) (data : Bytes) :
    decodeAll endian sawFar data =
      match nextFrame endian sawFar data with
      | .ok none => .ok []
      | .error error => .error error
      | .ok (some (record, endian', rest)) => (record :: ·) <$> decodeAll endian' true rest := by
  rw [decodeAll]
  split <;> simp_all

/-- A file is its first record and what is decoded behind it. -/
theorem decodeAll_cons {endian endian' : Endian} {sawFar : Bool} {data rest : Bytes}
    {record : Record} (hnext : nextFrame endian sawFar data = .ok (some (record, endian', rest))) :
    decodeAll endian sawFar data = (record :: ·) <$> decodeAll endian' true rest := by
  rw [decodeAll_eq, hnext]

theorem eq_nil_of_decodeAll {endian : Endian} {sawFar : Bool} {data : Bytes}
    (hdecode : decodeAll endian sawFar data = .ok []) : data = [] := by
  rw [decodeAll_eq] at hdecode
  split at hdecode
  next hnext => exact nextFrame_eq_none hnext
  · simp at hdecode
  next record endian' rest _ =>
    cases hrest : decodeAll endian' true rest <;> rw [hrest] at hdecode <;>
      simp [Functor.map, Except.map] at hdecode

theorem decodeAll_eq_cons {endian : Endian} {sawFar : Bool} {data : Bytes} {record : Record}
    {records : List Record} (hdecode : decodeAll endian sawFar data = .ok (record :: records)) :
    ∃ endian' rest, nextFrame endian sawFar data = .ok (some (record, endian', rest)) ∧
      decodeAll endian' true rest = .ok records := by
  rw [decodeAll_eq] at hdecode
  split at hdecode
  · simp at hdecode
  · simp at hdecode
  next record' endian' rest hnext =>
    cases hrest : decodeAll endian' true rest with
    | error error =>
        rw [hrest] at hdecode
        simp [Functor.map, Except.map] at hdecode
    | ok records' =>
        rw [hrest] at hdecode
        simp only [Reader.ok_map, Except.ok.injEq, List.cons.injEq] at hdecode
        obtain ⟨rfl, rfl⟩ := hdecode
        exact ⟨endian', rest, hnext, hrest⟩

/-! ## The reader decodes the bytes of its source -/

/-- From a source without errors the body is read if its bytes are there. -/
theorem readBody_of_calm {wanted : Nat} {source : Source} (hcalm : source.Calm wanted) :
    readBody wanted [] source =
      if source.bytes.length < wanted then
        (.error (.unexpectedEof wanted source.bytes.length), [])
      else (.ok (source.bytes.take wanted), source.skip wanted) :=
  Source.readExact_nil_of_calm hcalm

theorem readRecord_refused {reader : StdfReader} {length0 length1 typ sub : UInt8}
    (hrefused : Refused reader.sawFar typ sub) :
    reader.readRecord length0 length1 typ sub =
      (.error (.malformedRecord typ sub "first record in an STDF file must be FAR"), reader) :=
  if_pos hrefused

/-- The record behind a header is the frame's, if the source is calm up to its end. -/
theorem readRecord_of_calm {reader : StdfReader} {length0 length1 typ sub : UInt8}
    (hfar : ¬ Refused reader.sawFar typ sub)
    (hcalm : reader.inner.Calm (Endian.little.value [length0, length1])) :
    match nextFrame reader.endian reader.sawFar
        (length0 :: length1 :: typ :: sub :: reader.inner.bytes) with
    | .ok none => False
    | .error error => (reader.readRecord length0 length1 typ sub).1 = .error error
    | .ok (some (record, endian, rest)) =>
        reader.readRecord length0 length1 typ sub =
            (.ok (some record),
              { inner := reader.inner.skip (Endian.little.value [length0, length1]), endian,
                sawFar := true }) ∧
          (reader.inner.skip (Endian.little.value [length0, length1])).bytes = rest := by
  have hseen : (reader.sawFar || isFar typ sub) = true := by
    cases hsaw : reader.sawFar <;> cases hisFar : isFar typ sub <;> simp_all [Refused]
  have hread : reader.readRecord length0 length1 typ sub = _ := if_neg hfar
  rw [nextFrame_accepted hfar, hread, readBody_of_calm hcalm, hseen]
  by_cases hshort : reader.inner.bytes.length < Endian.little.value [length0, length1]
  · simp only [if_pos hshort]
  · simp only [if_neg hshort]
    cases Record.parse typ sub
        (reader.inner.bytes.take (Endian.little.value [length0, length1]))
        (endianAfter reader.endian typ sub
          (reader.inner.bytes.take (Endian.little.value [length0, length1]))) with
    | error error => rfl
    | ok record => exact ⟨rfl, Source.bytes_skip _ _⟩

theorem readAll_fst (reader : StdfReader) :
    reader.readAll.1 =
      match reader.nextRecord with
      | (.ok none, _) => .ok []
      | (.error error, _) => .error error
      | (.ok (some record), reader') => (record :: ·) <$> reader'.readAll.1 := by
  rw [readAll]
  split <;> simp_all

/-- From bytes in one piece the reader takes the next frame. -/
theorem nextRecord_whole (endian : Endian) (sawFar : Bool) (data : Bytes) :
    match nextFrame endian sawFar data with
    | .ok none => (nextRecord { inner := .whole data, endian, sawFar }).1 = .ok none
    | .error error => (nextRecord { inner := .whole data, endian, sawFar }).1 = .error error
    | .ok (some (record, endian', rest)) =>
        nextRecord { inner := .whole data, endian, sawFar } =
          (.ok (some record), { inner := .whole rest, endian := endian', sawFar := true }) := by
  match data with
  | [] => rfl
  | [_] | [_, _] | [_, _, _] => rfl
  | length0 :: length1 :: typ :: sub :: data =>
      have hheader : nextRecord
          { inner := .whole (length0 :: length1 :: typ :: sub :: data), endian, sawFar } =
          readRecord { inner := .whole data, endian, sawFar } length0 length1 typ sub := by
        rw [nextRecord, Source.read_whole]
        rfl
      rw [hheader]
      -- a refused first record ends both alike; otherwise one chunk is calm throughout
      by_cases hfar : Refused sawFar typ sub
      · rw [nextFrame_refused hfar, readRecord_refused hfar]
      · have hrecord := @readRecord_of_calm { inner := .whole data, endian, sawFar } length0 length1
          typ sub hfar (Source.calm_whole _ data)
        simp only [Source.bytes_whole, Source.skip_whole] at hrecord
        split <;> simp_all

/-- Reading a whole byte string decodes it. -/
theorem readAll_whole (endian : Endian) (sawFar : Bool) (data : Bytes) :
    (readAll { inner := .whole data, endian, sawFar }).1 = decodeAll endian sawFar data := by
  induction hlength : data.length using Nat.strong_induction_on generalizing endian sawFar data with
  | _ length ih =>
      have hnext := nextRecord_whole endian sawFar data
      rw [readAll_fst, decodeAll_eq]
      split at hnext
      next hframe => split <;> simp_all
      next error hframe => split <;> simp_all
      next record endian' rest hframe =>
        have hrest := length_nextFrame hframe
        rw [hnext]
        dsimp only
        rw [ih rest.length (hlength ▸ hrest) endian' true rest rfl]

/-! ## Encoded records -/

theorem encodeBody_far (far : Far) :
    (Record.far far).encodeBody = some [far.cpuType, far.stdfVer] := by
  simp [Record.encodeBody, encodeFar, emit, put]

/-- Only a FAR has the type of one. -/
theorem isFar_iff {record : Record} (hnamed : record.Named) :
    isFar record.typeSubtype.1 record.typeSubtype.2 = true ↔ ∃ far, record = .far far := by
  cases record with
  | unknown typ sub data =>
      have hfar : ¬ (typ = 0 ∧ sub = 10) := by
        intro h
        obtain ⟨rfl, rfl⟩ := h
        exact hnamed (by decide)
      simpa [isFar, Record.typeSubtype] using hfar
  | _ => simp [isFar, Record.typeSubtype]

/-- Behind a FAR every record is accepted, and a FAR always is. -/
theorem not_refused {record : Record} (hnamed : record.Named) {sawFar : Bool}
    (hfar : sawFar = true ∨ ∃ far, record = .far far) :
    ¬ Refused sawFar record.typeSubtype.1 record.typeSubtype.2 := by
  have hisFar := isFar_iff hnamed
  rcases hfar with rfl | hfar
  · simp [Refused]
  · simp [Refused, hisFar.mpr hfar]

/-- A record is encoded as its header and its body. -/
theorem encode_eq_some {record : Record} {bytes : Bytes} :
    record.encode = some bytes ↔ ∃ body, record.encodeBody = some body ∧
      bytes = recordHeader record.typeSubtype.1 record.typeSubtype.2 body.length ++ body := by
  simp only [Record.encode, Option.bind_eq_bind, Option.bind_eq_some_iff, Option.pure_def,
    Option.some.injEq]
  exact exists_congr fun body => and_congr_right fun _ => eq_comm

end Stdf
