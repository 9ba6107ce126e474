import TptAte.Stdf.RoundTrip

/-! # Truncated STDF files

A file cut at any byte yields the records that lie wholly before the cut, and
the reader reports an error exactly when the cut falls inside a record.
-/

namespace Stdf

open Wire StdfReader StdfWriter

/-! ## Reading to the end -/

/-- Take records until none is left or one cannot be read: the records taken, and
how the reading ends. -/
def StdfReader.drain (reader : StdfReader) : List Record × Except StdfError Unit :=
  match h : reader.nextRecord with
  | (.ok none, _) => ([], .ok ())
  | (.error error, _) => ([], .error error)
  | (.ok (some record), reader') =>
      have := size_nextRecord h
      let (records, ending) := drain reader'
      (record :: records, ending)
termination_by reader.inner.size

/-- Draining is the next record and then draining the rest, up to the first error. -/
theorem drain_eq (reader : StdfReader) :
    reader.drain =
      match reader.nextRecord with
      | (.ok none, _) => ([], .ok ())
      | (.error error, _) => ([], .error error)
      | (.ok (some record), reader') => (record :: reader'.drain.1, reader'.drain.2) := by
  rw [drain]
  split <;> simp_all

/-- Reading all records keeps the records only if the reading ends well. -/
theorem readAll_eq_drain (reader : StdfReader) :
    reader.readAll.1 = (fun _ => reader.drain.1) <$> reader.drain.2 := by
  induction hsize : reader.inner.size using Nat.strong_induction_on generalizing reader with
  | _ size ih =>
      rw [readAll_fst, drain_eq]
      rcases hnext : reader.nextRecord with ⟨error | _ | record, reader'⟩
      · rfl
      · rfl
      · dsimp only
        rw [ih _ (hsize ▸ size_nextRecord hnext) reader' rfl]
        cases reader'.drain.2 <;> rfl

section Whole

variable {endian endian' : Endian} {sawFar : Bool} {data rest : Bytes}

theorem drain_whole_none (hnext : nextFrame endian sawFar data = .ok none) :
    drain { inner := .whole data, endian, sawFar } = ([], .ok ()) := by
  have hwhole := nextRecord_whole endian sawFar data
  rw [hnext] at hwhole
  rw [drain_eq]
  split <;> simp_all

theorem drain_whole_error {error : StdfError}
    (hnext : nextFrame endian sawFar data = .error error) :
    drain { inner := .whole data, endian, sawFar } = ([], .error error) := by
  have hwhole := nextRecord_whole endian sawFar data
  rw [hnext] at hwhole
  rw [drain_eq]
  split <;> simp_all

theorem drain_whole_some {record : Record}
    (hnext : nextFrame endian sawFar data = .ok (some (record, endian', rest))) :
    drain { inner := .whole data, endian, sawFar } =
      (record :: (drain { inner := .whole rest, endian := endian', sawFar := true }).1,
        (drain { inner := .whole rest, endian := endian', sawFar := true }).2) := by
  have hwhole := nextRecord_whole endian sawFar data
  rw [hnext] at hwhole
  rw [drain_eq, hwhole]

end Whole

/-! ## Cuts -/

/-- The records that lie wholly within the first `cut` bytes of their frames. -/
def wholeRecords : Nat → List Record → List Record
  | _, [] => []
  | cut, record :: records =>
      match record.encode with
      | none => []
      | some encoded =>
          if encoded.length ≤ cut then record :: wholeRecords (cut - encoded.length) records
          else []

/-- The cut falls between two records, or at an end of the file. -/
def RecordBoundary (cut : Nat) (records : List Record) : Prop :=
  ∃ count encoded, emit ((records.take count).map Record.encode) = some encoded ∧
    encoded.length = cut

theorem length_encode_pos {record : Record} {encoded : Bytes}
    (hencode : record.encode = some encoded) : 0 < encoded.length := by
  obtain ⟨body, -, rfl⟩ := encode_eq_some.mp hencode
  rw [List.length_append, length_recordHeader]
  omega

theorem recordBoundary_nil {cut : Nat} : RecordBoundary cut [] ↔ cut = 0 := by
  simp [RecordBoundary, emit, eq_comm]

/-- A cut is at a boundary if it is at the front, or at a boundary behind the first record. -/
theorem recordBoundary_cons {record : Record} {encoded : Bytes}
    (hencode : record.encode = some encoded) {records : List Record} {cut : Nat} :
    RecordBoundary cut (record :: records) ↔
      cut = 0 ∨ encoded.length ≤ cut ∧ RecordBoundary (cut - encoded.length) records := by
  constructor
  · rintro ⟨count, bytes, hemit, rfl⟩
    cases count with
    | zero =>
        cases hemit
        exact .inl rfl
    | succ count =>
        rw [List.take_succ_cons, List.map_cons, emit, hencode, Field.append_eq_some] at hemit
        obtain ⟨first, others, hfirst, hothers, rfl⟩ := hemit
        cases hfirst
        exact .inr ⟨by simp, count, others, hothers, by simp⟩
  · rintro (rfl | ⟨hle, count, others, hothers, hlength⟩)
    · exact ⟨0, [], rfl, rfl⟩
    · refine ⟨count + 1, encoded ++ others, ?_, ?_⟩
      · rw [List.take_succ_cons, List.map_cons, emit, hencode, hothers]
        rfl
      · rw [List.length_append]
        omega

/-- A frame that is cut inside is refused: its header is short, or fewer bytes
follow it than it counts. -/
theorem nextFrame_truncated {record : Record} {encoded : Bytes} {sawFar : Bool}
    (hwf : record.WellFormed) (hencode : record.encode = some encoded)
    (hfar : sawFar = true ∨ ∃ far, record = .far far) {cut : Nat} (hpos : 0 < cut)
    (hcut : cut < encoded.length) :
    ∃ error, nextFrame .little sawFar (encoded.take cut) = .error error := by
  obtain ⟨body, hbody, rfl⟩ := encode_eq_some.mp hencode
  obtain ⟨length0, length1, hheader, hvalue⟩ :=
    recordHeader_eq record.typeSubtype.1 record.typeSubtype.2 body.length
  rw [Nat.mod_eq_of_lt (Nat.lt_succ_of_le (hwf.body body hbody))] at hvalue
  rw [hheader] at hcut ⊢
  match cut, hpos with
  | 1, _ | 2, _ | 3, _ => exact ⟨_, rfl⟩
  | cut + 4, _ =>
      have hseen := not_refused (named_of_fieldsWellFormed hwf.fields) hfar
      have hshort : (body.take cut).length < body.length := by
        simp only [List.length_append, List.length_cons, List.length_nil] at hcut
        rw [List.length_take]
        omega
      have hframe := @nextFrame_accepted .little sawFar length0 length1 _ _ (body.take cut) hseen
      rw [hvalue, if_pos hshort] at hframe
      exact ⟨_, hframe⟩

/-- The frames of well-formed records, cut at any byte, drain to the records before
the cut. -/
theorem drain_take_emit {sawFar : Bool} {records : List Record}
    (hwf : ∀ record ∈ records, record.WellFormed)
    (hfar : sawFar = true ∨ ∀ record ∈ records.head?, ∃ far, record = .far far) {bytes : Bytes}
    (hemit : emit (records.map Record.encode) = some bytes) {cut : Nat}
    (hcut : cut ≤ bytes.length) :
    (drain { inner := .whole (bytes.take cut), endian := .little, sawFar }).1 =
        wholeRecords cut records ∧
      ((drain { inner := .whole (bytes.take cut), endian := .little, sawFar }).2 = .ok () ↔
        RecordBoundary cut records) := by
  -- by induction on the records: the cut falls before, inside or behind the first
  induction records generalizing sawFar bytes cut with
  | nil =>
      cases hemit
      obtain rfl : cut = 0 := Nat.le_zero.mp hcut
      rw [List.take_nil, drain_whole_none rfl]
      simp [wholeRecords, recordBoundary_nil]
  | cons record records ih =>
      rw [List.map_cons, emit, Field.append_eq_some] at hemit
      obtain ⟨encoded, others, hencode, hothers, rfl⟩ := hemit
      have hrecord := hwf record List.mem_cons_self
      have hfirst := hfar.imp_right (· record rfl)
      have hpos := length_encode_pos hencode
      rw [recordBoundary_cons hencode, wholeRecords, hencode]
      dsimp only
      by_cases hwhole : encoded.length ≤ cut
      · -- the first record lies before the cut
        have hnext := nextFrame_encode hrecord hencode hfirst
          (others.take (cut - encoded.length))
        rw [List.length_append] at hcut
        obtain ⟨hrecords, hending⟩ := @ih true
          (fun other hother => hwf other (.tail _ hother)) (.inl rfl) others hothers
          (cut - encoded.length) (by omega)
        rw [List.take_append, List.take_of_length_le hwhole, drain_whole_some hnext, hrecords,
          hending, if_pos hwhole]
        refine ⟨rfl, ?_⟩
        constructor
        · exact fun hboundary => .inr ⟨hwhole, hboundary⟩
        · rintro (rfl | ⟨-, hboundary⟩)
          · omega
          · exact hboundary
      · rw [if_neg hwhole, List.take_append_of_le_length (by omega)]
        rcases Nat.eq_zero_or_pos cut with rfl | hinside
        · rw [List.take_zero, drain_whole_none rfl]
          simp
        · -- the cut falls inside the first record
          obtain ⟨error, hnext⟩ :=
            nextFrame_truncated hrecord hencode hfirst hinside (by omega)
          rw [drain_whole_error hnext]
          refine ⟨rfl, ?_⟩
          simp only [reduceCtorEq, false_iff]
          omega

/-- A file of well-formed records that is cut at any byte reads as the records
before the cut, and the reading ends well exactly if the cut is a record boundary. -/
theorem drain_truncated (records : List Record)
    (hwf : ∀ record ∈ records, record.WellFormed) :
    ∃ bytes, file records = some bytes ∧ ∀ cut ≤ bytes.length,
      (StdfReader.new (.whole (bytes.take cut))).drain.1 = wholeRecords cut (withFar records) ∧
      ((StdfReader.new (.whole (bytes.take cut))).drain.2 = .ok () ↔
        RecordBoundary cut (withFar records)) := by
  have hfile := withFar_wellFormed hwf
  obtain ⟨bytes, hbytes⟩ := exists_emit hfile
  refine ⟨bytes, (file_eq records).trans hbytes, fun cut hcut => ?_⟩
  exact drain_take_emit hfile (.inr (head_withFar records)) hbytes hcut

/-- A verdict and a section marker, behind the FAR that the writer adds. -/
theorem drain_truncated_verdict : ∃ bytes,
    file [.ptr (.verdict 1 1 1 true), .eps] = some bytes ∧ ∀ cut ≤ bytes.length,
      (StdfReader.new (.whole (bytes.take cut))).drain.1 =
        wholeRecords cut
          [.far { cpuType := 3, stdfVer := 4 }, .ptr (.verdict 1 1 1 true), .eps] ∧
      ((StdfReader.new (.whole (bytes.take cut))).drain.2 = .ok () ↔
        RecordBoundary cut
          [.far { cpuType := 3, stdfVer := 4 }, .ptr (.verdict 1 1 1 true), .eps]) := by
  refine drain_truncated _
    (List.forall_mem_cons.mpr ⟨⟨?_, ?_⟩, List.forall_mem_singleton.mpr ⟨?_, ?_⟩⟩)
  · exact Ptr.verdict_wellFormed 1 1 1 true
  · rintro body ⟨⟩
    decide +kernel
  · trivial
  · rintro body ⟨⟩
    decide

end Stdf
