import TptAte.Stdf.Frames
import TptAte.Stdf.Writer

/-! # The byte order that a file declares

The writer encodes every body little-endian and passes each FAR on as it is. The
reader follows what the FARs say, frame after frame, whether or not the records in
between can be parsed.
-/

namespace Stdf

open Wire Body StdfReader

/-! ## Frames -/

structure Frame where
  typ : UInt8
  sub : UInt8
  body : Bytes
  deriving DecidableEq, Repr

namespace Frame

def bytes (frame : Frame) : Bytes :=
  recordHeader frame.typ frame.sub frame.body.length ++ frame.body

/-- A FAR that declares the fields behind it to be big-endian. -/
def DeclaresBig (frame : Frame) : Prop :=
  isFar frame.typ frame.sub = true ∧ frame.body.head? = some CpuType.m68000

instance : DecidablePred DeclaresBig := fun _ => inferInstanceAs (Decidable (_ ∧ _))

/-- The order stays little-endian exactly behind a frame that does not declare another. -/
theorem endianAfter_eq_little_iff (frame : Frame) :
    endianAfter .little frame.typ frame.sub frame.body = .little ↔ ¬ frame.DeclaresBig := by
  unfold endianAfter DeclaresBig
  cases isFar frame.typ frame.sub with
  | false => simp
  | true => cases frame.body <;> simp

end Frame

def frames : Bytes → List Frame
  | length0 :: length1 :: typ :: sub :: data =>
      let length := Endian.little.value [length0, length1]
      if data.length < length then []
      else ⟨typ, sub, data.take length⟩ :: frames (data.drop length)
  | _ => []
termination_by data => data.length
decreasing_by
  simp only [List.length_drop, List.length_cons]
  omega

/-- A frame whose length fits is its header, which counts the body, and its body. -/
theorem Frame.exists_bytes_append {frame : Frame} (hbody : frame.body.length ≤ 65535)
    (rest : Bytes) :
    ∃ length0 length1,
      frame.bytes ++ rest =
        length0 :: length1 :: frame.typ :: frame.sub :: (frame.body ++ rest) ∧
      Endian.little.value [length0, length1] = frame.body.length := by
  obtain ⟨length0, length1, hheader, hvalue⟩ :=
    recordHeader_eq frame.typ frame.sub frame.body.length
  rw [Nat.mod_eq_of_lt (by omega)] at hvalue
  exact ⟨length0, length1, by rw [Frame.bytes, hheader]; rfl, hvalue⟩

/-- The frames of a file are its first frame and those behind it. -/
theorem frames_append {frame : Frame} (hbody : frame.body.length ≤ 65535) (rest : Bytes) :
    frames (frame.bytes ++ rest) = frame :: frames rest := by
  obtain ⟨length0, length1, hbytes, hvalue⟩ := Frame.exists_bytes_append hbody rest
  rw [hbytes, frames, hvalue, if_neg (by simp), List.take_left, List.drop_left]

/-! ## What the reader derives from them -/

/-- The reader after some calls, whatever they return. -/
def StdfReader.after : Nat → StdfReader → StdfReader
  | 0, reader => reader
  | reads + 1, reader => after reads reader.nextRecord.2

/-- A reader that has seen a FAR, over bytes that it gets in one piece. -/
def behindFar (endian : Endian) (data : Bytes) : StdfReader :=
  { inner := .whole data, endian, sawFar := true }

theorem nextRecord_header (endian : Endian) (sawFar : Bool) (length0 length1 typ sub : UInt8)
    (data : Bytes) :
    nextRecord { inner := .whole (length0 :: length1 :: typ :: sub :: data), endian, sawFar } =
      readRecord { inner := .whole data, endian, sawFar } length0 length1 typ sub := by
  rw [nextRecord, Source.read_whole]
  rfl

theorem nextRecord_cons {sawFar : Bool} {typ sub : UInt8} (hseen : ¬ Refused sawFar typ sub)
    (endian : Endian) (length0 length1 : UInt8) (data : Bytes) :
    (nextRecord { inner := .whole (length0 :: length1 :: typ :: sub :: data), endian, sawFar }).2 =
      if data.length < Endian.little.value [length0, length1] then
        { inner := .whole [], endian, sawFar }
      else
        { inner := .whole (data.drop (Endian.little.value [length0, length1])),
          endian := endianAfter endian typ sub
            (data.take (Endian.little.value [length0, length1])),
          sawFar := sawFar || isFar typ sub } := by
  have hread : readRecord { inner := .whole data, endian, sawFar } length0 length1 typ sub = _ :=
    if_neg hseen
  rw [nextRecord_header, hread, readBody_of_calm (Source.calm_whole _ data), Source.bytes_whole,
    Source.skip_whole]
  split_ifs <;> rfl

/-- A call takes one frame, or what is left of the bytes. -/
theorem nextRecord_behindFar (endian : Endian) (data : Bytes) :
    (frames data = [] ∧ (behindFar endian data).nextRecord.2 = behindFar endian []) ∨
      ∃ frame rest, frames data = frame :: frames rest ∧ rest.length < data.length ∧
        (behindFar endian data).nextRecord.2 =
          behindFar (endianAfter endian frame.typ frame.sub frame.body) rest := by
  match data with
  | [] => exact .inl ⟨by rw [frames]; simp, rfl⟩
  | [_] | [_, _] | [_, _, _] => exact .inl ⟨by rw [frames]; simp, rfl⟩
  | length0 :: length1 :: typ :: sub :: data =>
      have hseen : ¬ Refused true typ sub := by simp [Refused]
      rw [behindFar, nextRecord_cons hseen, frames]
      by_cases hshort : data.length < Endian.little.value [length0, length1]
      · rw [if_pos hshort, if_pos hshort]
        exact .inl ⟨rfl, rfl⟩
      · rw [if_neg hshort, if_neg hshort]
        refine .inr ⟨_, data.drop _, rfl, ?_, rfl⟩
        simp only [List.length_drop, List.length_cons]
        omega

/-- The byte order is little-endian throughout, exactly if it is at the start and no
FAR on the way declares another one. -/
theorem after_behindFar_iff (endian : Endian) (data : Bytes) :
    (∀ reads, (after reads (behindFar endian data)).endian = .little) ↔
      endian = .little ∧ ∀ frame ∈ frames data, ¬ frame.DeclaresBig := by
  have hsplit (reader : StdfReader) : (∀ reads, (after reads reader).endian = .little) ↔
      reader.endian = .little ∧ ∀ reads, (after reads reader.nextRecord.2).endian = .little :=
    Nat.and_forall_add_one.symm
  -- by induction on the frames: the next record leaves the reader in front of the others
  induction hframes : frames data generalizing endian data with
  | nil =>
      have hstill (reads : Nat) : after reads (behindFar endian []) = behindFar endian [] := by
        induction reads with
        | zero => rfl
        | succ reads ih => exact ih
      rcases nextRecord_behindFar endian data with ⟨-, hnext⟩ | ⟨frame, rest, hcons, -⟩
      · rw [hsplit, hnext]
        simp only [hstill, List.not_mem_nil, false_implies, implies_true, and_true]
        exact and_iff_left_of_imp fun hlittle _ => hlittle
      · rw [hcons] at hframes
        cases hframes
  | cons frame others ih =>
      rcases nextRecord_behindFar endian data with ⟨hnil, -⟩ | ⟨first, rest, hcons, -, hnext⟩
      · rw [hnil] at hframes
        cases hframes
      · rw [hcons] at hframes
        cases hframes
        have hbehind := ih (endianAfter endian frame.typ frame.sub frame.body) rest rfl
        rw [hsplit, hnext, List.forall_mem_cons, ← frame.endianAfter_eq_little_iff]
        refine (and_congr_right fun _ => hbehind).trans ?_
        constructor
        · rintro ⟨hstart, hrest⟩
          cases hstart
          exact ⟨rfl, hrest⟩
        · rintro ⟨rfl, hrest⟩
          exact ⟨rfl, hrest⟩

/-! ## Written files -/

/-- A record of the type of a FAR whose CPU_TYPE declares big-endian fields. -/
def Record.DeclaresBig : Record → Prop
  | .far r => r.cpuType = CpuType.m68000
  | .unknown typ sub data => isFar typ sub = true ∧ data.head? = some CpuType.m68000
  | _ => False

def Record.Counted (record : Record) : Prop :=
  ∀ body, record.encodeBody = some body → body.length ≤ 65535

/-- A frame declares big-endian exactly if its record does. -/
theorem declaresBig_iff {record : Record} {body : Bytes} (hbody : record.encodeBody = some body) :
    Frame.DeclaresBig ⟨record.typeSubtype.1, record.typeSubtype.2, body⟩ ↔ record.DeclaresBig := by
  cases record with
  | far far =>
      obtain rfl : [far.cpuType, far.stdfVer] = body :=
        Option.some.inj ((encodeBody_far far).symm.trans hbody)
      simp [Frame.DeclaresBig, Record.DeclaresBig, Record.typeSubtype, isFar]
  | unknown typ sub data =>
      have hdata : body = data := by
        simpa [Record.encodeBody] using hbody.symm
      rw [hdata]
      rfl
  | _ => simp [Frame.DeclaresBig, Record.DeclaresBig, Record.typeSubtype, isFar]

/-- The frames of encoded records are the records' own. -/
theorem frames_emit {records : List Record} {bytes : Bytes}
    (hemit : emit (records.map Record.encode) = some bytes)
    (hcounted : ∀ record ∈ records, record.Counted) :
    (∀ frame ∈ frames bytes, ¬ frame.DeclaresBig) ↔
      ∀ record ∈ records, ¬ record.DeclaresBig := by
  induction records generalizing bytes with
  | nil =>
      cases hemit
      simp [frames]
  | cons record records ih =>
      rw [List.map_cons, emit, Field.append_eq_some] at hemit
      obtain ⟨encoded, rest, hencoded, hrest, rfl⟩ := hemit
      obtain ⟨body, hbody, rfl⟩ := encode_eq_some.mp hencoded
      rw [List.forall_mem_cons] at hcounted
      have hframes := @frames_append ⟨record.typeSubtype.1, record.typeSubtype.2, body⟩
        (hcounted.1 body hbody) rest
      rw [Frame.bytes] at hframes
      rw [hframes, List.forall_mem_cons, List.forall_mem_cons, declaresBig_iff hbody,
        ih hrest hcounted.2]

theorem forall_withFar {P : Record → Prop} {records : List Record}
    (hfar : P (.far { cpuType := CpuType.x86, stdfVer := stdfVersionV4 })) :
    (∀ record ∈ StdfWriter.withFar records, P record) ↔ ∀ record ∈ records, P record := by
  unfold StdfWriter.withFar
  split <;> simp [hfar]

/-- A FAR is taken whatever the reader has seen before. -/
theorem nextRecord_far {frame : Frame} (hfar : isFar frame.typ frame.sub = true)
    (hbody : frame.body.length ≤ 65535) (endian : Endian) (sawFar : Bool) (rest : Bytes) :
    (nextRecord { inner := .whole (frame.bytes ++ rest), endian, sawFar }).2 =
      behindFar (endianAfter endian frame.typ frame.sub frame.body) rest := by
  obtain ⟨length0, length1, hbytes, hvalue⟩ := Frame.exists_bytes_append hbody rest
  have hseen : ¬ Refused sawFar frame.typ frame.sub := by
    simp [Refused, hfar]
  rw [hbytes, nextRecord_cons hseen, hvalue, if_neg (by simp), List.take_left, List.drop_left, hfar,
    Bool.or_true]
  rfl

/-- A file is empty or begins with a FAR. -/
theorem nextRecord_new {records : List Record} {bytes : Bytes}
    (hfile : StdfWriter.file records = some bytes) :
    bytes = [] ∨
      (StdfReader.new (.whole bytes)).nextRecord.2 = (behindFar .little bytes).nextRecord.2 := by
  rw [StdfWriter.file_eq] at hfile
  have hhead : StdfWriter.withFar records = [] ∨
      ∃ far others, StdfWriter.withFar records = .far far :: others := by
    unfold StdfWriter.withFar
    split <;> simp
  rcases hhead with hnil | ⟨far, others, hcons⟩
  · rw [hnil] at hfile
    cases hfile
    exact .inl rfl
  · rw [hcons, List.map_cons, emit, Field.append_eq_some] at hfile
    obtain ⟨encoded, rest, hencoded, -, rfl⟩ := hfile
    obtain ⟨body, hbody, rfl⟩ := encode_eq_some.mp hencoded
    have hlength : body.length ≤ 65535 := by
      rw [← Option.some.inj ((encodeBody_far far).symm.trans hbody)]
      simp
    have hfar := @nextRecord_far ⟨0, 10, body⟩ rfl hlength .little
    exact .inr ((hfar false rest).trans (hfar true rest).symm)

theorem after_new_iff {records : List Record} {bytes : Bytes}
    (hfile : StdfWriter.file records = some bytes) :
    (∀ reads, (after reads (.new (.whole bytes))).endian = .little) ↔
      ∀ frame ∈ frames bytes, ¬ frame.DeclaresBig := by
  rcases nextRecord_new hfile with rfl | hnext
  · have hstill (reads : Nat) : after reads (.new (.whole [])) = .new (.whole []) := by
      induction reads with
      | zero => rfl
      | succ reads ih => exact ih
    simp only [hstill]
    rw [frames]
    · simp [StdfReader.new]
    · simp
  · have hbehind := after_behindFar_iff .little bytes
    rw [← Nat.and_forall_add_one] at hbehind ⊢
    simp only [after, hnext, true_and] at hbehind ⊢
    exact hbehind

/-- While a written file is read back the byte order is the one it was written in,
exactly if no frame of it is a FAR that declares the other. Where REC_LEN counts each
body, these frames are the records. -/
theorem little_iff_not_declaresBig {records : List Record} {bytes : Bytes}
    (hfile : StdfWriter.file records = some bytes) :
    ((∀ reads, (after reads (.new (.whole bytes))).endian = .little) ↔
        ∀ frame ∈ frames bytes, ¬ frame.DeclaresBig) ∧
      ((∀ record ∈ records, record.Counted) →
        ((∀ reads, (after reads (.new (.whole bytes))).endian = .little) ↔
          ∀ record ∈ records, ¬ record.DeclaresBig)) := by
  have hreads := after_new_iff hfile
  rw [StdfWriter.file_eq] at hfile
  refine ⟨hreads, fun hcounted => hreads.trans ?_⟩
  have hfar : Record.Counted (.far { cpuType := CpuType.x86, stdfVer := stdfVersionV4 }) := by
    rintro body ⟨⟩
    decide
  rw [frames_emit hfile ((forall_withFar hfar).mpr hcounted)]
  exact forall_withFar (by decide : ¬ CpuType.x86 = CpuType.m68000)

/-- The records of a converted file: a big-endian FAR and a section marker. -/
def convertedFile : List Record := [.far { cpuType := 1, stdfVer := 4 }, .eps]

theorem file_convertedFile :
    StdfWriter.file convertedFile = some [2, 0, 0, 10, 1, 4, 0, 0, 20, 20] := by
  decide +kernel

theorem little_iff_not_declaresBig_convertedFile :
    ((∀ reads, (after reads (.new (.whole [2, 0, 0, 10, 1, 4, 0, 0, 20, 20]))).endian = .little) ↔
        ∀ frame ∈ frames [2, 0, 0, 10, 1, 4, 0, 0, 20, 20], ¬ frame.DeclaresBig) ∧
      ((∀ record ∈ convertedFile, record.Counted) →
        ((∀ reads,
            (after reads (.new (.whole [2, 0, 0, 10, 1, 4, 0, 0, 20, 20]))).endian = .little) ↔
          ∀ record ∈ convertedFile, ¬ record.DeclaresBig)) :=
  little_iff_not_declaresBig file_convertedFile

/-- Not every written file declares the byte order it is written in. -/
theorem not_little_convertedFile :
    ¬ ∀ (records : List Record) (bytes : Bytes), StdfWriter.file records = some bytes →
      ∀ reads, (after reads (.new (.whole bytes))).endian = .little := by
  intro hall
  have hone := hall convertedFile _ file_convertedFile 1
  have hread : (nextRecord (.new (.whole [2, 0, 0, 10, 1, 4, 0, 0, 20, 20]))).2.endian = .big :=
    congrArg StdfReader.endian
      (@nextRecord_far ⟨0, 10, [1, 4]⟩ rfl (by decide) .little false [0, 0, 20, 20])
  exact absurd (hread.symm.trans hone) (by decide)

end Stdf
