import TptAte.Stdf.Writer
import TptAte.Stdf.Frames

/-! # Reading and writing back a file

A file that is read and written back keeps its bytes only if every record body
does. The condition is on the bytes of the file, frame by frame.
-/

namespace Stdf

open Wire Body StdfReader StdfWriter

/-- Every frame of a byte string holds a body that its layout writes back as it
is, in the byte order declared at that point: no byte is left over, no trailing
field is missing that the writer puts, no text is repaired and no number changes
with the byte order. -/
inductive FileExact : Endian → Bool → Bytes → Prop where
  | nil (endian : Endian) (sawFar : Bool) : FileExact endian sawFar []
  | frame {endian : Endian} {sawFar : Bool} {typ sub : UInt8} {body rest : Bytes}
      (hbody : body.length ≤ 65535)
      (hexact : (recordBody typ sub).Exact (endianAfter endian typ sub body) body)
      (hrest : FileExact (endianAfter endian typ sub body) true rest) :
      FileExact endian sawFar (recordHeader typ sub body.length ++ body ++ rest)

/-- A byte string begins with a frame in one way only. -/
theorem frame_injective {typ sub typ' sub' : UInt8} {body body' rest rest' : Bytes}
    (hbody : body.length ≤ 65535) (hbody' : body'.length ≤ 65535)
    (heq : recordHeader typ sub body.length ++ body ++ rest =
      recordHeader typ' sub' body'.length ++ body' ++ rest') :
    typ = typ' ∧ sub = sub' ∧ body = body' ∧ rest = rest' := by
  obtain ⟨length0, length1, hheader, hvalue⟩ := recordHeader_eq typ sub body.length
  obtain ⟨length0', length1', hheader', hvalue'⟩ := recordHeader_eq typ' sub' body'.length
  rw [hheader, hheader'] at heq
  simp only [List.cons_append, List.nil_append, List.cons.injEq] at heq
  obtain ⟨rfl, rfl, rfl, rfl, hrest⟩ := heq
  have hlength : body.length = body'.length := by omega
  obtain ⟨rfl, rfl⟩ := List.append_inj hrest hlength
  exact ⟨rfl, rfl, rfl, rfl⟩

/-- One frame: writing its record in front of a rest gives the bytes back exactly
if the body is exact and the rest is the same. -/
theorem encode_append_iff {typ sub : UInt8} {endian : Endian} {body rest rest' : Bytes}
    {record : Record} (hbody : body.length ≤ 65535)
    (hparse : Record.parse typ sub body endian = .ok record) :
    (∃ encoded, record.encode = some encoded ∧
      encoded ++ rest' = recordHeader typ sub body.length ++ body ++ rest) ↔
      (recordBody typ sub).Exact endian body ∧ rest' = rest := by
  obtain ⟨left, hread⟩ := Record.parse_eq_ok.mp hparse
  rw [fields_eq] at hread
  obtain ⟨htype, hnamed⟩ := type_of_read hread
  have hencode := encodeBody_eq hnamed
  rw [htype] at hencode
  rw [(recordBody typ sub).exact_iff hread, ← hencode]
  constructor
  · intro h
    obtain ⟨encoded, hencoded, heq⟩ := h
    obtain ⟨body', hbody', rfl⟩ := encode_eq_some.mp hencoded
    rw [htype] at heq
    obtain ⟨length0, length1, hheader, hvalue⟩ := recordHeader_eq typ sub body.length
    obtain ⟨length0', length1', hheader', hvalue'⟩ := recordHeader_eq typ sub body'.length
    rw [hheader, hheader'] at heq
    simp only [List.cons_append, List.nil_append, List.cons.injEq] at heq
    obtain ⟨rfl, rfl, -, -, hbytes⟩ := heq
    have hmod : body'.length % 65536 = body.length := by omega
    -- REC_LEN wraps, but what is written grows by too little to wrap around
    have hlength : body'.length = body.length := by
      by_contra hne
      have hlonger : body.length ≤ body'.length := by omega
      obtain ⟨more, rfl⟩ : ∃ more, body' = body ++ more := by
        obtain ⟨more, hmore⟩ := List.prefix_of_prefix_length_le ⟨rest, hbytes.symm⟩ ⟨rest', rfl⟩
          hlonger
        exact ⟨more, hmore.symm⟩
      have hgrow := recordBody_growsBy typ sub hread (hencode ▸ hbody')
      rw [List.length_append] at hmod hne
      omega
    obtain ⟨rfl, rfl⟩ := List.append_inj hbytes hlength
    exact ⟨hbody', rfl⟩
  · intro h
    obtain ⟨hwrite, rfl⟩ := h
    refine ⟨_, encode_eq_some.mpr ⟨body, hwrite, rfl⟩, ?_⟩
    rw [htype]

/-- Writing back the records of a byte string gives it again exactly if its
frames are exact. -/
theorem emit_iff_fileExact {endian : Endian} {sawFar : Bool} {data : Bytes} {records : List Record}
    (hdecode : decodeAll endian sawFar data = .ok records) :
    emit (records.map Record.encode) = some data ↔ FileExact endian sawFar data := by
  induction records generalizing endian sawFar data with
  | nil =>
      obtain rfl := eq_nil_of_decodeAll hdecode
      exact iff_of_true rfl (.nil endian sawFar)
  | cons record records ih =>
      obtain ⟨endian', rest, hnext, hrest⟩ := decodeAll_eq_cons hdecode
      obtain ⟨typ, sub, body, rfl, hbody, -, rfl, hparse⟩ := nextFrame_eq_ok hnext
      rw [List.map_cons, emit, Field.append_eq_some]
      constructor
      · intro h
        obtain ⟨encoded, rest', hencoded, hemit, heq⟩ := h
        obtain ⟨hexact, rfl⟩ :=
          (encode_append_iff hbody hparse).mp ⟨encoded, hencoded, heq.symm⟩
        exact .frame hbody hexact ((ih hrest).mp hemit)
      · intro hfile
        -- the frames of `FileExact` are found again by their headers
        generalize hdata : recordHeader typ sub body.length ++ body ++ rest = data at hfile
        cases hfile with
        | nil => simp [recordHeader] at hdata
        | frame hbody' hexact hrest' =>
            obtain ⟨rfl, rfl, rfl, rfl⟩ := frame_injective hbody hbody' hdata
            obtain ⟨encoded, hencoded, heq⟩ :=
              (encode_append_iff hbody hparse).mpr ⟨hexact, rfl⟩
            exact ⟨encoded, rest, hencoded, (ih hrest).mpr hrest', heq.symm ▸ hdata.symm⟩

/-- A file that is accepted begins with a FAR. -/
theorem withFar_of_decodeAll {endian : Endian} {data : Bytes} {records : List Record}
    (hdecode : decodeAll endian false data = .ok records) : withFar records = records := by
  cases records with
  | nil => rfl
  | cons record records =>
      obtain ⟨endian', rest, hnext, -⟩ := decodeAll_eq_cons hdecode
      obtain ⟨typ, sub, body, -, -, hfar, -, hparse⟩ := nextFrame_eq_ok hnext
      obtain ⟨left, hread⟩ := Record.parse_eq_ok.mp hparse
      rw [fields_eq] at hread
      obtain ⟨htype, hnamed⟩ := type_of_read hread
      have hisFar := isFar_iff hnamed
      rw [htype] at hisFar
      obtain ⟨far, rfl⟩ := hisFar.mp (by simpa [Refused] using hfar)
      rfl

/-- Reading a file and writing its records back reproduces it exactly if every
frame of it is exact. -/
theorem file_iff_fileExact {data : Bytes} {records : List Record}
    (haccept : (StdfReader.new (.whole data)).readAll.1 = .ok records) :
    file records = some data ↔ FileExact .little false data := by
  have hdecode : decodeAll .little false data = .ok records :=
    (readAll_whole .little false data).symm.trans haccept
  rw [file_eq, withFar_of_decodeAll hdecode]
  exact emit_iff_fileExact hdecode

/-- A FAR and a program section marker whose body has one byte too many. -/
def markedFile : Bytes := [2, 0, 0, 10, 3, 4, 1, 0, 20, 15, 0xAA]

theorem file_iff_fileExact_markedFile :
    file [.far { cpuType := 3, stdfVer := 4 }, .bps] = some markedFile ↔
      FileExact .little false markedFile :=
  file_iff_fileExact (show (StdfReader.new (.whole markedFile)).readAll.1 =
    .ok [.far { cpuType := 3, stdfVer := 4 }, .bps] by decide +kernel)

/-- Not every accepted file is reproduced: the byte left over behind the known
fields of a record is gone. -/
theorem not_file_markedFile :
    ¬ ∀ (stdfVer : UInt8) (data rest : Bytes) (records : List Record),
      data = [2, 0, 0, 10, CpuType.x86, stdfVer] ++ rest →
        (StdfReader.new (.whole data)).readAll.1 = .ok records → file records = some data := by
  intro hall
  have hfile := hall 4 markedFile [1, 0, 20, 15, 0xAA] [.far { cpuType := 3, stdfVer := 4 }, .bps]
    rfl (by decide +kernel)
  exact absurd hfile (by decide +kernel)

end Stdf
