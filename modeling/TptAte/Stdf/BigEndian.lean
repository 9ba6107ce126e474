import TptAte.Wire.Overlap
import TptAte.Stdf.RoundTrip

/-! # Big-endian files

A FAR with the CPU type of a 68000 declares a big-endian file. The reader applies
the declared order to the fields of a body, but it reads every REC_LEN in
little-endian order. Behind the FAR it is then out of step with the file, and
what it reads is never the records that the file holds: it would have to read
some record from bytes inside that record's own frame.
-/

namespace Stdf

open Wire Body StdfReader StdfWriter

/-! ## The big-endian file of some records -/

/-- A record as a big-endian file holds it: there a FAR declares the byte order. -/
def Record.inBigEndian : Record → Record
  | .far r => .far { r with cpuType := CpuType.m68000 }
  | record => record

/-- A record's frame with REC_LEN and every number of its body in big-endian order. -/
def bigEndianFrame (record : Record) : Option Bytes := do
  let body ← (recordBody record.typeSubtype.1 record.typeSubtype.2).write .big record
  return Word.u16.bytes .big (UInt16.ofNat body.length) ++
    [record.typeSubtype.1, record.typeSubtype.2] ++ body

def bigEndianFile (records : List Record) : Option Bytes :=
  emit (records.map fun record => bigEndianFrame record.inBigEndian)

/-- Reading two files gives the same records up to the CPU type of a FAR. -/
def ReadsAlike (big little : Bytes) : Prop :=
  List.map Record.inBigEndian <$> (StdfReader.new (.whole big)).readAll.1 =
    List.map Record.inBigEndian <$> (StdfReader.new (.whole little)).readAll.1

@[simp] theorem typeSubtype_inBigEndian (record : Record) :
    record.inBigEndian.typeSubtype = record.typeSubtype := by
  cases record <;> rfl

/-- Only FARs are told apart by their CPU type. -/
theorem eq_of_inBigEndian {record record' : Record} (hfar : ∀ far, record ≠ .far far)
    (hsame : record'.inBigEndian = record.inBigEndian) : record' = record := by
  cases record with
  | far far => exact absurd rfl (hfar far)
  | _ => cases record' <;> first | exact hsame | simp [Record.inBigEndian] at hsame

theorem inBigEndian_eq {record : Record} (hfar : ∀ far, record ≠ .far far) :
    record.inBigEndian = record := by
  cases record with
  | far far => exact absurd rfl (hfar far)
  | _ => rfl

/-- A big-endian frame is a big-endian length, the type and the big-endian body. -/
theorem bigEndianFrame_eq_some {record : Record} {frame : Bytes} :
    bigEndianFrame record = some frame ↔
      ∃ body, (recordBody record.typeSubtype.1 record.typeSubtype.2).write .big record =
          some body ∧
        frame = Word.u16.bytes .big (UInt16.ofNat body.length) ++
          [record.typeSubtype.1, record.typeSubtype.2] ++ body := by
  simp only [bigEndianFrame, Option.bind_eq_bind, Option.bind_eq_some_iff, Option.pure_def,
    Option.some.injEq]
  exact exists_congr fun body => and_congr_right fun _ => eq_comm

/-- The big-endian body of a FAR. -/
theorem write_far (far : Far) :
    (recordBody 0 10).write .big (.far far) = some [far.cpuType, far.stdfVer] := by
  change farBody.write .big far = _
  simp [farBody, write_imap, Field.write_andThen, write_done]

theorem valid_inBigEndian {record : Record} (hfields : record.FieldsWellFormed) :
    (recordBody record.typeSubtype.1 record.typeSubtype.2).Valid record.inBigEndian := by
  cases record with
  | far far => exact ⟨_, rfl, valid_imap_of_get rfl rfl (by simp [Field.valid_andThen])⟩
  | _ => exact valid_of_fieldsWellFormed hfields

/-- A well-formed record has a big-endian body that REC_LEN can count. -/
theorem exists_bigEndianBody {record : Record} (hwf : record.WellFormed) :
    ∃ body, (recordBody record.typeSubtype.1 record.typeSubtype.2).write .big
        record.inBigEndian = some body ∧ body.length ≤ 65535 := by
  by_cases hfar : ∃ far, record = .far far
  · obtain ⟨far, rfl⟩ := hfar
    exact ⟨_, write_far _, by simp⟩
  · have hvalid := valid_inBigEndian hwf.fields
    have hnamed := named_of_fieldsWellFormed hwf.fields
    rw [inBigEndian_eq fun far h => hfar ⟨far, h⟩] at hvalid ⊢
    obtain ⟨body, hwrite, -⟩ := (recordBody _ _).read_write .big hvalid
    obtain ⟨little, hlittle, -⟩ := (recordBody _ _).read_write .little hvalid
    have hsize := (recordBody record.typeSubtype.1 record.typeSubtype.2).write_size .big .little
      record
    rw [hwrite, hlittle] at hsize
    simp only [Option.map_some, Option.some.injEq] at hsize
    refine ⟨body, hwrite, ?_⟩
    rw [hsize]
    exact hwf.body little ((encodeBody_eq hnamed).trans hlittle)

/-- So it has a big-endian frame. -/
theorem exists_bigEndianFrame {record : Record} (hwf : record.WellFormed) :
    ∃ length0 length1 written,
      (recordBody record.typeSubtype.1 record.typeSubtype.2).write .big record.inBigEndian =
          some written ∧ written.length ≤ 65535 ∧
        bigEndianFrame record.inBigEndian =
          some ([length0, length1, record.typeSubtype.1, record.typeSubtype.2] ++ written) := by
  obtain ⟨written, hwrite, hfits⟩ := exists_bigEndianBody hwf
  obtain ⟨length0, length1, hcount⟩ := List.length_eq_two.mp
    (Word.length_bytes Word.u16 .big (UInt16.ofNat written.length))
  refine ⟨length0, length1, written, hwrite, hfits, ?_⟩
  rw [bigEndianFrame_eq_some, typeSubtype_inBigEndian]
  exact ⟨written, hwrite, by rw [hcount]; rfl⟩

theorem bigEndianFile_cons_eq_some {record : Record} {records : List Record} {bytes : Bytes} :
    bigEndianFile (record :: records) = some bytes ↔
      ∃ frame after, bigEndianFrame record.inBigEndian = some frame ∧
        bigEndianFile records = some after ∧ bytes = frame ++ after :=
  Field.append_eq_some

/-- Well-formed records have a big-endian file. -/
theorem exists_bigEndianFile {records : List Record} (hwf : ∀ record ∈ records, record.WellFormed) :
    ∃ bytes, bigEndianFile records = some bytes := by
  induction records with
  | nil => exact ⟨[], rfl⟩
  | cons record records ih =>
      obtain ⟨_, _, _, _, _, hframe⟩ := exists_bigEndianFrame (hwf record List.mem_cons_self)
      obtain ⟨bytes, hbytes⟩ := ih fun other hother => hwf other (List.mem_cons_of_mem _ hother)
      exact ⟨_, bigEndianFile_cons_eq_some.mpr ⟨_, bytes, hframe, hbytes, rfl⟩⟩

/-! ## The marks of record bodies -/

theorem u1_keepsMarks : u1.KeepsMarks := Field.word_keepsMarks _ _

theorem u2_keepsMarks : u2.KeepsMarks := Field.word_keepsMarks _ _

theorem u4_keepsMarks : u4.KeepsMarks := Field.word_keepsMarks _ _

theorem i1_keepsMarks : i1.KeepsMarks := Field.word_keepsMarks _ _

theorem i2_keepsMarks : i2.KeepsMarks := Field.word_keepsMarks _ _

theorem r4_keepsMarks : r4.KeepsMarks := Field.word_keepsMarks _ _

theorem cn_keepsMarks : cn.KeepsMarks := Field.text_keepsMarks _

theorem kBytes_keepsMarks : kBytes.KeepsMarks := Field.blob_keepsMarks _ _ _

theorem sn_keepsMarks : sn.KeepsMarks := Field.listOf_keepsMarks cn_keepsMarks _ _

theorem emptyText_keepsMarks {β : Type} {G : String → Body StdfError β} {order order' : Endian}
    {Last : Bytes → Bytes → Prop} (hG : ∀ text, (G text).KeepsMarksUpTo order order' Last) :
    (cn.defaulting "" cn_empty G).KeepsMarksUpTo order order' Last := by
  apply defaulting_keepsMarks cn_keepsMarks _ hG
  intro bytes hbytes
  simp only [cn, Payload.field, Payload.write_eq_some] at hbytes
  obtain ⟨-, rfl⟩ := hbytes
  cases order' <;> simp [Payload.text, Word.bytes, Word.u8, Endian.bytes, leBytes, marks, isMark]

/-- A text with a two-byte count, written in big-endian order. -/
theorem nn_repaired {order : Endian} {data rest bytes : Bytes} {text : String}
    (hread : (nn.read order).run data = .ok (text, rest))
    (hwrite : nn.write .big text = some bytes) :
    ∃ count raw, data = count ++ raw ++ rest ∧ count.length = 2 ∧
      raw.length = order.value count ∧ bytes = repaired raw := by
  obtain ⟨count, raw, hdata, hcount, hraw, rfl⟩ := Payload.read_eq_ok.mp hread
  simp only [nn, Payload.field, Payload.write_eq_some] at hwrite
  exact ⟨count, raw, hdata, hcount, hraw, hwrite.2⟩

/-- An optional text is read and written, or it is left out of both. -/
theorem nn_optional_cases {β : Type} {present : Bool} {G : Option String → Body StdfError β}
    {order : Endian} {data rest bytes : Bytes} {value : Option String × β}
    (hread : ((nn.optional present true G).read order).run data = .ok (value, rest))
    (hwrite : (nn.optional present true G).write .big value = some bytes) :
    (∃ count raw middle after, data = count ++ raw ++ middle ∧ count.length = 2 ∧
        raw.length = order.value count ∧ bytes = repaired raw ++ after ∧
        ((G value.1).read order).run middle = .ok (value.2, rest) ∧
        (G value.1).write .big value.2 = some after) ∨
      (((G value.1).read order).run data = .ok (value.2, rest) ∧
        (G value.1).write .big value.2 = some bytes) := by
  obtain ⟨head, tail⟩ := value
  rcases Field.optional_eq_ok.mp hread with ⟨hpresent, text, middle, rfl, htext, htail⟩ |
    ⟨_, rfl, htail⟩
  · simp only [Field.optional, hpresent.1, Bool.not_true, Bool.and_false] at hwrite
    obtain ⟨first, after, hfirst, hafter, rfl⟩ := Field.append_eq_some.mp hwrite
    obtain ⟨count, raw, rfl, hcount, hraw, rfl⟩ := nn_repaired htext hfirst
    exact Or.inl ⟨count, raw, middle, after, rfl, hcount, hraw, rfl, htail, hafter⟩
  · exact Or.inr ⟨htail, hwrite⟩

/-- The two texts at the end of an FTR. -/
theorem ftrTexts_keepsMarks (order : Endian) (program label : Bool) :
    (nn.optional program true fun _ =>
      nn.optional label true fun _ => done).KeepsMarksUpTo order .big (Texts order) := by
  intro data value rest bytes hread hwrite
  refine ⟨[], data, [], bytes, rfl, rfl, le_rfl, ?_⟩
  rcases nn_optional_cases hread hwrite with
    ⟨count, raw, middle, after, rfl, hcount, hraw, rfl, hlabel, hafter⟩ | ⟨hlabel, hafter⟩
  · rcases nn_optional_cases hlabel hafter with
      ⟨count', raw', left, last, rfl, hcount', hraw', rfl, -, ⟨⟩⟩ | ⟨-, ⟨⟩⟩
    · rw [List.append_nil]
      exact .two left hcount hraw hcount' hraw'
    · rw [List.append_nil]
      exact .one middle hcount hraw
  · rcases nn_optional_cases hlabel hafter with
      ⟨count', raw', left, last, rfl, hcount', hraw', rfl, -, ⟨⟩⟩ | ⟨-, ⟨⟩⟩
    · rw [List.append_nil]
      exact .one left hcount' hraw'
    · exact .none data

/-- Reading the last block of an FTR in one order and writing it in the other keeps the marks up to
its texts. -/
theorem ftrBlock_keepsMarks (order : Endian) (alarmId : Option String) :
    (ftrBlock alarmId).KeepsMarksUpTo order .big (Texts order) := by
  cases alarmId with
  | none =>
      rw [ftrBlock]
      apply imap_keepsMarks
      rintro data value rest bytes ⟨⟩ ⟨⟩
      exact ⟨[], data, [], [], rfl, rfl, le_rfl, .none data⟩
  | some alarmId =>
      rw [ftrBlock]
      apply imap_keepsMarks
      apply defaulting_keepsMarks u1_keepsMarks
      · rintro bytes ⟨⟩
        decide
      · exact fun optFlg2 => ftrTexts_keepsMarks order _ _

/-- An FTR keeps its marks up to its last two texts. -/
theorem ftrBody_keepsMarks (order : Endian) :
    ftrBody.KeepsMarksUpTo order .big (Texts order) := by
  refine imap_keepsMarks ?_
  with_reducible
    repeat' first
    | refine andThen_keepsMarks ?_ fun _ => ?_
    | exact optional_keepsMarks cn_keepsMarks (ftrBlock_keepsMarks order)
    | exact u1_keepsMarks
    | exact u2_keepsMarks
    | exact u4_keepsMarks
    | exact i2_keepsMarks
    | exact sn_keepsMarks

/-- All records but the FTR keep the marks of their bytes, whatever the byte orders. -/
theorem recordBody_keepsMarks {typ sub : UInt8} (hftr : ¬ (typ = 15 ∧ sub = 20))
    (order order' : Endian) : (recordBody typ sub).KeepsMarksUpTo order order' Silent := by
  unfold recordBody
  split
  case h_13 => exact absurd ⟨rfl, rfl⟩ hftr
  case h_17 | h_18 => exact imap_keepsMarks done_keepsMarks
  case h_19 => exact imap_keepsMarks raw_keepsMarks
  all_goals
    refine imap_keepsMarks (imap_keepsMarks ?_)
    with_reducible
      repeat' first
      | refine andThen_keepsMarks ?_ fun _ => ?_
      | refine optional_keepsMarks ?_ fun _ => ?_
      | refine emptyText_keepsMarks fun _ => ?_
      | exact done_keepsMarks
      | exact u1_keepsMarks
      | exact u2_keepsMarks
      | exact u4_keepsMarks
      | exact i1_keepsMarks
      | exact i2_keepsMarks
      | exact r4_keepsMarks
      | exact cn_keepsMarks
      | exact kBytes_keepsMarks
      | exact Field.pair_keepsMarks u1_keepsMarks u1_keepsMarks

/-! ## No record is read from inside its own frame -/

/-- A header inside a frame, but not at its start, leaves the record's type in the
frame's body, right in front of the inner body. -/
theorem type_inside {length0 length1 length0' length1' typ sub : UInt8} {front written rest : Bytes}
    (htype : typ ≠ sub) (hfront : front ≠ [])
    (heq : [length0, length1, typ, sub] ++ written =
      front ++ ([length0', length1', typ, sub] ++ rest)) :
    ∃ gap, written = gap ++ ([typ, sub] ++ rest) := by
  match front, hfront, heq with
  | [_], _, heq =>
      simp only [List.cons_append, List.nil_append, List.cons.injEq] at heq
      exact absurd heq.2.2.2.1.symm htype
  | [_, _], _, heq =>
      simp only [List.cons_append, List.nil_append, List.cons.injEq] at heq
      exact ⟨[], heq.2.2.2.2⟩
  | [_, _, third], _, heq =>
      simp only [List.cons_append, List.nil_append, List.cons.injEq] at heq
      exact ⟨[length1'], heq.2.2.2.2⟩
  | _ :: _ :: _ :: _ :: front, _, heq =>
      simp only [List.cons_append, List.nil_append, List.cons.injEq] at heq
      refine ⟨front ++ [length0', length1'], ?_⟩
      rw [heq.2.2.2.2]
      simp

/-- A body that keeps its marks does not hold its record's type and its own bytes. -/
theorem written_ne_of_marks {typ sub : UInt8} {order : Endian} {record : Record}
    {data rest written : Bytes} (hftr : ¬ (typ = 15 ∧ sub = 20)) (htype : 0 < marks [typ, sub])
    (hread : ((recordBody typ sub).read order).run data = .ok (record, rest))
    (hwrite : (recordBody typ sub).write .big record = some written) (gap after : Bytes) :
    written ≠ gap ++ ([typ, sub] ++ (data ++ after)) := by
  intro heq
  have hmarks := marks_le (recordBody_keepsMarks hftr order .big) hread hwrite
  rw [heq, marks_append, marks_append, marks_append] at hmarks
  omega

/-- Nor does the body of an FTR, whose type has two marks. -/
theorem written_ne_of_ftr {order : Endian} {record : Record} {data rest written : Bytes}
    (hread : ((recordBody 15 20).read order).run data = .ok (record, rest))
    (hwrite : (recordBody 15 20).write .big record = some written)
    (hfits : written.length ≤ 65535) (gap after : Bytes) :
    written ≠ gap ++ ([15, 20] ++ (data ++ after)) := by
  intro heq
  have hftr : (recordBody 15 20).KeepsMarksUpTo order .big (Texts order) := by
    rw [recordBody]
    exact imap_keepsMarks (ftrBody_keepsMarks order)
  obtain ⟨used, left, kept, last, rfl, rfl, hmarks, hlast⟩ := hftr hread hwrite
  have htype : marks [15, 20] = 2 := by decide
  have hsplit : kept ++ last = (gap ++ ([15, 20] ++ used)) ++ (left ++ after) := by
    rw [heq]
    simp only [List.append_assoc]
  rcases List.append_eq_append_iff.mp hsplit with ⟨front, hfront, htexts⟩ | ⟨cut, hcut, -⟩
  · -- what precedes the old texts reaches past the part that keeps its marks
    have hcount := congrArg marks hfront
    rw [List.length_append] at hfits
    have hone := marks_before_texts hlast (by omega) htexts
    simp only [marks_append, htype] at hcount
    omega
  · have hcount := congrArg marks hcut
    simp only [marks_append, htype] at hcount
    omega

/-- A record that is not read from fewer bytes than are written for it has no room. -/
theorem front_eq_nil_of_length {length0 length1 length0' length1' typ sub : UInt8}
    {front written data after : Bytes} (hle : written.length ≤ data.length)
    (heq : [length0, length1, typ, sub] ++ written =
      front ++ ([length0', length1', typ, sub] ++ (data ++ after))) : front = [] := by
  have hlength := congrArg List.length heq
  simp only [List.length_append, List.length_cons, List.length_nil] at hlength
  apply List.eq_nil_of_length_eq_zero
  omega

/-- A FAR is read from two bytes at least. -/
theorem two_le_length_far {order : Endian} {data rest : Bytes} {record : Record}
    (hread : ((recordBody 0 10).read order).run data = .ok (record, rest)) : 2 ≤ data.length := by
  change (Record.far <$> farBody.read order).run data = _ at hread
  obtain ⟨far, hfar, -⟩ := Reader.map_eq_ok.mp hread
  obtain ⟨parts, hparts, -⟩ := Reader.map_eq_ok.mp hfar
  obtain ⟨middle, hcpuType, htail⟩ := Reader.seq_eq_ok.mp hparts
  obtain ⟨left, hstdfVer, -⟩ := Reader.seq_eq_ok.mp htail
  obtain ⟨raw, rfl, hraw, -⟩ := Word.read_eq_ok.mp hcpuType
  obtain ⟨raw', rfl, hraw', -⟩ := Word.read_eq_ok.mp hstdfVer
  simp only [Word.u8] at hraw hraw'
  simp only [List.length_append]
  omega

/-- A record without a layout is read from just the bytes that are written for it. -/
theorem data_eq_of_unknown {typ sub : UInt8} {order : Endian} {body data rest written : Bytes}
    (htype : (typ, sub) ∉ modelledTypes)
    (hread : ((recordBody typ sub).read order).run data = .ok (.unknown typ sub body, rest))
    (hwrite : (recordBody typ sub).write .big (.unknown typ sub body) = some written) :
    written = data := by
  rw [recordBody_unmodelled htype] at hread hwrite
  obtain ⟨body', ⟨⟩, ⟨⟩⟩ := Reader.map_eq_ok.mp hread
  simpa [unknownBody, write_imap, raw, eq_comm] using hwrite

/-- A record is not read from bytes inside its own big-endian frame. -/
theorem front_eq_nil {record record' : Record} {order : Endian} {front written data after : Bytes}
    {length0 length1 length0' length1' : UInt8} (hnamed : record.Named)
    (hsame : record'.inBigEndian = record.inBigEndian)
    (hwrite : (recordBody record.typeSubtype.1 record.typeSubtype.2).write .big
      record.inBigEndian = some written) (hfits : written.length ≤ 65535)
    (hparse : Record.parse record.typeSubtype.1 record.typeSubtype.2 data order = .ok record')
    (heq : [length0, length1, record.typeSubtype.1, record.typeSubtype.2] ++ written =
      front ++ ([length0', length1', record.typeSubtype.1, record.typeSubtype.2] ++
        (data ++ after))) : front = [] := by
  obtain ⟨rest, hread⟩ := Record.parse_eq_ok.mp hparse
  rw [fields_eq] at hread
  by_cases hfar : ∃ far, record = .far far
  · obtain ⟨far, rfl⟩ := hfar
    have hlength := two_le_length_far hread
    rw [Record.inBigEndian, Record.typeSubtype, write_far] at hwrite
    cases hwrite
    exact front_eq_nil_of_length (by simpa using hlength) heq
  have hnotFar : ∀ far, record ≠ .far far := fun far h => hfar ⟨far, h⟩
  rw [eq_of_inBigEndian hnotFar hsame] at hread
  rw [inBigEndian_eq hnotFar] at hwrite
  -- short bodies leave no room in front; in the others the type bytes or the marks would not match
  cases record with
  | far far => exact absurd rfl (hnotFar far)
  | bps | eps =>
      cases hwrite
      exact front_eq_nil_of_length (Nat.zero_le _) heq
  | unknown typ sub body =>
      have hdata := data_eq_of_unknown hnamed hread hwrite
      exact front_eq_nil_of_length (hdata ▸ le_rfl) heq
  | ftr r =>
      by_contra hfront
      obtain ⟨gap, hgap⟩ := type_inside (show (15 : UInt8) ≠ 20 by decide) hfront heq
      exact written_ne_of_ftr hread hwrite hfits gap after hgap
  | _ r =>
      by_contra hfront
      simp only [Record.typeSubtype] at heq hread hwrite
      obtain ⟨gap, hgap⟩ := type_inside (by decide) hfront heq
      exact written_ne_of_marks (by decide) (by decide) hread hwrite gap after hgap

/-- A body is parsed into a record of its type. -/
theorem type_of_parse {typ sub : UInt8} {data : Bytes} {order : Endian} {record : Record}
    (hparse : Record.parse typ sub data order = .ok record) : record.typeSubtype = (typ, sub) := by
  obtain ⟨rest, hread⟩ := Record.parse_eq_ok.mp hparse
  rw [fields_eq] at hread
  exact (type_of_read hread).1

/-! ## A reader that is out of step stays out of step -/

/-- A reader that is past the start of a record's frame and reads that record is
past the start of the next frame afterwards. -/
theorem exists_gap {record record' : Record} {order : Endian}
    {frame after front body rest : Bytes} (hwf : record.WellFormed)
    (hframe : bigEndianFrame record.inBigEndian = some frame) (hfront : front ≠ [])
    (hsame : record'.inBigEndian = record.inBigEndian)
    (hparse : Record.parse record.typeSubtype.1 record.typeSubtype.2 body order = .ok record')
    (hsplit : frame ++ after = front ++ (recordHeader record.typeSubtype.1 record.typeSubtype.2
      body.length ++ body ++ rest)) : ∃ gap, gap ≠ [] ∧ after = gap ++ rest := by
  obtain ⟨length0, length1, hheader, -⟩ :=
    recordHeader_eq record.typeSubtype.1 record.typeSubtype.2 body.length
  obtain ⟨length0', length1', written, hwrite, hfits, hframe'⟩ := exists_bigEndianFrame hwf
  rw [hframe'] at hframe
  cases hframe
  rw [hheader, ← List.append_assoc front] at hsplit
  have hnamed := named_of_fieldsWellFormed hwf.fields
  have houtside (cut : Bytes) : [length0', length1', record.typeSubtype.1,
      record.typeSubtype.2] ++ written ≠ (front ++ ([length0, length1, record.typeSubtype.1,
        record.typeSubtype.2] ++ body)) ++ cut := by
    intro hcut
    rw [List.append_assoc, List.append_assoc] at hcut
    exact hfront (front_eq_nil hnamed hsame hwrite hfits hparse hcut)
  -- the reader's frame ends behind the record's frame, or it lies inside it
  rcases List.append_eq_append_iff.mp hsplit with ⟨gap, hgap, hafter⟩ | ⟨cut, hcut, -⟩
  · refine ⟨gap, ?_, hafter⟩
    rintro rfl
    apply houtside []
    rw [hgap, List.append_nil, List.append_nil]
  · exact absurd hcut (houtside cut)

/-- The records of a big-endian file are not read from past its start. -/
theorem map_ne_of_inside {records : List Record} (hwf : ∀ record ∈ records, record.WellFormed)
    {order : Endian} {front data : Bytes} {result : List Record} (hfront : front ≠ [])
    (hfile : bigEndianFile records = some (front ++ data))
    (hdecode : decodeAll order true data = .ok result) :
    result.map Record.inBigEndian ≠ records.map Record.inBigEndian := by
  induction records generalizing order front data result with
  | nil =>
      cases front with
      | nil => exact absurd rfl hfront
      | cons => cases hfile
  | cons record records ih =>
      intro hsame
      cases result with
      | nil => simp at hsame
      | cons record' result =>
          simp only [List.map_cons, List.cons.injEq] at hsame
          obtain ⟨hrecord, hrecords⟩ := hsame
          obtain ⟨order', rest, hnext, hrest⟩ := decodeAll_eq_cons hdecode
          obtain ⟨typ, sub, body, rfl, -, -, -, hparse⟩ := nextFrame_eq_ok hnext
          have htype := type_of_parse hparse
          rw [← typeSubtype_inBigEndian, hrecord, typeSubtype_inBigEndian] at htype
          obtain ⟨rfl, rfl⟩ : record.typeSubtype.1 = typ ∧ record.typeSubtype.2 = sub := by
            rw [htype]
            exact ⟨rfl, rfl⟩
          obtain ⟨frame, after, hframe, hafter, hsplit⟩ := bigEndianFile_cons_eq_some.mp hfile
          obtain ⟨gap, hgap, rfl⟩ := exists_gap (hwf record List.mem_cons_self) hframe hfront
            hrecord hparse hsplit.symm
          exact ih (fun other hother => hwf other (List.mem_cons_of_mem _ hother)) hgap hafter
            hrest hrecords

/-- The frame of a FAR in a big-endian file. -/
theorem bigEndianFrame_far (far : Far) :
    bigEndianFrame (Record.far far).inBigEndian =
      some [0, 2, 0, 10, CpuType.m68000, far.stdfVer] := by
  rw [bigEndianFrame_eq_some]
  have hcount : Word.u16.bytes .big (UInt16.ofNat 2) = [0, 2] := by decide
  refine ⟨[CpuType.m68000, far.stdfVer], write_far _, ?_⟩
  change _ = Word.u16.bytes .big (UInt16.ofNat 2) ++ [0, 10] ++ _
  rw [hcount]
  rfl

/-- A big-endian file is never read as the records it holds. -/
theorem map_ne_of_bigEndianFile {far : Far} {records : List Record}
    (hwf : ∀ record ∈ records, record.WellFormed) {bytes : Bytes}
    (hfile : bigEndianFile (.far far :: records) = some bytes) {result : List Record}
    (hdecode : decodeAll .little false bytes = .ok result) :
    result.map Record.inBigEndian ≠ (Record.far far :: records).map Record.inBigEndian := by
  intro hsame
  obtain ⟨frame, after, hframe, hafter, rfl⟩ := bigEndianFile_cons_eq_some.mp hfile
  rw [bigEndianFrame_far] at hframe
  cases hframe
  cases result with
  | nil => simp at hsame
  | cons record' result =>
      simp only [List.map_cons, List.cons.injEq] at hsame
      obtain ⟨order', rest, hnext, hrest⟩ := decodeAll_eq_cons hdecode
      obtain ⟨typ, sub, body, hdata, hbody, -, -, -⟩ := nextFrame_eq_ok hnext
      obtain ⟨length0, length1, hheader, hvalue⟩ := recordHeader_eq typ sub body.length
      -- the two length bytes of the FAR are read the other way round
      rw [hheader] at hdata
      simp only [List.cons_append, List.nil_append, List.cons.injEq] at hdata
      obtain ⟨rfl, rfl, -, -, hdata⟩ := hdata
      rw [Nat.mod_eq_of_lt (by omega)] at hvalue
      have hlength : body.length = 512 := hvalue.symm
      obtain ⟨cpuType, stdfVer, body, rfl⟩ : ∃ cpuType stdfVer body',
          body = cpuType :: stdfVer :: body' := by
        match body, hlength with
        | cpuType :: stdfVer :: body', _ => exact ⟨cpuType, stdfVer, body', rfl⟩
      simp only [List.cons_append, List.cons.injEq] at hdata
      obtain ⟨-, -, rfl⟩ := hdata
      refine map_ne_of_inside hwf ?_ hafter hrest hsame.2
      rintro rfl
      simp at hlength

/-- A big-endian file is never read like the little-endian file of its records. -/
theorem not_readsAlike (far : Far) (records : List Record)
    (hwf : ∀ record ∈ Record.far far :: records, record.WellFormed) :
    ∃ big little, bigEndianFile (.far far :: records) = some big ∧
      file (.far far :: records) = some little ∧
      (StdfReader.new (.whole little)).readAll.1 = .ok (.far far :: records) ∧
      ¬ ReadsAlike big little := by
  obtain ⟨big, hbig⟩ := exists_bigEndianFile hwf
  obtain ⟨little, hlittle, hread⟩ := readAll_file (.far far :: records) hwf
  refine ⟨big, little, hbig, hlittle, hread, ?_⟩
  intro halike
  have hdecode : (StdfReader.new (.whole big)).readAll.1 = decodeAll .little false big :=
    readAll_whole .little false big
  rw [ReadsAlike, hread, hdecode] at halike
  cases hresult : decodeAll .little false big with
  | error error =>
      rw [hresult] at halike
      cases halike
  | ok result =>
      rw [hresult] at halike
      have hrecords : ∀ record ∈ records, record.WellFormed := fun record hrecord =>
        hwf record (List.mem_cons_of_mem _ hrecord)
      exact map_ne_of_bigEndianFile hrecords hbig hresult (Except.ok.inj halike)

/-- The FAR that the writer puts in front of a file. -/
def x86Far : Far := { cpuType := CpuType.x86, stdfVer := stdfVersionV4 }

theorem x86Far_eps_wellFormed : ∀ record ∈ [Record.far x86Far, .eps], record.WellFormed := by
  refine List.forall_mem_cons.mpr ⟨defaultFar_wellFormed, List.forall_mem_singleton.mpr ⟨?_, ?_⟩⟩
  · trivial
  · rintro body ⟨⟩
    decide

theorem not_readsAlike_x86Far_eps : ∃ big little,
    bigEndianFile [.far x86Far, .eps] = some big ∧ file [.far x86Far, .eps] = some little ∧
      (StdfReader.new (.whole little)).readAll.1 = .ok [.far x86Far, .eps] ∧
      ¬ ReadsAlike big little :=
  not_readsAlike x86Far [.eps] x86Far_eps_wellFormed

/-- The FAR of a big-endian file seems to announce 512 bytes. -/
theorem readAll_bigEndian_eps :
    (StdfReader.new (.whole [0, 2, 0, 10, 1, 4, 0, 0, 20, 20])).readAll.1 =
      .error (.unexpectedEof 512 6) := by
  rw [StdfReader.new, readAll_whole, decodeAll_eq]
  rfl

/-- Big-endian files do not read like little-endian ones. -/
theorem not_forall_readsAlike : ¬ ∀ (far : Far) (records : List Record),
    (∀ record ∈ Record.far far :: records, record.WellFormed) →
      ∀ big little, bigEndianFile (.far far :: records) = some big →
        file (.far far :: records) = some little → ReadsAlike big little := by
  intro hall
  obtain ⟨little, hlittle, hread⟩ := readAll_file _ x86Far_eps_wellFormed
  have hbig : bigEndianFile [.far x86Far, .eps] = some [0, 2, 0, 10, 1, 4, 0, 0, 20, 20] := by
    decide +kernel
  have halike := hall x86Far [.eps] x86Far_eps_wellFormed _ little hbig hlittle
  rw [ReadsAlike, hread, readAll_bigEndian_eps] at halike
  cases halike

end Stdf
