import TptAte.Stdf.Writer
import TptAte.Stdf.Frames

/-! # STDF file round trip

Well-formed records are written and read back unchanged. A record is well formed
when its texts fit their counts and its optional fields are present exactly as
its flag bits announce.
-/

namespace Stdf

open Wire Body StdfReader StdfWriter

/-! ## Well-formed records -/

def FitsCn (text : String) : Prop := (asBytes text).length ≤ 255

def FitsNn (text : String) : Prop := (asBytes text).length ≤ 65535

def FitsSn (texts : List String) : Prop := texts.length ≤ 65535 ∧ ∀ text ∈ texts, FitsCn text

def Mir.texts (r : Mir) : List String :=
  [r.lotId, r.partTyp, r.nodeNam, r.tstrTyp, r.jobNam, r.jobRev, r.sblotId, r.operNam, r.execTyp,
    r.execVer, r.testCod, r.tstTemp, r.userTxt, r.auxFile, r.pkgTyp, r.familyId, r.dateCod,
    r.facilId, r.floorId, r.procId, r.operFrq, r.specNam, r.specVer, r.flowId, r.setupId,
    r.dsgnRev, r.engId, r.romCod, r.serlNum, r.suprNam]

def Wrr.texts (r : Wrr) : List String :=
  [r.waferId, r.fabwfId, r.frameId, r.maskId, r.usrDesc, r.excDesc]

/-- One of the five optional fields of a PTR is present exactly when OPT_FLAG is
there and its bit is clear. -/
def Announced (optFlg : Option UInt8) (bit : UInt8) (isSome : Bool) : Prop :=
  isSome = true ↔ ∃ flags, optFlg = some flags ∧ flags &&& bit = 0

structure Ptr.WellFormed (r : Ptr) : Prop where
  testTxt : FitsCn r.testTxt
  alarmId : FitsCn r.alarmId
  units : FitsCn r.units
  optFlg : r.optFlg.isSome = true ↔ r.parmFlg &&& ParmFlg.optFlagPresent ≠ 0
  resScal : Announced r.optFlg OptFlg.noResScal r.resScal.isSome
  llmScal : Announced r.optFlg OptFlg.noLlmScal r.llmScal.isSome
  hlmScal : Announced r.optFlg OptFlg.noHlmScal r.hlmScal.isSome
  loLimit : Announced r.optFlg OptFlg.noLoLimit r.loLimit.isSome
  hiLimit : Announced r.optFlg OptFlg.noHiLimit r.hiLimit.isSome

structure Ftr.WellFormed (r : Ftr) : Prop where
  rtnNam : FitsSn r.rtnNam
  pgmNam : FitsSn r.pgmNam
  alarmText : ∀ text ∈ r.alarmId, FitsCn text
  programText : ∀ text ∈ r.program, FitsNn text
  testLabelText : ∀ text ∈ r.testLabel, FitsNn text
  alarmId : r.alarmId.isSome = true ↔ r.optFlg &&& 0x01 ≠ 0
  optFlg2 : r.optFlg2.isSome = true ↔ r.optFlg &&& 0x01 ≠ 0
  program : r.program.isSome = true →
    r.alarmId.isSome = true ∧ ∀ flags ∈ r.optFlg2, flags &&& 0x02 = 0
  testLabel : r.testLabel.isSome = true →
    r.alarmId.isSome = true ∧ ∀ flags ∈ r.optFlg2, flags &&& 0x04 = 0
  /-- A label is told from a program only by the program before it. -/
  programFirst : r.testLabel.isSome = true → (∀ flags ∈ r.optFlg2, flags &&& 0x02 = 0) →
    r.program.isSome = true

/-- The PTR of a measurement is well-formed if its texts fit. -/
theorem Ptr.measured_wellFormed (testNum : UInt32) (headNum siteNum : UInt8) (result : F32)
    {name units : String} (hname : FitsCn name) (hunits : FitsCn units) (lo hi : F32) :
    (Ptr.measured testNum headNum siteNum result name units lo hi).WellFormed := by
  constructor <;> simp_all [Ptr.measured, Announced, FitsCn, ParmFlg.optFlagPresent]

theorem Ptr.verdict_wellFormed (testNum : UInt32) (headNum siteNum : UInt8) (passed : Bool) :
    (Ptr.verdict testNum headNum siteNum passed).WellFormed := by
  constructor <;> simp [Ptr.verdict, Ptr.measured, Announced, FitsCn, ParmFlg.optFlagPresent]

/-- The FTR of a pattern is well-formed if its name fits. -/
theorem Ftr.pattern_wellFormed (testNum : UInt32) (headNum siteNum : UInt8) (passed : Bool)
    {patternName : String} (hname : FitsCn patternName) :
    (Ftr.pattern testNum headNum siteNum passed patternName).WellFormed := by
  constructor <;> simp_all [Ftr.pattern, FitsSn, FitsCn]

/-- The fields of a record are within their bounds and agree with its flags. -/
def Record.FieldsWellFormed : Record → Prop
  | .far r => r.cpuType ≠ CpuType.m68000
  | .atr r => FitsCn r.cmdLine
  | .mir r => ∀ text ∈ r.texts, FitsCn text
  | .mrr r => FitsCn r.usrDesc ∧ FitsCn r.excDesc
  | .pcr _ => True
  | .hbr r => FitsCn r.hbinNam
  | .sbr r => FitsCn r.sbinNam
  | .pmr r => FitsCn r.chanNam ∧ FitsCn r.phyNam ∧ FitsCn r.logNam ∧
      r.headNum.isSome = r.siteNum.isSome
  | .wir r => FitsCn r.waferId
  | .wrr r => ∀ text ∈ r.texts, FitsCn text
  | .wcr _ => True
  | .ptr r => r.WellFormed
  | .ftr r => r.WellFormed
  | .tsr r => FitsCn r.testNam ∧ FitsCn r.seqName ∧ FitsCn r.testLbl
  | .gdr r => r.genData.length ≤ 65535
  | .dtr r => FitsCn r.textDat
  | .bps => True
  | .eps => True
  | .unknown typ sub _ => (typ, sub) ∉ modelledTypes

/-- A well-formed record, whose body REC_LEN can count. -/
structure Record.WellFormed (record : Record) : Prop where
  fields : record.FieldsWellFormed
  body : ∀ body, record.encodeBody = some body → body.length ≤ 65535

theorem named_of_fieldsWellFormed {record : Record} (hfields : record.FieldsWellFormed) :
    record.Named := by
  cases record <;> first | exact trivial | exact hfields

theorem ptr_valid {r : Ptr} (hwf : r.WellFormed) : ptrBody.Valid r := by
  have hflag {optFlg : Option UInt8} {bit : UInt8} {isSome : Bool}
      (hannounced : Announced optFlg bit isSome) :
      isSome = (optFlg.isSome && optFlg.getD 0 &&& bit == 0) := by
    cases optFlg <;> cases isSome <;> simp_all [Announced]
  have hopt : r.optFlg.isSome = (r.parmFlg &&& ParmFlg.optFlagPresent != 0) := by
    rw [Bool.eq_iff_iff, hwf.optFlg]
    simp
  refine valid_imap_of_get rfl rfl ?_
  refine ⟨trivial, trivial, trivial, trivial, trivial, trivial, (cn_valid _).mpr hwf.testTxt,
    (cn_valid _).mpr hwf.alarmId, ?_⟩
  refine Field.valid_optional_of_isSome hopt (by simp) ?_
  refine Field.valid_optional_of_isSome (hflag hwf.resScal) (by simp) ?_
  refine Field.valid_optional_of_isSome (hflag hwf.llmScal) (by simp) ?_
  refine Field.valid_optional_of_isSome (hflag hwf.hlmScal) (by simp) ?_
  refine Field.valid_optional_of_isSome (hflag hwf.loLimit) (by simp) ?_
  refine Field.valid_optional_of_isSome (hflag hwf.hiLimit) (by simp) ?_
  exact ⟨(cn_valid _).mpr hwf.units, trivial⟩

/-- The block behind an alarm id: a missing program leaves nothing behind it
that could be read in its place. -/
theorem ftrBlock_valid {alarmId : String} {flags : UInt8} {program testLabel : Option String}
    (hprogramText : ∀ text ∈ program, FitsNn text)
    (hlabelText : ∀ text ∈ testLabel, FitsNn text)
    (hprogram : program.isSome = true → flags &&& 0x02 = 0)
    (hlabel : testLabel.isSome = true → flags &&& 0x04 = 0)
    (hfirst : testLabel.isSome = true → flags &&& 0x02 = 0 → program.isSome = true) :
    (ftrBlock (some alarmId)).Valid (some flags, program, testLabel) := by
  have htail : (nn.optional (flags &&& 0x04 == 0) true fun _ => done).Valid (testLabel, ()) := by
    cases testLabel with
    | none => exact ⟨fun _ => rfl, trivial⟩
    | some label =>
        refine Field.valid_optional_of_isSome ?_
          (fun text htext => (nn_valid text).mpr (hlabelText text htext)) trivial
        simp [hlabel rfl]
  refine ⟨(flags, program, testLabel, ()), rfl, trivial, ?_⟩
  cases program with
  | none =>
      -- an announced program that is missing must have nothing behind it
      refine ⟨fun hclear => ?_, htail⟩
      cases testLabel with
      | none => rfl
      | some label => exact absurd (hfirst rfl (by simpa using hclear)) (by simp)
  | some program =>
      refine Field.valid_optional_of_isSome ?_
        (fun text htext => (nn_valid text).mpr (hprogramText text htext)) htail
      simp [hprogram rfl]

theorem ftr_valid {r : Ftr} (hwf : r.WellFormed) : ftrBody.Valid r := by
  obtain ⟨_, _, _, _, optFlg, _, _, _, _, _, _, _, _, _, _, _, _, _, alarmId, optFlg2, program,
    testLabel⟩ := r
  obtain ⟨hrtn, hpgm, halarmText, hprogramText, hlabelText, halarm, hflags, hprogram, hlabel,
    hfirst⟩ := hwf
  dsimp only at *
  have hpresent : alarmId.isSome = (optFlg &&& 0x01 != 0) := by
    rw [Bool.eq_iff_iff, halarm]
    simp
  refine valid_imap_of_get rfl rfl ?_
  refine ⟨trivial, trivial, trivial, trivial, trivial, trivial, trivial, trivial, trivial, trivial,
    trivial, trivial, trivial, trivial, trivial, trivial, (sn_valid _).mpr hrtn,
    (sn_valid _).mpr hpgm, ?_⟩
  refine Field.valid_optional_of_isSome hpresent
    (fun text htext => (cn_valid text).mpr (halarmText text htext)) ?_
  cases alarmId with
  | none =>
      obtain rfl : optFlg2 = none := by simp_all
      obtain rfl : program = none := by cases program <;> simp_all
      obtain rfl : testLabel = none := by cases testLabel <;> simp_all
      exact ⟨(), rfl, trivial⟩
  | some alarmId =>
      obtain ⟨flags, rfl⟩ : ∃ flags, optFlg2 = some flags := by
        rw [← Option.isSome_iff_exists, hflags, ← halarm]
        rfl
      exact ftrBlock_valid hprogramText hlabelText (fun hsome => (hprogram hsome).2 flags rfl)
        (fun hsome => (hlabel hsome).2 flags rfl)
        fun hsome hclear => hfirst hsome fun flags' hflags' => by
          cases hflags'
          exact hclear

/-- A well-formed record satisfies its layout. -/
theorem valid_of_fieldsWellFormed {record : Record} (hfields : record.FieldsWellFormed) :
    (recordBody record.typeSubtype.1 record.typeSubtype.2).Valid record := by
  cases record with
  | ptr r => exact ⟨r, rfl, ptr_valid hfields⟩
  | ftr r => exact ⟨r, rfl, ftr_valid hfields⟩
  | pmr r =>
      obtain ⟨_, _, _, _, _, head, site⟩ := r
      obtain ⟨hchan, hphy, hlog, hplace⟩ := hfields
      have htexts := And.intro ((cn_valid _).mpr hchan)
        (And.intro ((cn_valid _).mpr hphy) ((cn_valid _).mpr hlog))
      refine ⟨_, rfl, ?_⟩
      cases head <;> cases site <;> simp at hplace
      · exact valid_imap_of_get rfl rfl ⟨trivial, trivial, htexts.1, htexts.2.1, htexts.2.2,
          fun _ => rfl, trivial⟩
      · exact valid_imap_of_get rfl rfl ⟨trivial, trivial, htexts.1, htexts.2.1, htexts.2.2,
          rfl, ⟨trivial, trivial⟩, trivial⟩
  | far r | pcr r | wcr r =>
      exact ⟨r, rfl, valid_imap_of_get rfl rfl (by simp [Field.valid_andThen])⟩
  | bps => exact ⟨(), rfl, trivial⟩
  | eps => exact ⟨(), rfl, trivial⟩
  | unknown typ sub data =>
      rw [Record.typeSubtype, recordBody_unmodelled hfields]
      exact ⟨data, rfl, trivial⟩
  | _ r =>
    refine ⟨r, rfl, valid_imap_of_get rfl rfl ?_⟩
    simpa [Record.FieldsWellFormed, FitsCn, Mir.texts, Wrr.texts, Field.valid_andThen,
      Field.valid_defaulting] using hfields

/-! ## The round trip -/

/-- A well-formed record leaves the byte order of the file little-endian. -/
theorem endianAfter_little {record : Record} {body : Bytes} (hfields : record.FieldsWellFormed)
    (hbody : record.encodeBody = some body) :
    endianAfter .little record.typeSubtype.1 record.typeSubtype.2 body = .little := by
  unfold endianAfter
  split
  next hfar =>
    obtain ⟨far, rfl⟩ := (isFar_iff (named_of_fieldsWellFormed hfields)).mp hfar
    rw [← Option.some.inj ((encodeBody_far far).symm.trans hbody)]
    exact if_neg hfields
  next => rfl

/-- The frame of a well-formed record reads as that record. -/
theorem nextFrame_encode {record : Record} {encoded : Bytes} {sawFar : Bool}
    (hwf : record.WellFormed) (hencode : record.encode = some encoded)
    (hfar : sawFar = true ∨ ∃ far, record = .far far) (rest : Bytes) :
    nextFrame .little sawFar (encoded ++ rest) = .ok (some (record, .little, rest)) := by
  obtain ⟨body, hbody, rfl⟩ := encode_eq_some.mp hencode
  have hnamed := named_of_fieldsWellFormed hwf.fields
  have hendian := endianAfter_little hwf.fields hbody
  have hwrite : (recordBody record.typeSubtype.1 record.typeSubtype.2).write .little record =
      some body := (encodeBody_eq hnamed).symm.trans hbody
  have hparse : Record.parse record.typeSubtype.1 record.typeSubtype.2 body .little =
      .ok record := by
    rw [Record.parse_eq_ok, fields_eq]
    exact ⟨[], (recordBody _ _).read_eq (valid_of_fieldsWellFormed hwf.fields) hwrite⟩
  have hframe := nextFrame_header (not_refused hnamed hfar) (hwf.body body hbody)
    (hendian.symm ▸ hparse) rest
  rw [hframe, hendian]

/-- A well-formed record can be encoded. -/
theorem encode_of_wellFormed {record : Record} (hwf : record.WellFormed) :
    ∃ encoded, record.encode = some encoded := by
  obtain ⟨body, hwrite, -⟩ := (recordBody _ _).read_write .little
    (valid_of_fieldsWellFormed hwf.fields)
  rw [← encodeBody_eq (named_of_fieldsWellFormed hwf.fields)] at hwrite
  exact ⟨_, encode_eq_some.mpr ⟨body, hwrite, rfl⟩⟩

/-- Behind the frames of well-formed records others are decoded as if they came first. -/
theorem decodeAll_emit_append {sawFar : Bool} {records : List Record} (hne : records ≠ [])
    (hwf : ∀ record ∈ records, record.WellFormed)
    (hfar : sawFar = true ∨ ∀ record ∈ records.head?, ∃ far, record = .far far) {bytes : Bytes}
    (hemit : emit (records.map Record.encode) = some bytes) (rest : Bytes) :
    decodeAll .little sawFar (bytes ++ rest) =
      (records ++ ·) <$> decodeAll .little true rest := by
  induction records generalizing sawFar bytes with
  | nil => exact absurd rfl hne
  | cons record records ih =>
      simp only [List.map_cons, emit, Option.bind_eq_bind, Option.bind_eq_some_iff,
        Option.pure_def, Option.some.injEq] at hemit
      obtain ⟨encoded, hencode, others, hothers, rfl⟩ := hemit
      have hnext := nextFrame_encode (hwf record List.mem_cons_self) hencode
        (hfar.imp_right (· record rfl)) (others ++ rest)
      rw [List.append_assoc, decodeAll_cons hnext]
      cases records with
      | nil =>
          cases hothers
          rfl
      | cons next records =>
          rw [ih (List.cons_ne_nil _ _) (fun other hother => hwf other (.tail _ hother))
            (.inl rfl) hothers]
          cases decodeAll .little true rest <;> rfl

theorem exists_emit {records : List Record} (hwf : ∀ record ∈ records, record.WellFormed) :
    ∃ bytes, emit (records.map Record.encode) = some bytes := by
  induction records with
  | nil => exact ⟨[], rfl⟩
  | cons record records ih =>
      obtain ⟨bytes, hbytes⟩ := ih fun other hother => hwf other (List.mem_cons_of_mem _ hother)
      obtain ⟨encoded, hencode⟩ := encode_of_wellFormed (hwf record List.mem_cons_self)
      refine ⟨encoded ++ bytes, ?_⟩
      rw [List.map_cons, emit, hencode, hbytes]
      rfl

/-- The frames of well-formed records read as the records, if a FAR comes first. -/
theorem decodeAll_emit {sawFar : Bool} (records : List Record)
    (hwf : ∀ record ∈ records, record.WellFormed)
    (hfar : sawFar = true ∨ ∀ record ∈ records.head?, ∃ far, record = .far far) :
    ∃ bytes, emit (records.map Record.encode) = some bytes ∧
      decodeAll .little sawFar bytes = .ok records := by
  obtain ⟨bytes, hbytes⟩ := exists_emit hwf
  have hnone (sawFar : Bool) : decodeAll .little sawFar [] = .ok [] := by
    rw [decodeAll_eq]
    rfl
  refine ⟨bytes, hbytes, ?_⟩
  cases records with
  | nil =>
      cases hbytes
      exact hnone sawFar
  | cons record records =>
      have happend := decodeAll_emit_append (List.cons_ne_nil _ _) hwf hfar hbytes []
      rw [List.append_nil, hnone, Reader.ok_map, List.append_nil] at happend
      exact happend

/-- The FAR that the writer puts in front of a file is well formed. -/
theorem defaultFar_wellFormed :
    (Record.far { cpuType := CpuType.x86, stdfVer := stdfVersionV4 }).WellFormed where
  fields := show CpuType.x86 ≠ CpuType.m68000 by decide
  body := by
    rintro body ⟨⟩
    decide

/-- The FAR that the writer puts in front is well-formed. -/
theorem withFar_wellFormed {records : List Record} (hwf : ∀ record ∈ records, record.WellFormed) :
    ∀ record ∈ withFar records, record.WellFormed := by
  unfold withFar
  split
  · exact hwf
  · exact hwf
  · exact List.forall_mem_cons.mpr ⟨defaultFar_wellFormed, hwf⟩

/-- Behind the writer every file that is not empty starts with a FAR. -/
theorem head_withFar (records : List Record) :
    ∀ record ∈ (withFar records).head?, ∃ far, record = .far far := by
  unfold withFar
  split <;> simp

/-- Well-formed records that are written to a file are read back unchanged,
behind the FAR that every file begins with. -/
theorem readAll_file (records : List Record) (hwf : ∀ record ∈ records, record.WellFormed) :
    ∃ bytes, file records = some bytes ∧
      (StdfReader.new (.whole bytes)).readAll.1 = .ok (withFar records) := by
  obtain ⟨bytes, hbytes, hdecode⟩ :=
    decodeAll_emit (withFar records) (withFar_wellFormed hwf) (Or.inr (head_withFar records))
  refine ⟨bytes, (file_eq records).trans hbytes, ?_⟩
  rw [← hdecode]
  exact readAll_whole .little false bytes

/-- A measurement and a section marker, behind the FAR that the writer adds. -/
theorem readAll_file_measured : ∃ bytes,
    file [.ptr (.measured 10 1 3 ⟨0x40533333⟩ "VDD" "V" ⟨0x40400000⟩ ⟨0x40666666⟩), .eps] =
      some bytes ∧
    (StdfReader.new (.whole bytes)).readAll.1 =
      .ok [.far { cpuType := 3, stdfVer := 4 },
        .ptr (.measured 10 1 3 ⟨0x40533333⟩ "VDD" "V" ⟨0x40400000⟩ ⟨0x40666666⟩), .eps] := by
  refine readAll_file _
    (List.forall_mem_cons.mpr ⟨⟨?_, ?_⟩, List.forall_mem_singleton.mpr ⟨?_, ?_⟩⟩)
  · have hname : FitsCn "VDD" := show (asBytes "VDD").length ≤ 255 by decide +kernel
    have hunits : FitsCn "V" := show (asBytes "V").length ≤ 255 by decide +kernel
    exact Ptr.measured_wellFormed 10 1 3 _ hname hunits _ _
  · rintro body ⟨⟩
    decide +kernel
  · trivial
  · rintro body ⟨⟩
    decide

end Stdf
