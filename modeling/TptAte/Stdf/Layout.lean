import TptAte.Stdf.Records

/-! # Layouts of record bodies

Each record body is a chain of fields, so that one description gives its reader,
its writer and the conditions under which the two agree. The theorems at the end
connect the descriptions with the parsers and encoders of the records.
-/

namespace Stdf

open Wire Body

theorem cn_empty : cn.Valid "" := by simp

/-- The (REC_TYP, REC_SUB) pairs that have a layout. -/
def modelledTypes : List (UInt8 × UInt8) :=
  [(0, 10), (0, 20), (1, 10), (1, 20), (1, 30), (1, 40), (1, 50), (5, 10), (2, 10), (2, 20),
    (2, 30), (15, 10), (15, 20), (5, 30), (20, 10), (20, 30), (20, 15), (20, 20)]

/-- An unknown record is one of a type that has no layout. -/
def Record.Named : Record → Prop
  | .unknown typ sub _ => (typ, sub) ∉ modelledTypes
  | _ => True

def farBody : Body StdfError Far :=
  (u1.before <| u1.before done).imap
    (fun (cpuType, stdfVer, _) => ⟨cpuType, stdfVer⟩)
    (fun r => some (r.cpuType, r.stdfVer, ())) fun _ => rfl

def atrBody : Body StdfError Atr :=
  (u4.before <| cn.before done).imap
    (fun (modTimn, cmdLine, _) => ⟨modTimn, cmdLine⟩)
    (fun r => some (r.modTimn, r.cmdLine, ())) fun _ => rfl

def mirBody : Body StdfError Mir :=
  (u4.before <| u4.before <| u1.before <| u1.before <| u1.before <| u1.before <| u2.before <|
    u1.before <| cn.before <| cn.before <| cn.before <| cn.before <| cn.before <| cn.before <|
    cn.before <| cn.before <| cn.before <| cn.before <| cn.before <| cn.before <| cn.before <|
    cn.before <| cn.before <| cn.before <| cn.before <| cn.before <| cn.before <| cn.before <|
    cn.before <| cn.before <| cn.before <| cn.before <| cn.before <| cn.before <| cn.before <|
    cn.before <| cn.before <| cn.before done).imap
    (fun (setupT, startT, statBin, modeCod, rtnCod, protCod, burnDay, cmtCnt, lotId, partTyp,
      nodeNam, tstrTyp, jobNam, jobRev, sblotId, operNam, execTyp, execVer, testCod, tstTemp,
      userTxt, auxFile, pkgTyp, familyId, dateCod, facilId, floorId, procId, operFrq, specNam,
      specVer, flowId, setupId, dsgnRev, engId, romCod, serlNum, suprNam, _) =>
      ⟨setupT, startT, statBin, modeCod, rtnCod, protCod, burnDay, cmtCnt, lotId, partTyp,
      nodeNam, tstrTyp, jobNam, jobRev, sblotId, operNam, execTyp, execVer, testCod, tstTemp,
      userTxt, auxFile, pkgTyp, familyId, dateCod, facilId, floorId, procId, operFrq, specNam,
      specVer, flowId, setupId, dsgnRev, engId, romCod, serlNum, suprNam⟩)
    (fun r => some (r.setupT, r.startT, r.statBin, r.modeCod, r.rtnCod, r.protCod, r.burnDay,
      r.cmtCnt, r.lotId, r.partTyp, r.nodeNam, r.tstrTyp, r.jobNam, r.jobRev, r.sblotId,
      r.operNam, r.execTyp, r.execVer, r.testCod, r.tstTemp, r.userTxt, r.auxFile, r.pkgTyp,
      r.familyId, r.dateCod, r.facilId, r.floorId, r.procId, r.operFrq, r.specNam, r.specVer,
      r.flowId, r.setupId, r.dsgnRev, r.engId, r.romCod, r.serlNum, r.suprNam, ())) fun _ => rfl

def mrrBody : Body StdfError Mrr :=
  (u4.before <| u1.before <| u1.before <| u1.before <| cn.before <| cn.before done).imap
    (fun (finishT, dispCod, usrCod, excCod, usrDesc, excDesc, _) =>
      ⟨finishT, dispCod, usrCod, excCod, usrDesc, excDesc⟩)
    (fun r => some (r.finishT, r.dispCod, r.usrCod, r.excCod, r.usrDesc, r.excDesc,
      ())) fun _ => rfl

def pcrBody : Body StdfError Pcr :=
  (u1.before <| u1.before <| u4.before <| u4.before <| u4.before <| u4.before <| u4.before
    done).imap
    (fun (headNum, siteNum, partCnt, rtstCnt, abrtCnt, goodCnt, funcCnt, _) =>
      ⟨headNum, siteNum, partCnt, rtstCnt, abrtCnt, goodCnt, funcCnt⟩)
    (fun r => some (r.headNum, r.siteNum, r.partCnt, r.rtstCnt, r.abrtCnt, r.goodCnt, r.funcCnt,
      ())) fun _ => rfl

def hbrBody : Body StdfError Hbr :=
  (u1.before <| u1.before <| u2.before <| u4.before <| u1.before <| cn.before done).imap
    (fun (headNum, siteNum, hbinNum, hbinCnt, hbinPf, hbinNam, _) =>
      ⟨headNum, siteNum, hbinNum, hbinCnt, hbinPf, hbinNam⟩)
    (fun r => some (r.headNum, r.siteNum, r.hbinNum, r.hbinCnt, r.hbinPf, r.hbinNam,
      ())) fun _ => rfl

def sbrBody : Body StdfError Sbr :=
  (u1.before <| u1.before <| u2.before <| u4.before <| u1.before <| cn.before done).imap
    (fun (headNum, siteNum, sbinNum, sbinCnt, sbinPf, sbinNam, _) =>
      ⟨headNum, siteNum, sbinNum, sbinCnt, sbinPf, sbinNam⟩)
    (fun r => some (r.headNum, r.siteNum, r.sbinNum, r.sbinCnt, r.sbinPf, r.sbinNam,
      ())) fun _ => rfl

def wirBody : Body StdfError Wir :=
  (u1.before <| u1.before <| u4.before <| cn.before done).imap
    (fun (headNum, siteGrp, startT, waferId, _) => ⟨headNum, siteGrp, startT, waferId⟩)
    (fun r => some (r.headNum, r.siteGrp, r.startT, r.waferId, ())) fun _ => rfl

def wrrBody : Body StdfError Wrr :=
  (u1.before <| u1.before <| u4.before <| u4.before <| u4.before <| u4.before <| u4.before <|
    u4.before <| cn.before <| cn.defaulting "" cn_empty fun _ =>
    cn.defaulting "" cn_empty fun _ => cn.defaulting "" cn_empty fun _ =>
    cn.defaulting "" cn_empty fun _ => cn.defaulting "" cn_empty fun _ => done).imap
    (fun (headNum, siteGrp, finishT, partCnt, rtstCnt, abrtCnt, goodCnt, funcCnt, waferId,
      fabwfId, frameId, maskId, usrDesc, excDesc, _) =>
      ⟨headNum, siteGrp, finishT, partCnt, rtstCnt, abrtCnt, goodCnt, funcCnt, waferId, fabwfId,
      frameId, maskId, usrDesc, excDesc⟩)
    (fun r => some (r.headNum, r.siteGrp, r.finishT, r.partCnt, r.rtstCnt, r.abrtCnt, r.goodCnt,
      r.funcCnt, r.waferId, r.fabwfId, r.frameId, r.maskId, r.usrDesc, r.excDesc,
      ())) fun _ => rfl

def wcrBody : Body StdfError Wcr :=
  (r4.before <| r4.before <| r4.before <| u1.before <| u1.before <| i2.before <| i2.before <|
    u1.before <| u1.before done).imap
    (fun (wafrSiz, dieHt, dieWid, wfUnits, wfFlat, centerX, centerY, posX, posY, _) =>
      ⟨wafrSiz, dieHt, dieWid, wfUnits, wfFlat, centerX, centerY, posX, posY⟩)
    (fun r => some (r.wafrSiz, r.dieHt, r.dieWid, r.wfUnits, r.wfFlat, r.centerX, r.centerY,
      r.posX, r.posY, ())) fun _ => rfl

def tsrBody : Body StdfError Tsr :=
  (u1.before <| u1.before <| u1.before <| u4.before <| u4.before <| u4.before <| u4.before <|
    cn.defaulting "" cn_empty fun _ => cn.defaulting "" cn_empty fun _ =>
    cn.defaulting "" cn_empty fun _ => done).imap
    (fun (headNum, siteNum, testTyp, testNum, execCnt, failCnt, alarmCnt, testNam, seqName,
      testLbl, _) =>
      ⟨headNum, siteNum, testTyp, testNum, execCnt, failCnt, alarmCnt, testNam, seqName, testLbl⟩)
    (fun r => some (r.headNum, r.siteNum, r.testTyp, r.testNum, r.execCnt, r.failCnt, r.alarmCnt,
      r.testNam, r.seqName, r.testLbl, ())) fun _ => rfl

def gdrBody : Body StdfError Gdr :=
  (kBytes.before done).imap
    (fun (genData, _) => ⟨genData⟩)
    (fun r => some (r.genData, ())) fun _ => rfl

def dtrBody : Body StdfError Dtr :=
  (cn.before done).imap
    (fun (textDat, _) => ⟨textDat⟩)
    (fun r => some (r.textDat, ())) fun _ => rfl

def pmrBody : Body StdfError Pmr :=
  (u2.before <| u2.before <| cn.before <| cn.before <| cn.before <|
    (u1.pair u1).optional true false fun _ => done).imap
    (fun (pinIdx, chanTyp, chanNam, phyNam, logNam, place, _) =>
      ⟨pinIdx, chanTyp, chanNam, phyNam, logNam, place.map Prod.fst, place.map Prod.snd⟩)
    (fun r => some (r.pinIdx, r.chanTyp, r.chanNam, r.phyNam, r.logNam,
      r.headNum.bind fun head => r.siteNum.map (head, ·), ()))
    fun (_, _, _, _, _, place, _) => by cases place <;> rfl

/-- A PTR announces its optional fields twice: PARM_FLG says whether OPT_FLAG is
there, and OPT_FLAG which of the five others are. -/
def ptrBody : Body StdfError Ptr :=
  (u4.before <| u1.before <| u1.before <| u1.before <| u1.andThen fun parmFlg =>
    r4.before <| cn.before <| cn.before <|
    u1.optional (parmFlg &&& ParmFlg.optFlagPresent != 0) false fun optFlg =>
    i1.optional (optFlg.isSome && optFlg.getD 0 &&& OptFlg.noResScal == 0) true fun _ =>
    i1.optional (optFlg.isSome && optFlg.getD 0 &&& OptFlg.noLlmScal == 0) true fun _ =>
    i1.optional (optFlg.isSome && optFlg.getD 0 &&& OptFlg.noHlmScal == 0) true fun _ =>
    r4.optional (optFlg.isSome && optFlg.getD 0 &&& OptFlg.noLoLimit == 0) true fun _ =>
    r4.optional (optFlg.isSome && optFlg.getD 0 &&& OptFlg.noHiLimit == 0) true fun _ =>
    cn.defaulting "" cn_empty fun _ => done).imap
    (fun (testNum, headNum, siteNum, testFlg, parmFlg, result, testTxt, alarmId, optFlg, resScal,
      llmScal, hlmScal, loLimit, hiLimit, units, _) =>
      ⟨testNum, headNum, siteNum, testFlg, parmFlg, result, testTxt, alarmId, optFlg, resScal,
      llmScal, hlmScal, loLimit, hiLimit, units⟩)
    (fun r => some (r.testNum, r.headNum, r.siteNum, r.testFlg, r.parmFlg, r.result, r.testTxt,
      r.alarmId, r.optFlg, r.resScal, r.llmScal, r.hlmScal, r.loLimit, r.hiLimit, r.units, ()))
    fun _ => rfl

def ftrBlock : Option String → Body StdfError (Option UInt8 × Option String × Option String)
  | some _ =>
      (u1.defaulting 0 (u1_valid 0) fun optFlg2 =>
        nn.optional (optFlg2 &&& 0x02 == 0) true fun _ =>
        nn.optional (optFlg2 &&& 0x04 == 0) true fun _ => done).imap
        (fun (optFlg2, program, testLabel, _) => (some optFlg2, program, testLabel))
        (fun (optFlg2, program, testLabel) => some (optFlg2.getD 0, program, testLabel, ()))
        fun _ => rfl
  | none => done.imap (fun _ => (none, none, none)) (fun _ => some ()) fun _ => rfl

def ftrBody : Body StdfError Ftr :=
  (u4.before <| u1.before <| u1.before <| u1.before <| u1.andThen fun optFlg =>
    u4.before <| u4.before <| u4.before <| u4.before <| i2.before <| i2.before <| i2.before <|
    u2.before <| u2.before <| u2.before <| u2.before <| sn.before <| sn.before <|
    cn.optional (optFlg &&& 0x01 != 0) false ftrBlock).imap
    (fun (testNum, headNum, siteNum, testFlg, optFlg, cyclCnt, relVpos, reptCnt, numFail, xFailAdj,
      yFailAdj, vectOffset, rtnIcq, rtnIlim, pgmIcq, pgmIlim, rtnNam, pgmNam, alarmId, optFlg2,
      program, testLabel) =>
      ⟨testNum, headNum, siteNum, testFlg, optFlg, cyclCnt, relVpos, reptCnt, numFail, xFailAdj,
      yFailAdj, vectOffset, rtnIcq, rtnIlim, pgmIcq, pgmIlim, rtnNam, pgmNam, alarmId, optFlg2,
      program, testLabel⟩)
    (fun r => some (r.testNum, r.headNum, r.siteNum, r.testFlg, r.optFlg, r.cyclCnt, r.relVpos,
      r.reptCnt, r.numFail, r.xFailAdj, r.yFailAdj, r.vectOffset, r.rtnIcq, r.rtnIlim, r.pgmIcq,
      r.pgmIlim, r.rtnNam, r.pgmNam, r.alarmId, r.optFlg2, r.program, r.testLabel))
    fun _ => rfl

def unknownBody (typ sub : UInt8) : Body StdfError Record :=
  raw.imap (.unknown typ sub)
    (fun
      | .unknown typ' sub' data => if typ' = typ ∧ sub' = sub then some data else none
      | _ => none)
    fun _ => if_pos ⟨rfl, rfl⟩

/-- The layout of a record body of the given type. -/
def recordBody (typ sub : UInt8) : Body StdfError Record :=
  match typ, sub with
  | 0, 10 => farBody.imap .far (fun | .far r => some r | _ => none) fun _ => rfl
  | 0, 20 => atrBody.imap .atr (fun | .atr r => some r | _ => none) fun _ => rfl
  | 1, 10 => mirBody.imap .mir (fun | .mir r => some r | _ => none) fun _ => rfl
  | 1, 20 => mrrBody.imap .mrr (fun | .mrr r => some r | _ => none) fun _ => rfl
  | 1, 30 => pcrBody.imap .pcr (fun | .pcr r => some r | _ => none) fun _ => rfl
  | 1, 40 => hbrBody.imap .hbr (fun | .hbr r => some r | _ => none) fun _ => rfl
  | 1, 50 => sbrBody.imap .sbr (fun | .sbr r => some r | _ => none) fun _ => rfl
  | 5, 10 => pmrBody.imap .pmr (fun | .pmr r => some r | _ => none) fun _ => rfl
  | 2, 10 => wirBody.imap .wir (fun | .wir r => some r | _ => none) fun _ => rfl
  | 2, 20 => wrrBody.imap .wrr (fun | .wrr r => some r | _ => none) fun _ => rfl
  | 2, 30 => wcrBody.imap .wcr (fun | .wcr r => some r | _ => none) fun _ => rfl
  | 15, 10 => ptrBody.imap .ptr (fun | .ptr r => some r | _ => none) fun _ => rfl
  | 15, 20 => ftrBody.imap .ftr (fun | .ftr r => some r | _ => none) fun _ => rfl
  | 5, 30 => tsrBody.imap .tsr (fun | .tsr r => some r | _ => none) fun _ => rfl
  | 20, 10 => gdrBody.imap .gdr (fun | .gdr r => some r | _ => none) fun _ => rfl
  | 20, 30 => dtrBody.imap .dtr (fun | .dtr r => some r | _ => none) fun _ => rfl
  | 20, 15 => done.imap (fun _ => .bps) (fun | .bps => some () | _ => none) fun _ => rfl
  | 20, 20 => done.imap (fun _ => .eps) (fun | .eps => some () | _ => none) fun _ => rfl
  | typ, sub => unknownBody typ sub

/-- A type without a layout of its own has its body kept as bytes. -/
theorem recordBody_unmodelled {typ sub : UInt8} (htype : (typ, sub) ∉ modelledTypes) :
    recordBody typ sub = unknownBody typ sub := by
  unfold recordBody
  split <;> first | rfl | simp [modelledTypes] at htype

/-! ## The parsers read what the layouts describe -/

theorem parseFtr_eq (endian : Endian) : parseFtr endian = ftrBody.read endian := by
  simp only [parseFtr, ftrBody, read_imap, Field.map_read_andThen, Field.map_read_optional]
  -- the source tests the alarm id's flag once for the whole block
  iterate 18 refine bind_congr fun _ => ?_
  have hblock (optFlg : UInt8) (after : Option (String × UInt8 × Option String × Option String) →
      Reader Ftr) := Reader.whenPresent_block (optFlg &&& 0x01 != 0) (cn.read endian)
    (fun _ => do
      let optFlg2 ← Reader.orDefault 0 (u1.read endian)
      let program ← Reader.whenPresent (optFlg2 &&& 0x02 == 0) (nn.read endian)
      let testLabel ← Reader.whenPresent (optFlg2 &&& 0x04 == 0) (nn.read endian)
      return (optFlg2, program, testLabel)) after
  simp only [bind_assoc, pure_bind] at hblock
  refine (hblock _ _).trans (bind_congr fun alarmId => ?_)
  cases alarmId with
  | none => rfl
  | some alarmId =>
      simp only [ftrBlock, read_imap, Field.map_read_defaulting, Field.map_read_optional,
        map_read_done, map_bind, map_pure]

/-- The parser of each type reads its layout. -/
theorem fields_eq (typ sub : UInt8) (endian : Endian) :
    Record.fields typ sub endian = (recordBody typ sub).read endian := by
  unfold Record.fields
  split
  case h_13 => exact congrArg _ (parseFtr_eq endian)
  case h_17 | h_18 => rfl
  case h_19 =>
    unfold recordBody
    split <;> first | rfl | simp_all
  all_goals
    apply congrArg (Functor.map _)
    simp only [parseFar, farBody, parseAtr, atrBody, parseMir, mirBody, parseMrr, mrrBody,
      parsePcr, pcrBody, parseHbr, hbrBody, parseSbr, sbrBody, parsePmr, pmrBody, parseWir,
      wirBody, parseWrr, wrrBody, parseWcr, wcrBody, parsePtr, ptrBody, parseTsr, tsrBody,
      parseGdr, gdrBody, parseDtr, dtrBody, Field.pair, read_imap, Field.map_read_andThen,
      Field.map_read_optional, Field.map_read_defaulting, map_read_done]

/-! ## The encoders write what the layouts describe -/

theorem encodePmr_eq (r : Pmr) : encodePmr r = pmrBody.write .little r := by
  obtain ⟨_, _, _, _, _, head, site⟩ := r
  cases head <;> cases site <;>
    simp [encodePmr, pmrBody, emit, put, write_imap, Field.write_andThen, Field.write_optional,
      write_done, Field.pair]

theorem putWhen_eq {α : Type} (F : Field StdfError α) (present : Bool) (value : Option α) :
    putWhen F present value = F.writeOptional present true .little value := by
  cases present <;> cases value <;> rfl

/-- The encoder of a PTR writes its layout. -/
theorem encodePtr_eq (r : Ptr) : encodePtr r = ptrBody.write .little r := by
  obtain ⟨_, _, _, _, _, _, _, _, optFlg, _, _, _, _, _, _⟩ := r
  cases optFlg <;>
    simp [encodePtr, emit, put, putWhen_eq, ptrBody, write_imap, Field.write_andThen,
      Field.write_optional, Field.write_defaulting, write_done]

/-- The encoder of an FTR writes its layout. -/
theorem encodeFtr_eq (r : Ftr) : encodeFtr r = ftrBody.write .little r := by
  obtain ⟨_, _, _, _, _, _, _, _, _, _, _, _, _, _, _, _, _, _, alarmId, optFlg2, _, _⟩ := r
  cases alarmId <;> cases optFlg2 <;>
    simp [encodeFtr, emit, put, putWhen_eq, ftrBody, ftrBlock, write_imap, Field.write_andThen,
      Field.write_optional, Field.write_defaulting, write_done]

/-- The encoder of each named record writes its layout. -/
theorem encodeBody_eq {record : Record} (hnamed : record.Named) :
    record.encodeBody =
      (recordBody record.typeSubtype.1 record.typeSubtype.2).write .little record := by
  cases record with
  | pmr r => exact encodePmr_eq r
  | ptr r => exact encodePtr_eq r
  | ftr r => exact encodeFtr_eq r
  | bps => rfl
  | eps => rfl
  | unknown typ sub data =>
      rw [Record.typeSubtype, recordBody_unmodelled hnamed]
      simp [Record.encodeBody, unknownBody, write_imap, raw]
  | _ r =>
    rw [Record.encodeBody, Record.typeSubtype, recordBody, write_imap, Option.bind_eq_bind,
      Option.bind_some]
    simp only [encodeFar, farBody, encodeAtr, atrBody, encodeMir, mirBody, encodeMrr, mrrBody,
      encodePcr, pcrBody, encodeHbr, hbrBody, encodeSbr, sbrBody, encodeWir, wirBody, encodeWrr,
      wrrBody, encodeWcr, wcrBody, encodeTsr, tsrBody, encodeGdr, gdrBody, encodeDtr, dtrBody,
      emit, put, write_imap, Field.write_andThen, Field.write_defaulting, write_done,
      Option.bind_eq_bind, Option.bind_some]

/-- What a body of some type is read into is a record of that type. -/
theorem type_of_read {typ sub : UInt8} {order : Endian} {data rest : Bytes} {record : Record}
    (hread : ((recordBody typ sub).read order).run data = .ok (record, rest)) :
    record.typeSubtype = (typ, sub) ∧ record.Named := by
  rw [← fields_eq] at hread
  unfold Record.fields at hread
  split at hread
  case h_17 | h_18 =>
    cases hread
    exact ⟨rfl, trivial⟩
  case h_19 =>
    cases hread
    exact ⟨rfl, by simp_all [Record.Named, modelledTypes]⟩
  all_goals
    obtain ⟨_, -, rfl⟩ := Reader.map_eq_ok.mp hread
    exact ⟨rfl, trivial⟩

/-! ## Growth -/

theorem emptyText_growsBy {β : Type} {G : String → Body StdfError β} {bound : Nat}
    (hgrow : ∀ text, (G text).GrowsBy bound) :
    (cn.defaulting "" cn_empty G).GrowsBy (bound + 1) := by
  rw [Nat.add_comm]
  apply Field.defaulting_growsBy hgrow
  intro bytes hbytes
  simp only [cn, Payload.field, Payload.write_eq_some] at hbytes
  simp [hbytes.2, Payload.text, Word.u8]

theorem wrrBody_growsBy : wrrBody.GrowsBy 5 := by
  apply imap_growsBy
  iterate 9 refine Field.andThen_growsBy fun _ => ?_
  iterate 5 refine emptyText_growsBy fun _ => ?_
  exact done_growsBy

theorem tsrBody_growsBy : tsrBody.GrowsBy 3 := by
  apply imap_growsBy
  iterate 7 refine Field.andThen_growsBy fun _ => ?_
  iterate 3 refine emptyText_growsBy fun _ => ?_
  exact done_growsBy

theorem ptrBody_growsBy : ptrBody.GrowsBy 1 := by
  apply imap_growsBy
  iterate 8 refine Field.andThen_growsBy fun _ => ?_
  iterate 6 refine Field.optional_growsBy fun _ => ?_
  exact emptyText_growsBy fun _ => done_growsBy

theorem ftrBody_growsBy : ftrBody.GrowsBy 1 := by
  apply imap_growsBy
  iterate 18 refine Field.andThen_growsBy fun _ => ?_
  apply Field.optional_growsBy
  intro alarmId
  cases alarmId with
  | none =>
      rw [ftrBlock]
      exact imap_growsBy (done_growsBy.mono (Nat.zero_le 1))
  | some alarmId =>
      rw [ftrBlock]
      apply imap_growsBy
      change GrowsBy _ (1 + 0)
      refine Field.defaulting_growsBy (fun _ => ?_) fun bytes hbytes => ?_
      · iterate 2 refine Field.optional_growsBy fun _ => ?_
        exact done_growsBy
      · cases hbytes
        decide

/-- The omitted fields that a record gains when it is written back are few. -/
theorem recordBody_growsBy (typ sub : UInt8) : (recordBody typ sub).GrowsBy 5 := by
  unfold recordBody
  split
  case h_10 => exact imap_growsBy wrrBody_growsBy
  case h_12 => exact imap_growsBy (ptrBody_growsBy.mono (by decide))
  case h_13 => exact imap_growsBy (ftrBody_growsBy.mono (by decide))
  case h_14 => exact imap_growsBy (tsrBody_growsBy.mono (by decide))
  case h_17 | h_18 => exact imap_growsBy (done_growsBy.mono (by decide))
  case h_19 => exact imap_growsBy (raw_growsBy.mono (by decide))
  all_goals
    refine imap_growsBy (imap_growsBy ?_)
    repeat refine Field.andThen_growsBy fun _ => ?_
    first
    | exact done_growsBy.mono (by decide)
    | exact Field.optional_growsBy fun _ => done_growsBy.mono (by decide)

/-! ## Errors -/

theorem ftrBlock_failsWith (alarmId : Option String) : (ftrBlock alarmId).FailsWith IsEof := by
  cases alarmId with
  | none =>
      rw [ftrBlock]
      exact imap_failsWith done_failsWith
  | some alarmId =>
      rw [ftrBlock]
      exact imap_failsWith (defaulting_failsWith u1_failsWith fun _ =>
        optional_failsWith nn_failsWith fun _ => optional_failsWith nn_failsWith fun _ =>
        done_failsWith)

/-- A body that does not parse ends too early. -/
theorem recordBody_failsWith (typ sub : UInt8) : (recordBody typ sub).FailsWith IsEof := by
  unfold recordBody
  split
  case h_17 | h_18 => exact imap_failsWith done_failsWith
  case h_19 => exact imap_failsWith raw_failsWith
  all_goals
    refine imap_failsWith (imap_failsWith ?_)
    with_reducible
      repeat' first
      | refine andThen_failsWith ?_ fun _ => ?_
      | refine optional_failsWith ?_ fun _ => ?_
      | refine defaulting_failsWith ?_ fun _ => ?_
      | exact done_failsWith
      | exact ftrBlock_failsWith _
      | exact u1_failsWith
      | exact u2_failsWith
      | exact u4_failsWith
      | exact i1_failsWith
      | exact i2_failsWith
      | exact r4_failsWith
      | exact cn_failsWith
      | exact sn_failsWith
      | exact kBytes_failsWith
      | exact nn_failsWith
      | exact Field.pair_failsWith u1_failsWith u1_failsWith

/-- A record fails to parse only because its bytes run out. -/
theorem isEof_of_parse {typ sub : UInt8} {data : Bytes} {endian : Endian} {error : StdfError}
    (hparse : Record.parse typ sub data endian = .error error) : IsEof error := by
  unfold Record.parse at hparse
  rw [fields_eq] at hparse
  cases hrun : ((recordBody typ sub).read endian).run data with
  | ok pair =>
      rw [hrun] at hparse
      simp at hparse
  | error error' =>
      rw [hrun] at hparse
      cases hparse
      exact recordBody_failsWith typ sub endian hrun

end Stdf
