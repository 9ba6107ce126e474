import TptAte.Stdf.Codec

/-! # STDF V4 records

The record types that production files carry, how each is encoded and how each
is parsed from a record body. A record outside the modelled set is kept as raw
bytes. Presence of a trailing field is decided by flag bits and by whether bytes
are left in the body.
-/

namespace Stdf

open Wire

/-! ## Flag bits -/

namespace TestFlg

def testFailed : UInt8 := 0x01

/-- `RESULT` carries a pass/fail verdict rather than a measurement. -/
def passFailField : UInt8 := 0x08

end TestFlg

namespace ParmFlg

/-- `OPT_FLAG` and the optional scaling and limit fields are present. -/
def optFlagPresent : UInt8 := 0x10

end ParmFlg

namespace OptFlg

def noResScal : UInt8 := 0x01

def noLlmScal : UInt8 := 0x02

def noHlmScal : UInt8 := 0x04

def noLoLimit : UInt8 := 0x08

def noHiLimit : UInt8 := 0x10

end OptFlg

/-! ## Record types -/

/-- File Attributes Record: declares the byte order and the version. -/
structure Far where
  (cpuType stdfVer : UInt8)
  deriving DecidableEq

structure Atr where
  modTimn : UInt32
  cmdLine : String
  deriving DecidableEq

/-- Master Information Record: identifies the lot, part, tester, and test job. -/
structure Mir where
  (setupT startT : UInt32)
  (statBin modeCod rtnCod protCod : UInt8)
  burnDay : UInt16
  cmtCnt : UInt8
  (lotId partTyp nodeNam tstrTyp jobNam jobRev sblotId operNam execTyp execVer : String)
  (testCod tstTemp userTxt auxFile pkgTyp familyId dateCod facilId floorId procId : String)
  (operFrq specNam specVer flowId setupId dsgnRev engId romCod serlNum suprNam : String)
  deriving DecidableEq

/-- Master Results Record: lot-level counters, written last. -/
structure Mrr where
  finishT : UInt32
  (dispCod usrCod excCod : UInt8)
  (usrDesc excDesc : String)
  deriving DecidableEq

/-- Part Results Record: per-site cumulative part counters. -/
structure Pcr where
  (headNum siteNum : UInt8)
  (partCnt rtstCnt abrtCnt goodCnt funcCnt : UInt32)
  deriving DecidableEq

structure Hbr where
  (headNum siteNum : UInt8)
  hbinNum : UInt16
  hbinCnt : UInt32
  hbinPf : UInt8
  hbinNam : String
  deriving DecidableEq

structure Sbr where
  (headNum siteNum : UInt8)
  sbinNum : UInt16
  sbinCnt : UInt32
  sbinPf : UInt8
  sbinNam : String
  deriving DecidableEq

structure Pmr where
  (pinIdx chanTyp : UInt16)
  (chanNam phyNam logNam : String)
  (headNum siteNum : Option UInt8)
  deriving DecidableEq

/-- Wafer Information Record: start of wafer testing. -/
structure Wir where
  (headNum siteGrp : UInt8)
  startT : UInt32
  waferId : String
  deriving DecidableEq

/-- Wafer Results Record: end of wafer testing. -/
structure Wrr where
  (headNum siteGrp : UInt8)
  (finishT partCnt rtstCnt abrtCnt goodCnt funcCnt : UInt32)
  (waferId fabwfId frameId maskId usrDesc excDesc : String)
  deriving DecidableEq

/-- Wafer Configuration Record: wafer geometry and die coordinate system. -/
structure Wcr where
  (wafrSiz dieHt dieWid : F32)
  (wfUnits wfFlat : UInt8)
  (centerX centerY : Int16)
  (posX posY : UInt8)
  deriving DecidableEq

/-- Parametric Test Record: one analog/numeric test result. -/
structure Ptr where
  testNum : UInt32
  (headNum siteNum testFlg parmFlg : UInt8)
  result : F32
  (testTxt alarmId : String)
  optFlg : Option UInt8
  (resScal llmScal hlmScal : Option Int8)
  (loLimit hiLimit : Option F32)
  units : String
  deriving DecidableEq

/-- A numeric measurement with the standard optional fields present. -/
def Ptr.measured (testNum : UInt32) (headNum siteNum : UInt8) (result : F32) (name units : String)
    (lo hi : F32) : Ptr :=
  { testNum, headNum, siteNum, testFlg := 0, parmFlg := ParmFlg.optFlagPresent, result,
    testTxt := name, alarmId := "", optFlg := some 0, resScal := some 0, llmScal := some 0,
    hlmScal := some 0, loLimit := some lo, hiLimit := some hi, units }

/-- A pass/fail verdict; `result` is the verdict, not a value. -/
def Ptr.verdict (testNum : UInt32) (headNum siteNum : UInt8) (passed : Bool) : Ptr :=
  { Ptr.measured testNum headNum siteNum (if passed then F32.one else F32.zero) "" "" F32.zero
      F32.one with
    testFlg := TestFlg.passFailField ||| (if passed then 0 else TestFlg.testFailed) }

/-- Functional Test Record: one pattern-group execution result. -/
structure Ftr where
  testNum : UInt32
  (headNum siteNum testFlg optFlg : UInt8)
  (cyclCnt relVpos reptCnt numFail : UInt32)
  (xFailAdj yFailAdj vectOffset : Int16)
  (rtnIcq rtnIlim pgmIcq pgmIlim : UInt16)
  (rtnNam pgmNam : List String)
  alarmId : Option String
  optFlg2 : Option UInt8
  (program testLabel : Option String)
  deriving DecidableEq

/-- A minimal functional result for a pattern group. -/
def Ftr.pattern (testNum : UInt32) (headNum siteNum : UInt8) (passed : Bool)
    (patternName : String) : Ftr :=
  { testNum, headNum, siteNum,
    testFlg := TestFlg.passFailField ||| (if passed then 0 else TestFlg.testFailed), optFlg := 0,
    cyclCnt := 0, relVpos := 0, reptCnt := 0, numFail := if passed then 0 else 1, xFailAdj := 0,
    yFailAdj := 0, vectOffset := 0, rtnIcq := 0, rtnIlim := 0, pgmIcq := 0, pgmIlim := 0,
    rtnNam := [], pgmNam := [patternName], alarmId := none, optFlg2 := none, program := none,
    testLabel := none }

/-- Test Synopsis Record: per-test aggregate counters. -/
structure Tsr where
  (headNum siteNum testTyp : UInt8)
  (testNum execCnt failCnt alarmCnt : UInt32)
  (testNam seqName testLbl : String)
  deriving DecidableEq

/-- Generic Data Record: opaque N-byte data blob. -/
structure Gdr where
  genData : Bytes
  deriving DecidableEq

structure Dtr where
  textDat : String
  deriving DecidableEq

/-- One record. Unsupported record types survive as `unknown`. -/
inductive Record where
  | far (r : Far)
  | atr (r : Atr)
  | mir (r : Mir)
  | mrr (r : Mrr)
  | pcr (r : Pcr)
  | hbr (r : Hbr)
  | sbr (r : Sbr)
  | pmr (r : Pmr)
  | wir (r : Wir)
  | wrr (r : Wrr)
  | wcr (r : Wcr)
  | ptr (r : Ptr)
  | ftr (r : Ftr)
  | tsr (r : Tsr)
  | gdr (r : Gdr)
  | dtr (r : Dtr)
  | bps
  | eps
  | unknown (typ sub : UInt8) (data : Bytes)
  deriving DecidableEq

def Record.typeSubtype : Record → UInt8 × UInt8
  | .far _ => (0, 10)
  | .atr _ => (0, 20)
  | .mir _ => (1, 10)
  | .mrr _ => (1, 20)
  | .pcr _ => (1, 30)
  | .hbr _ => (1, 40)
  | .sbr _ => (1, 50)
  | .pmr _ => (5, 10)
  | .wir _ => (2, 10)
  | .wrr _ => (2, 20)
  | .wcr _ => (2, 30)
  | .ptr _ => (15, 10)
  | .ftr _ => (15, 20)
  | .tsr _ => (5, 30)
  | .gdr _ => (20, 10)
  | .dtr _ => (20, 30)
  | .bps => (20, 15)
  | .eps => (20, 20)
  | .unknown typ sub _ => (typ, sub)

/-! ## Encoding -/

def put {α : Type} (F : Field StdfError α) (value : α) : Option Bytes := F.write .little value

def putSome {α : Type} (F : Field StdfError α) : Option α → Option Bytes
  | some value => put F value
  | none => some []

/-- Append one field if its flag allows it and there is a value. -/
def putWhen {α : Type} (F : Field StdfError α) (present : Bool) (value : Option α) : Option Bytes :=
  if present then putSome F value else some []

def encodeFar (r : Far) : Option Bytes :=
  emit [put u1 r.cpuType, put u1 r.stdfVer]

def encodeAtr (r : Atr) : Option Bytes :=
  emit [put u4 r.modTimn, put cn r.cmdLine]

def encodeMir (r : Mir) : Option Bytes :=
  emit [put u4 r.setupT, put u4 r.startT, put u1 r.statBin, put u1 r.modeCod, put u1 r.rtnCod,
    put u1 r.protCod, put u2 r.burnDay, put u1 r.cmtCnt, put cn r.lotId, put cn r.partTyp,
    put cn r.nodeNam, put cn r.tstrTyp, put cn r.jobNam, put cn r.jobRev, put cn r.sblotId,
    put cn r.operNam, put cn r.execTyp, put cn r.execVer, put cn r.testCod, put cn r.tstTemp,
    put cn r.userTxt, put cn r.auxFile, put cn r.pkgTyp, put cn r.familyId, put cn r.dateCod,
    put cn r.facilId, put cn r.floorId, put cn r.procId, put cn r.operFrq, put cn r.specNam,
    put cn r.specVer, put cn r.flowId, put cn r.setupId, put cn r.dsgnRev, put cn r.engId,
    put cn r.romCod, put cn r.serlNum, put cn r.suprNam]

def encodeMrr (r : Mrr) : Option Bytes :=
  emit [put u4 r.finishT, put u1 r.dispCod, put u1 r.usrCod, put u1 r.excCod, put cn r.usrDesc,
    put cn r.excDesc]

def encodePcr (r : Pcr) : Option Bytes :=
  emit [put u1 r.headNum, put u1 r.siteNum, put u4 r.partCnt, put u4 r.rtstCnt, put u4 r.abrtCnt,
    put u4 r.goodCnt, put u4 r.funcCnt]

def encodeHbr (r : Hbr) : Option Bytes :=
  emit [put u1 r.headNum, put u1 r.siteNum, put u2 r.hbinNum, put u4 r.hbinCnt, put u1 r.hbinPf,
    put cn r.hbinNam]

def encodeSbr (r : Sbr) : Option Bytes :=
  emit [put u1 r.headNum, put u1 r.siteNum, put u2 r.sbinNum, put u4 r.sbinCnt, put u1 r.sbinPf,
    put cn r.sbinNam]

def encodeWir (r : Wir) : Option Bytes :=
  emit [put u1 r.headNum, put u1 r.siteGrp, put u4 r.startT, put cn r.waferId]

def encodeWcr (r : Wcr) : Option Bytes :=
  emit [put r4 r.wafrSiz, put r4 r.dieHt, put r4 r.dieWid, put u1 r.wfUnits, put u1 r.wfFlat,
    put i2 r.centerX, put i2 r.centerY, put u1 r.posX, put u1 r.posY]

def encodeGdr (r : Gdr) : Option Bytes :=
  emit [put kBytes r.genData]

def encodeDtr (r : Dtr) : Option Bytes :=
  emit [put cn r.textDat]

def encodePmr (r : Pmr) : Option Bytes :=
  emit ([put u2 r.pinIdx, put u2 r.chanTyp, put cn r.chanNam, put cn r.phyNam, put cn r.logNam] ++
    match r.headNum, r.siteNum with
    | some head, some site => [put u1 head, put u1 site]
    | _, _ => [])

def encodeWrr (r : Wrr) : Option Bytes :=
  emit [put u1 r.headNum, put u1 r.siteGrp, put u4 r.finishT, put u4 r.partCnt, put u4 r.rtstCnt,
    put u4 r.abrtCnt, put u4 r.goodCnt, put u4 r.funcCnt, put cn r.waferId, put cn r.fabwfId,
    put cn r.frameId, put cn r.maskId, put cn r.usrDesc, put cn r.excDesc]

def encodePtr (r : Ptr) : Option Bytes :=
  emit ([put u4 r.testNum, put u1 r.headNum, put u1 r.siteNum, put u1 r.testFlg, put u1 r.parmFlg,
      put r4 r.result, put cn r.testTxt, put cn r.alarmId] ++
    (match r.optFlg with
    | some flags =>
        [put u1 flags,
          putWhen i1 (flags &&& OptFlg.noResScal == 0) r.resScal,
          putWhen i1 (flags &&& OptFlg.noLlmScal == 0) r.llmScal,
          putWhen i1 (flags &&& OptFlg.noHlmScal == 0) r.hlmScal,
          putWhen r4 (flags &&& OptFlg.noLoLimit == 0) r.loLimit,
          putWhen r4 (flags &&& OptFlg.noHiLimit == 0) r.hiLimit]
    | none => []) ++ [put cn r.units])

def encodeFtr (r : Ftr) : Option Bytes :=
  emit ([put u4 r.testNum, put u1 r.headNum, put u1 r.siteNum, put u1 r.testFlg, put u1 r.optFlg,
      put u4 r.cyclCnt, put u4 r.relVpos, put u4 r.reptCnt, put u4 r.numFail, put i2 r.xFailAdj,
      put i2 r.yFailAdj, put i2 r.vectOffset, put u2 r.rtnIcq, put u2 r.rtnIlim, put u2 r.pgmIcq,
      put u2 r.pgmIlim, put sn r.rtnNam, put sn r.pgmNam] ++
    match r.alarmId with
    | some alarmId =>
        -- without OPT_FLAG_2 the two texts are written whenever there are any
        [put cn alarmId, put u1 (r.optFlg2.getD 0),
          putWhen nn (r.optFlg2.all (· &&& 0x02 == 0)) r.program,
          putWhen nn (r.optFlg2.all (· &&& 0x04 == 0)) r.testLabel]
    | none => [])

def encodeTsr (r : Tsr) : Option Bytes :=
  emit [put u1 r.headNum, put u1 r.siteNum, put u1 r.testTyp, put u4 r.testNum, put u4 r.execCnt,
    put u4 r.failCnt, put u4 r.alarmCnt, put cn r.testNam, put cn r.seqName, put cn r.testLbl]

/-- The body of a record; `none` when an assertion of the codec fails. -/
def Record.encodeBody : Record → Option Bytes
  | .far r => encodeFar r
  | .atr r => encodeAtr r
  | .mir r => encodeMir r
  | .mrr r => encodeMrr r
  | .pcr r => encodePcr r
  | .hbr r => encodeHbr r
  | .sbr r => encodeSbr r
  | .pmr r => encodePmr r
  | .wir r => encodeWir r
  | .wrr r => encodeWrr r
  | .wcr r => encodeWcr r
  | .ptr r => encodePtr r
  | .ftr r => encodeFtr r
  | .tsr r => encodeTsr r
  | .gdr r => encodeGdr r
  | .dtr r => encodeDtr r
  | .bps => some []
  | .eps => some []
  | .unknown _ _ data => some data

/-- The four header bytes: REC_LEN, which wraps at 16 bits, REC_TYP and REC_SUB. -/
def recordHeader (typ sub : UInt8) (length : Nat) : Bytes :=
  Word.u16.bytes .little (UInt16.ofNat length) ++ [typ, sub]

def Record.encode (record : Record) : Option Bytes := do
  let (typ, sub) := record.typeSubtype
  let body ← record.encodeBody
  return recordHeader typ sub body.length ++ body

/-! ## Parsing -/

def parseFar (endian : Endian) : Reader Far := do
  let cpuType ← u1.read endian
  let stdfVer ← u1.read endian
  return ⟨cpuType, stdfVer⟩

def parseAtr (endian : Endian) : Reader Atr := do
  let modTimn ← u4.read endian
  let cmdLine ← cn.read endian
  return ⟨modTimn, cmdLine⟩

def parseMir (endian : Endian) : Reader Mir := do
  let setupT ← u4.read endian
  let startT ← u4.read endian
  let statBin ← u1.read endian
  let modeCod ← u1.read endian
  let rtnCod ← u1.read endian
  let protCod ← u1.read endian
  let burnDay ← u2.read endian
  let cmtCnt ← u1.read endian
  let lotId ← cn.read endian
  let partTyp ← cn.read endian
  let nodeNam ← cn.read endian
  let tstrTyp ← cn.read endian
  let jobNam ← cn.read endian
  let jobRev ← cn.read endian
  let sblotId ← cn.read endian
  let operNam ← cn.read endian
  let execTyp ← cn.read endian
  let execVer ← cn.read endian
  let testCod ← cn.read endian
  let tstTemp ← cn.read endian
  let userTxt ← cn.read endian
  let auxFile ← cn.read endian
  let pkgTyp ← cn.read endian
  let familyId ← cn.read endian
  let dateCod ← cn.read endian
  let facilId ← cn.read endian
  let floorId ← cn.read endian
  let procId ← cn.read endian
  let operFrq ← cn.read endian
  let specNam ← cn.read endian
  let specVer ← cn.read endian
  let flowId ← cn.read endian
  let setupId ← cn.read endian
  let dsgnRev ← cn.read endian
  let engId ← cn.read endian
  let romCod ← cn.read endian
  let serlNum ← cn.read endian
  let suprNam ← cn.read endian
  return ⟨setupT, startT, statBin, modeCod, rtnCod, protCod, burnDay, cmtCnt, lotId, partTyp,
    nodeNam, tstrTyp, jobNam, jobRev, sblotId, operNam, execTyp, execVer, testCod, tstTemp,
    userTxt, auxFile, pkgTyp, familyId, dateCod, facilId, floorId, procId, operFrq, specNam,
    specVer, flowId, setupId, dsgnRev, engId, romCod, serlNum, suprNam⟩

def parseMrr (endian : Endian) : Reader Mrr := do
  let finishT ← u4.read endian
  let dispCod ← u1.read endian
  let usrCod ← u1.read endian
  let excCod ← u1.read endian
  let usrDesc ← cn.read endian
  let excDesc ← cn.read endian
  return ⟨finishT, dispCod, usrCod, excCod, usrDesc, excDesc⟩

def parsePcr (endian : Endian) : Reader Pcr := do
  let headNum ← u1.read endian
  let siteNum ← u1.read endian
  let partCnt ← u4.read endian
  let rtstCnt ← u4.read endian
  let abrtCnt ← u4.read endian
  let goodCnt ← u4.read endian
  let funcCnt ← u4.read endian
  return ⟨headNum, siteNum, partCnt, rtstCnt, abrtCnt, goodCnt, funcCnt⟩

def parseHbr (endian : Endian) : Reader Hbr := do
  let headNum ← u1.read endian
  let siteNum ← u1.read endian
  let hbinNum ← u2.read endian
  let hbinCnt ← u4.read endian
  let hbinPf ← u1.read endian
  let hbinNam ← cn.read endian
  return ⟨headNum, siteNum, hbinNum, hbinCnt, hbinPf, hbinNam⟩

def parseSbr (endian : Endian) : Reader Sbr := do
  let headNum ← u1.read endian
  let siteNum ← u1.read endian
  let sbinNum ← u2.read endian
  let sbinCnt ← u4.read endian
  let sbinPf ← u1.read endian
  let sbinNam ← cn.read endian
  return ⟨headNum, siteNum, sbinNum, sbinCnt, sbinPf, sbinNam⟩

def parseWir (endian : Endian) : Reader Wir := do
  let headNum ← u1.read endian
  let siteGrp ← u1.read endian
  let startT ← u4.read endian
  let waferId ← cn.read endian
  return ⟨headNum, siteGrp, startT, waferId⟩

def parseWcr (endian : Endian) : Reader Wcr := do
  let wafrSiz ← r4.read endian
  let dieHt ← r4.read endian
  let dieWid ← r4.read endian
  let wfUnits ← u1.read endian
  let wfFlat ← u1.read endian
  let centerX ← i2.read endian
  let centerY ← i2.read endian
  let posX ← u1.read endian
  let posY ← u1.read endian
  return ⟨wafrSiz, dieHt, dieWid, wfUnits, wfFlat, centerX, centerY, posX, posY⟩

def parseGdr (endian : Endian) : Reader Gdr := do
  let genData ← kBytes.read endian
  return ⟨genData⟩

def parseDtr (endian : Endian) : Reader Dtr := do
  let textDat ← cn.read endian
  return ⟨textDat⟩

def parsePmr (endian : Endian) : Reader Pmr := do
  let pinIdx ← u2.read endian
  let chanTyp ← u2.read endian
  let chanNam ← cn.read endian
  let phyNam ← cn.read endian
  let logNam ← cn.read endian
  -- head and site share one test for the end of the body
  let place ← Reader.whenPresent true do
    let head ← u1.read endian
    let site ← u1.read endian
    return (head, site)
  return ⟨pinIdx, chanTyp, chanNam, phyNam, logNam, place.map Prod.fst, place.map Prod.snd⟩

def parseWrr (endian : Endian) : Reader Wrr := do
  let headNum ← u1.read endian
  let siteGrp ← u1.read endian
  let finishT ← u4.read endian
  let partCnt ← u4.read endian
  let rtstCnt ← u4.read endian
  let abrtCnt ← u4.read endian
  let goodCnt ← u4.read endian
  let funcCnt ← u4.read endian
  let waferId ← cn.read endian
  let fabwfId ← Reader.orDefault "" (cn.read endian)
  let frameId ← Reader.orDefault "" (cn.read endian)
  let maskId ← Reader.orDefault "" (cn.read endian)
  let usrDesc ← Reader.orDefault "" (cn.read endian)
  let excDesc ← Reader.orDefault "" (cn.read endian)
  return ⟨headNum, siteGrp, finishT, partCnt, rtstCnt, abrtCnt, goodCnt, funcCnt, waferId,
    fabwfId, frameId, maskId, usrDesc, excDesc⟩

def parsePtr (endian : Endian) : Reader Ptr := do
  let testNum ← u4.read endian
  let headNum ← u1.read endian
  let siteNum ← u1.read endian
  let testFlg ← u1.read endian
  let parmFlg ← u1.read endian
  let result ← r4.read endian
  let testTxt ← cn.read endian
  let alarmId ← cn.read endian
  let optFlg ← Reader.whenPresent (parmFlg &&& ParmFlg.optFlagPresent != 0) (u1.read endian)
  let flags := optFlg.getD 0
  let resScal ← Reader.whenPresent (optFlg.isSome && flags &&& OptFlg.noResScal == 0)
    (i1.read endian)
  let llmScal ← Reader.whenPresent (optFlg.isSome && flags &&& OptFlg.noLlmScal == 0)
    (i1.read endian)
  let hlmScal ← Reader.whenPresent (optFlg.isSome && flags &&& OptFlg.noHlmScal == 0)
    (i1.read endian)
  let loLimit ← Reader.whenPresent (optFlg.isSome && flags &&& OptFlg.noLoLimit == 0)
    (r4.read endian)
  let hiLimit ← Reader.whenPresent (optFlg.isSome && flags &&& OptFlg.noHiLimit == 0)
    (r4.read endian)
  let units ← Reader.orDefault "" (cn.read endian)
  return ⟨testNum, headNum, siteNum, testFlg, parmFlg, result, testTxt, alarmId, optFlg, resScal,
    llmScal, hlmScal, loLimit, hiLimit, units⟩

def parseFtr (endian : Endian) : Reader Ftr := do
  let testNum ← u4.read endian
  let headNum ← u1.read endian
  let siteNum ← u1.read endian
  let testFlg ← u1.read endian
  let optFlg ← u1.read endian
  let cyclCnt ← u4.read endian
  let relVpos ← u4.read endian
  let reptCnt ← u4.read endian
  let numFail ← u4.read endian
  let xFailAdj ← i2.read endian
  let yFailAdj ← i2.read endian
  let vectOffset ← i2.read endian
  let rtnIcq ← u2.read endian
  let rtnIlim ← u2.read endian
  let pgmIcq ← u2.read endian
  let pgmIlim ← u2.read endian
  let rtnNam ← sn.read endian
  let pgmNam ← sn.read endian
  -- the block behind the alarm id is read only with it
  let block ← Reader.whenPresent (optFlg &&& 0x01 != 0) do
    let alarmId ← cn.read endian
    let optFlg2 ← Reader.orDefault 0 (u1.read endian)
    let program ← Reader.whenPresent (optFlg2 &&& 0x02 == 0) (nn.read endian)
    let testLabel ← Reader.whenPresent (optFlg2 &&& 0x04 == 0) (nn.read endian)
    return (alarmId, optFlg2, program, testLabel)
  let (alarmId, optFlg2, program, testLabel) :=
    match block with
    | some (alarmId, optFlg2, program, testLabel) =>
        (some alarmId, some optFlg2, program, testLabel)
    | none => (none, none, none, none)
  return ⟨testNum, headNum, siteNum, testFlg, optFlg, cyclCnt, relVpos, reptCnt, numFail,
    xFailAdj, yFailAdj, vectOffset, rtnIcq, rtnIlim, pgmIcq, pgmIlim, rtnNam, pgmNam,
    alarmId, optFlg2, program, testLabel⟩

def parseTsr (endian : Endian) : Reader Tsr := do
  let headNum ← u1.read endian
  let siteNum ← u1.read endian
  let testTyp ← u1.read endian
  let testNum ← u4.read endian
  let execCnt ← u4.read endian
  let failCnt ← u4.read endian
  let alarmCnt ← u4.read endian
  let testNam ← Reader.orDefault "" (cn.read endian)
  let seqName ← Reader.orDefault "" (cn.read endian)
  let testLbl ← Reader.orDefault "" (cn.read endian)
  return ⟨headNum, siteNum, testTyp, testNum, execCnt, failCnt, alarmCnt, testNam, seqName,
    testLbl⟩

/-- The reader of a record body of the given type. An unknown type takes the body
as it is; a known one stops after its last field. -/
def Record.fields (typ sub : UInt8) (endian : Endian) : Reader Record :=
  match typ, sub with
  | 0, 10 => .far <$> parseFar endian
  | 0, 20 => .atr <$> parseAtr endian
  | 1, 10 => .mir <$> parseMir endian
  | 1, 20 => .mrr <$> parseMrr endian
  | 1, 30 => .pcr <$> parsePcr endian
  | 1, 40 => .hbr <$> parseHbr endian
  | 1, 50 => .sbr <$> parseSbr endian
  | 5, 10 => .pmr <$> parsePmr endian
  | 2, 10 => .wir <$> parseWir endian
  | 2, 20 => .wrr <$> parseWrr endian
  | 2, 30 => .wcr <$> parseWcr endian
  | 15, 10 => .ptr <$> parsePtr endian
  | 15, 20 => .ftr <$> parseFtr endian
  | 5, 30 => .tsr <$> parseTsr endian
  | 20, 10 => .gdr <$> parseGdr endian
  | 20, 30 => .dtr <$> parseDtr endian
  | 20, 15 => return .bps
  | 20, 20 => return .eps
  | typ, sub => fun data => .ok (.unknown typ sub data, [])

/-- Parse one record body. `endian` applies to the fixed-width fields. -/
def Record.parse (typ sub : UInt8) (data : Bytes) (endian : Endian) : Except StdfError Record :=
  Prod.fst <$> (Record.fields typ sub endian).run data

theorem Record.parse_eq_ok {typ sub : UInt8} {data : Bytes} {endian : Endian} {record : Record} :
    Record.parse typ sub data endian = .ok record ↔
      ∃ rest, (Record.fields typ sub endian).run data = .ok (record, rest) := by
  unfold Record.parse
  cases hrun : (Record.fields typ sub endian).run data with
  | error error => simp [Functor.map, Except.map]
  | ok pair =>
      obtain ⟨value, rest⟩ := pair
      simp

end Stdf
