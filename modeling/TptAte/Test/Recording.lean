import TptAte.Test.Accounted
import TptAte.Stdf.Records

/-! # Wafer-run recording

The STDF record stream of a completed wafer run: the identity of the run, the data of
each die in ascending order of the locations, synopses of the tests, the counters of
the map and of the tally, and the map itself as generic data.
-/

namespace Test

open Wire Stdf

/-- Run identity written into the MIR and ATR records. -/
structure RunMetadata where
  (nodeName testerType operator : String)
  (startT finishT : UInt32)
  deriving DecidableEq, Repr

/-- The identity of the simulated tester, from two readings of the clock. -/
def RunMetadata.default (now later : UInt32) : RunMetadata :=
  { nodeName := "TPT-SIM", testerType := "TPT-SIM-ATE", operator := "tpt-ate-test"
    startT := now - min now 900, finishT := later }

/-! ## The map as generic data -/

def encodeDie (coord : DieCoord) (state : DieState) : Bytes :=
  Word.i32.bytes .little coord.x ++ Word.i32.bytes .little coord.y ++
    match state with
    | .tested outcome =>
        Word.u16.bytes .little outcome.hardBin ++ Word.u16.bytes .little outcome.softBin ++
          [outcome.passed.toUInt8]
    | _ => [0, 0, 0, 0, 0]

/-- The payload of the GDR: the wafer id behind its length, then the dies in ascending
order. -/
def encodeWaferMapGdr (wafer : WaferDieMap) : Bytes :=
  let coords := wafer.dies.toList.mergeSort fun a b => (compare a.1 b.1).isLE
  UInt8.ofNat (asBytes wafer.waferId).length :: asBytes wafer.waferId ++
    coords.flatMap fun entry => encodeDie entry.1 entry.2

structure WaferMapSnapshot where
  waferId : String
  dies : List (DieCoord × Option DieTestOutcome)
  deriving DecidableEq, Repr

def entryLength : Nat := 4 + 4 + 2 + 2 + 1

/-- A die from its bytes; one with zeros only is not tested. -/
def decodeDie (entry : Bytes) : DieCoord × Option DieTestOutcome :=
  let number (start width : Nat) : Nat := Endian.little.value ((entry.drop start).take width)
  let hard := Word.u16.ofNat (number 8 2)
  let soft := Word.u16.ofNat (number 10 2)
  let passed := number 12 1 != 0
  (⟨Word.i32.ofNat (number 0 4), Word.i32.ofNat (number 4 4)⟩,
    if hard = 0 ∧ soft = 0 ∧ !passed then none
    else some { passed, hardBin := hard, softBin := soft })

/-- As many dies as the bytes hold; what is left over at the end is dropped. -/
def decodeDies (data : Bytes) : List (DieCoord × Option DieTestOutcome) :=
  if entryLength ≤ data.length then
    decodeDie (data.take entryLength) :: decodeDies (data.drop entryLength)
  else []
termination_by data.length
decreasing_by
  rw [List.length_drop]
  have hpos : 0 < entryLength := by decide
  omega

/-- Decode the payload of a GDR; an empty one is refused. The outer `none` is the panic
on a payload that ends within the wafer id. -/
def decodeWaferMapGdr (gdr : Gdr) : Option (Option WaferMapSnapshot) :=
  match gdr.genData with
  | [] => some none
  | length :: data =>
      if data.length < length.toNat then none
      else
        some (some { waferId := fromUtf8Lossy (data.take length.toNat)
                     dies := decodeDies (data.drop length.toNat) })

/-! ## The record stream -/

def identityRecords (program : TestProgram) (wafer : WaferDieMap) (metadata : RunMetadata) :
    List Record :=
  [.far { cpuType := CpuType.x86, stdfVer := stdfVersionV4 },
    .atr { modTimn := metadata.startT
           cmdLine := "tpt-ate-test wafer sort: " ++ program.designName },
    .mir { setupT := metadata.startT, startT := metadata.startT, statBin := 0, modeCod := 0x20
           rtnCod := 0x20, protCod := 0x20, burnDay := 0, cmtCnt := 0, lotId := program.lotId
           partTyp := program.partType, nodeNam := metadata.nodeName
           tstrTyp := metadata.testerType, jobNam := program.designName, jobRev := ""
           sblotId := wafer.waferId, operNam := metadata.operator, execTyp := "tpt-ate-test"
           execVer := "0.1.0", testCod := "W", tstTemp := "", userTxt := "", auxFile := ""
           pkgTyp := "", familyId := "", dateCod := "", facilId := "", floorId := ""
           procId := "", operFrq := "", specNam := "", specVer := "", flowId := ""
           setupId := "", dsgnRev := "", engId := "", romCod := "", serlNum := ""
           suprNam := "" },
    .pmr { pinIdx := 1, chanTyp := 0, chanNam := "SIM-CHAN-1", phyNam := "PHYS-1"
           logNam := "LOG-1", headNum := some 1, siteNum := some 1 },
    .wir { headNum := 1, siteGrp := 0, startT := metadata.startT, waferId := wafer.waferId },
    .wcr { wafrSiz := ⟨0x43160000⟩, dieHt := wafer.dieHeightMils, dieWid := wafer.dieWidthMils
           wfUnits := 3, wfFlat := 0b100, centerX := wafer.center.x.toInt16
           centerY := wafer.center.y.toInt16, posX := 0x52, posY := 0x54 }]

/-- The PTR of a measurement, with the limits of its test where the program has it. -/
def measurementPtr (program : TestProgram) (measurement : MeasurementOutcome) : Ptr :=
  let spec := program.tests.find? (·.testNumber == measurement.testNumber)
  let limits := (spec.map fun spec => (spec.loLimit.getD .zero, spec.hiLimit.getD .zero)).getD
    (.zero, .zero)
  let ptr := Ptr.measured measurement.testNumber 1 1 measurement.value
    ((spec.map (·.name)).getD "") ((spec.map (·.unit)).getD "") limits.1 limits.2
  if measurement.passed then ptr else { ptr with testFlg := ptr.testFlg ||| TestFlg.testFailed }

def patternFtr (pattern : PatternOutcome) : Ftr :=
  Ftr.pattern pattern.testNumber 1 1 pattern.passed pattern.name

def dieRecords (program : TestProgram) (result : DieTestResult) : List Record :=
  .bps :: result.measurements.map (fun measurement => .ptr (measurementPtr program measurement)) ++
    result.patterns.map (fun pattern => .ftr (patternFtr pattern)) ++ [.eps]

/-- Count the verdict of one result. -/
def countVerdict (pick : DieTestResult → Option Bool) (counts : UInt32 × UInt32)
    (result : DieTestResult) : UInt32 × UInt32 :=
  match pick result with
  | some passed => (counts.1 + 1, counts.2 + (!passed).toUInt32)
  | none => counts

/-- In how many results there is a verdict, and in how many of them it is a failure. -/
def summarize (results : List DieTestResult) (pick : DieTestResult → Option Bool) :
    UInt32 × UInt32 :=
  results.foldl (countVerdict pick) (0, 0)

/-- The verdict of a result on a parametric test. -/
def DieTestResult.measured (testNumber : UInt32) (result : DieTestResult) : Option Bool :=
  (result.measurements.find? (·.testNumber == testNumber)).map (·.passed)

def DieTestResult.ran (testNumber : UInt32) (result : DieTestResult) : Option Bool :=
  (result.patterns.find? (·.testNumber == testNumber)).map (·.passed)

def synopsis (testTyp : UInt8) (testNumber : UInt32) (name : String) (counts : UInt32 × UInt32) :
    Tsr :=
  { headNum := 1, siteNum := 255, testTyp, testNum := testNumber, execCnt := counts.1
    failCnt := counts.2, alarmCnt := 0, testNam := name, seqName := "", testLbl := "" }

def testTsr (results : List DieTestResult) (spec : TestSpec) : Tsr :=
  synopsis 0x50 spec.testNumber spec.name (summarize results (·.measured spec.testNumber))

def groupTsr (results : List DieTestResult) (group : PatternGroup) : Tsr :=
  synopsis 0x46 group.testNumber group.name (summarize results (·.ran group.testNumber))

def waferWrr (wafer : WaferDieMap) (tally : BinTally) (metadata : RunMetadata) : Wrr :=
  let (tested, passed) := wafer.testedCounts
  { headNum := 1, siteGrp := 0, finishT := metadata.finishT, partCnt := tested, rtstCnt := 0
    abrtCnt := tally.aborted, goodCnt := passed, funcCnt := 0, waferId := wafer.waferId
    fabwfId := "", frameId := "", maskId := "", usrDesc := "", excDesc := "" }

def sitePcr (wafer : WaferDieMap) (tally : BinTally) (site : UInt8) : Pcr :=
  let (tested, passed) := wafer.testedCounts
  { headNum := 1, siteNum := site, partCnt := tested, rtstCnt := 0, abrtCnt := tally.aborted
    goodCnt := passed, funcCnt := 0 }

/-- A bin that the taxonomy does not define fails. -/
def hardBinHbr (taxonomy : BinTaxonomy) (number : UInt16) (count : UInt32) : Hbr :=
  let definition := taxonomy.hardBins[number]?
  { headNum := 1, siteNum := 255, hbinNum := number, hbinCnt := count
    hbinPf := (definition.map fun bin => if bin.pass then 0x50 else 0x46).getD 0x46
    hbinNam := (definition.map (·.name)).getD "" }

def softBinSbr (taxonomy : BinTaxonomy) (number : UInt16) (count : UInt32) : Sbr :=
  let definition := taxonomy.softBins[number]?
  { headNum := 1, siteNum := 255, sbinNum := number, sbinCnt := count
    sbinPf := (definition.map fun bin =>
      if taxonomy.isPassHardBin bin.hardBin then 0x50 else 0x46).getD 0x46
    sbinNam := (definition.map (·.name)).getD "" }

/-- The results in ascending order of their locations; those of one location stay in
their order. -/
def byCoord (results : List DieTestResult) : List DieTestResult :=
  results.mergeSort fun a b => (compare a.coord b.coord).isLE

def buildWaferRunRecords (program : TestProgram) (wafer : WaferDieMap)
    (results : List DieTestResult) (tally : BinTally) (taxonomy : BinTaxonomy)
    (metadata : RunMetadata) : List Record :=
  identityRecords program wafer metadata ++
    (byCoord results).flatMap (dieRecords program) ++
    program.tests.map (fun spec => .tsr (testTsr results spec)) ++
    program.patternGroups.map (fun group => .tsr (groupTsr results group)) ++
    [.wrr (waferWrr wafer tally metadata), .pcr (sitePcr wafer tally 1),
      .pcr (sitePcr wafer tally 255)] ++
    tally.hardBins.toList.map (fun entry => .hbr (hardBinHbr taxonomy entry.1 entry.2)) ++
    tally.softBins.toList.map (fun entry => .sbr (softBinSbr taxonomy entry.1 entry.2)) ++
    [.gdr ⟨encodeWaferMapGdr wafer⟩,
      .mrr { finishT := metadata.finishT, dispCod := 0x20, usrCod := 0, excCod := 0
             usrDesc := "", excDesc := "" }]

/-! ## A run as it is recorded -/

/-- What a run leaves: the results without a place, the map, the tally and the record
stream. -/
structure WaferRun where
  unmatched : UInt32
  wafer : WaferDieMap
  tally : BinTally
  records : List Record

/-- Sort the results into the map, count them and record the run. -/
def recordRun (program : TestProgram) (taxonomy : BinTaxonomy) (metadata : RunMetadata)
    (wafer : WaferDieMap) (results : List DieTestResult) : WaferRun :=
  let (unmatched, wafer) := sortWafer results wafer program taxonomy
  let tally := tally results program taxonomy
  { unmatched, wafer, tally
    records := buildWaferRunRecords program wafer results tally taxonomy metadata }

end Test
