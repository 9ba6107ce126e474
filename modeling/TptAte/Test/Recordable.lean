import TptAte.Test.MapData
import TptAte.Stdf.Capacity

/-! # Runs that can be recorded

A run is written to a file from which its map is read back exactly if its texts fit
their length bytes and its map fits a record of generic data.
-/

namespace Test

open Wire Body Stdf StdfWriter

/-! ## The records of a run around its map -/

def recordsBeforeMap (program : TestProgram) (wafer : WaferDieMap) (results : List DieTestResult)
    (tally : BinTally) (taxonomy : BinTaxonomy) (metadata : RunMetadata) : List Record :=
  identityRecords program wafer metadata ++
    (byCoord results).flatMap (dieRecords program) ++
    program.tests.map (fun spec => .tsr (testTsr results spec)) ++
    program.patternGroups.map (fun group => .tsr (groupTsr results group)) ++
    [.wrr (waferWrr wafer tally metadata), .pcr (sitePcr wafer tally 1),
      .pcr (sitePcr wafer tally 255)] ++
    tally.hardBins.toList.map (fun entry => .hbr (hardBinHbr taxonomy entry.1 entry.2)) ++
    tally.softBins.toList.map (fun entry => .sbr (softBinSbr taxonomy entry.1 entry.2))

def runMrr (metadata : RunMetadata) : Mrr :=
  { finishT := metadata.finishT, dispCod := 0x20, usrCod := 0, excCod := 0
    usrDesc := "", excDesc := "" }

/-- The texts of a run fit the length bytes of the fields that they are written to. -/
structure TextsFit (program : TestProgram) (wafer : WaferDieMap) (results : List DieTestResult)
    (tally : BinTally) (taxonomy : BinTaxonomy) (metadata : RunMetadata) : Prop where
  commandLine : FitsCn ("tpt-ate-test wafer sort: " ++ program.designName)
  lotId : FitsCn program.lotId
  partType : FitsCn program.partType
  waferId : FitsCn wafer.waferId
  nodeName : FitsCn metadata.nodeName
  testerType : FitsCn metadata.testerType
  operator : FitsCn metadata.operator
  tests : ∀ spec ∈ program.tests, FitsCn spec.name
  groups : ∀ group ∈ program.patternGroups, FitsCn group.name
  units : ∀ result ∈ results, ∀ measurement ∈ result.measurements,
    ∀ spec ∈ program.tests.find? (·.testNumber == measurement.testNumber), FitsCn spec.unit
  patterns : ∀ result ∈ results, ∀ pattern ∈ result.patterns, FitsCn pattern.name
  hardBins : ∀ entry ∈ tally.hardBins.toList, ∀ bin ∈ taxonomy.hardBins[entry.1]?, FitsCn bin.name
  softBins : ∀ entry ∈ tally.softBins.toList, ∀ bin ∈ taxonomy.softBins[entry.1]?, FitsCn bin.name

section

variable {program : TestProgram} {wafer : WaferDieMap} {results : List DieTestResult}
  {tally : BinTally} {taxonomy : BinTaxonomy} {metadata : RunMetadata}

/-- The records of a run are those before the map, the map and the MRR. -/
theorem buildWaferRunRecords_eq :
    buildWaferRunRecords program wafer results tally taxonomy metadata =
      recordsBeforeMap program wafer results tally taxonomy metadata ++
        [.gdr ⟨encodeWaferMapGdr wafer⟩, .mrr (runMrr metadata)] :=
  rfl

theorem fitsCn_getD {text : Option String} (hfits : ∀ name ∈ text, FitsCn name) :
    FitsCn (text.getD "") := by
  cases text with
  | none => exact Nat.zero_le _
  | some text => exact hfits text rfl

theorem mem_byCoord {result : DieTestResult} : result ∈ byCoord results ↔ result ∈ results :=
  (List.mergeSort_perm results _).mem_iff

/-- What holds of the records before the map holds of the records of each kind. -/
theorem forall_mem_recordsBeforeMap {P : Record → Prop} :
    (∀ record ∈ recordsBeforeMap program wafer results tally taxonomy metadata, P record) ↔
      (∀ record ∈ identityRecords program wafer metadata, P record) ∧
        (∀ result ∈ results, P .bps ∧
          (∀ measurement ∈ result.measurements, P (.ptr (measurementPtr program measurement))) ∧
          (∀ pattern ∈ result.patterns, P (.ftr (patternFtr pattern))) ∧ P .eps) ∧
        (∀ spec ∈ program.tests, P (.tsr (testTsr results spec))) ∧
        (∀ group ∈ program.patternGroups, P (.tsr (groupTsr results group))) ∧
        P (.wrr (waferWrr wafer tally metadata)) ∧
        P (.pcr (sitePcr wafer tally 1)) ∧ P (.pcr (sitePcr wafer tally 255)) ∧
        (∀ entry ∈ tally.hardBins.toList, P (.hbr (hardBinHbr taxonomy entry.1 entry.2))) ∧
        (∀ entry ∈ tally.softBins.toList, P (.sbr (softBinSbr taxonomy entry.1 entry.2))) := by
  have hdies : (∀ record ∈ (byCoord results).flatMap (dieRecords program), P record) ↔
      ∀ result ∈ results, ∀ record ∈ dieRecords program result, P record := by
    simp only [List.mem_flatMap, mem_byCoord]
    exact ⟨fun h result hresult record hrecord => h record ⟨result, hresult, hrecord⟩,
      fun h record ⟨result, hresult, hrecord⟩ => h result hresult record hrecord⟩
  have hnil : (∀ record ∈ ([] : List Record), P record) ↔ True := by simp
  simp only [recordsBeforeMap, List.forall_mem_append, hdies, dieRecords, List.forall_mem_cons,
    List.forall_mem_map, hnil, and_true, and_assoc, List.cons_append]

theorem asBytes_append (text text' : String) :
    asBytes (text ++ text') = asBytes text ++ asBytes text' := by
  simp [asBytes]

/-- A part of a text that fits does so, too. -/
theorem fitsCn_of_append {text text' : String} (hfits : FitsCn (text ++ text')) : FitsCn text' := by
  rw [FitsCn, asBytes_append, List.length_append] at hfits
  exact Nat.le_of_add_left_le hfits

theorem units_measurementPtr (measurement : MeasurementOutcome) :
    (measurementPtr program measurement).units =
      ((program.tests.find? (·.testNumber == measurement.testNumber)).map (·.unit)).getD "" := by
  simp only [measurementPtr]
  split <;> rfl

/-- The records of a run are made for texts with a length byte. -/
theorem compact_recordsBeforeMap :
    ∀ record ∈ recordsBeforeMap program wafer results tally taxonomy metadata,
      record.Compact := by
  rw [forall_mem_recordsBeforeMap]
  simp [identityRecords, Record.Compact, patternFtr, Ftr.pattern]

theorem measurementPtr_wellFormed {measurement : MeasurementOutcome}
    (hnames : ∀ spec ∈ program.tests, FitsCn spec.name)
    (hunits : ∀ spec ∈ program.tests.find? (·.testNumber == measurement.testNumber),
      FitsCn spec.unit) :
    (measurementPtr program measurement).WellFormed := by
  have hname : FitsCn (((program.tests.find? (·.testNumber == measurement.testNumber)).map
      (·.name)).getD "") := by
    apply fitsCn_getD
    intro name hname
    obtain ⟨spec, hspec, rfl⟩ := Option.mem_map.mp hname
    exact hnames spec (List.mem_of_find?_eq_some hspec)
  have hunit : FitsCn (((program.tests.find? (·.testNumber == measurement.testNumber)).map
      (·.unit)).getD "") := by
    apply fitsCn_getD
    intro unit hunit
    obtain ⟨spec, hspec, rfl⟩ := Option.mem_map.mp hunit
    exact hunits spec hspec
  have hptr := Ptr.measured_wellFormed measurement.testNumber 1 1 measurement.value hname hunit
  simp only [measurementPtr]
  split
  · exact hptr _ _
  · exact { hptr _ _ with }

theorem fieldsWellFormed_identityRecords
    (hfit : TextsFit program wafer results tally taxonomy metadata) :
    ∀ record ∈ identityRecords program wafer metadata, record.FieldsWellFormed := by
  have hempty : FitsCn "" := Nat.zero_le _
  have hnames : FitsCn "tpt-ate-test" ∧ FitsCn "0.1.0" ∧ FitsCn "W" ∧ FitsCn "SIM-CHAN-1" ∧
      FitsCn "PHYS-1" ∧ FitsCn "LOG-1" := by
    unfold FitsCn
    decide +kernel
  simp [identityRecords, Record.FieldsWellFormed, Mir.texts, hempty, hnames, hfit.commandLine,
    fitsCn_of_append hfit.commandLine, hfit.lotId, hfit.partType, hfit.waferId, hfit.nodeName,
    hfit.testerType, hfit.operator]
  decide

theorem fieldsWellFormed_recordsBeforeMap
    (hfit : TextsFit program wafer results tally taxonomy metadata) :
    ∀ record ∈ recordsBeforeMap program wafer results tally taxonomy metadata,
      record.FieldsWellFormed := by
  have hempty : FitsCn "" := Nat.zero_le _
  rw [forall_mem_recordsBeforeMap]
  refine ⟨fieldsWellFormed_identityRecords hfit, fun result hresult => ⟨trivial, ?_, ?_, trivial⟩,
    fun spec hspec => ⟨hfit.tests spec hspec, hempty, hempty⟩,
    fun group hgroup => ⟨hfit.groups group hgroup, hempty, hempty⟩, ?_, trivial, trivial,
    fun entry hentry => ?_, fun entry hentry => ?_⟩
  · exact fun measurement hmeasurement =>
      measurementPtr_wellFormed hfit.tests (hfit.units result hresult measurement hmeasurement)
  · exact fun pattern hpattern =>
      Ftr.pattern_wellFormed _ _ _ _ (hfit.patterns result hresult pattern hpattern)
  · simp [Record.FieldsWellFormed, Wrr.texts, waferWrr, hfit.waferId, hempty]
  · apply fitsCn_getD
    intro name hname
    obtain ⟨bin, hbin, rfl⟩ := Option.mem_map.mp hname
    exact hfit.hardBins entry hentry bin hbin
  · apply fitsCn_getD
    intro name hname
    obtain ⟨bin, hbin, rfl⟩ := Option.mem_map.mp hname
    exact hfit.softBins entry hentry bin hbin

/-- The records before the map are well formed if the texts fit. -/
theorem wellFormed_recordsBeforeMap
    (hfit : TextsFit program wafer results tally taxonomy metadata) :
    ∀ record ∈ recordsBeforeMap program wafer results tally taxonomy metadata,
      record.WellFormed :=
  fun record hrecord => ⟨fieldsWellFormed_recordsBeforeMap hfit record hrecord,
    fun _ hbody => length_encodeBody_le (compact_recordsBeforeMap record hrecord) hbody⟩

/-- Texts that were written fit. -/
theorem textsFit_of_encodeBody
    (hbodies : ∀ record ∈ recordsBeforeMap program wafer results tally taxonomy metadata,
      ∃ body, record.encodeBody = some body) :
    TextsFit program wafer results tally taxonomy metadata := by
  rw [forall_mem_recordsBeforeMap] at hbodies
  obtain ⟨hidentity, hdies, htests, hgroups, -, -, -, hhard, hsoft⟩ := hbodies
  simp only [identityRecords, List.forall_mem_cons] at hidentity
  obtain ⟨-, ⟨_, hatr⟩, ⟨_, hmir⟩, -, ⟨_, hwir⟩, -⟩ := hidentity
  -- each text stands in a record of its own, and that record was encoded
  exact {
    commandLine := fitsCn_of_emit hatr (by simp)
    lotId := fitsCn_of_emit hmir (by simp)
    partType := fitsCn_of_emit hmir (by simp)
    waferId := fitsCn_of_emit hwir (by simp)
    nodeName := fitsCn_of_emit hmir (by simp)
    testerType := fitsCn_of_emit hmir (by simp)
    operator := fitsCn_of_emit hmir (by simp)
    tests spec hspec := by
      obtain ⟨_, hbody⟩ := htests spec hspec
      exact fitsCn_of_emit hbody (by simp [testTsr, synopsis])
    groups group hgroup := by
      obtain ⟨_, hbody⟩ := hgroups group hgroup
      exact fitsCn_of_emit hbody (by simp [groupTsr, synopsis])
    units result hresult measurement hmeasurement spec hspec := by
      obtain ⟨_, hbody⟩ := (hdies result hresult).2.1 measurement hmeasurement
      have hunits := (fitsCn_of_encodePtr hbody).2
      rw [Option.mem_def] at hspec
      rw [units_measurementPtr, hspec] at hunits
      exact hunits
    patterns result hresult pattern hpattern := by
      obtain ⟨_, hbody⟩ := (hdies result hresult).2.2.1 pattern hpattern
      exact fitsCn_of_encodeFtr hbody rfl
    hardBins entry hentry bin hbin := by
      obtain ⟨_, hbody⟩ := hhard entry hentry
      have hname : FitsCn (hardBinHbr taxonomy entry.1 entry.2).hbinNam :=
        fitsCn_of_emit hbody (by simp)
      rw [Option.mem_def] at hbin
      simpa [hardBinHbr, hbin] using hname
    softBins entry hentry bin hbin := by
      obtain ⟨_, hbody⟩ := hsoft entry hentry
      have hname : FitsCn (softBinSbr taxonomy entry.1 entry.2).sbinNam :=
        fitsCn_of_emit hbody (by simp)
      rw [Option.mem_def] at hbin
      simpa [softBinSbr, hbin] using hname }

end

/-! ## Recording and reading back -/

def gdr? : Record → Option Gdr
  | .gdr r => some r
  | _ => none

/-- A run is written to a file without a panic, and the file is read back with one map,
which has an entry for each die. -/
def Recorded (program : TestProgram) (wafer : WaferDieMap) (results : List DieTestResult)
    (tally : BinTally) (taxonomy : BinTaxonomy) (metadata : RunMetadata) : Prop :=
  ∃ bytes records gdr snapshot,
    file (buildWaferRunRecords program wafer results tally taxonomy metadata) = some bytes ∧
      (StdfReader.new (.whole bytes)).readAll.1 = .ok records ∧
      records.filterMap gdr? = [gdr] ∧ decodeWaferMapGdr gdr = some (some snapshot) ∧
      snapshot.dies.map (·.1) = wafer.dies.toList.map (·.1)

/-- The map of a run fits a record of generic data. -/
def MapFits (wafer : WaferDieMap) : Prop :=
  1 + (asBytes wafer.waferId).length + entryLength * wafer.dies.size ≤ 65533

section

variable {program : TestProgram} {wafer : WaferDieMap} {results : List DieTestResult}
  {tally : BinTally} {taxonomy : BinTaxonomy} {metadata : RunMetadata}

theorem filterMap_gdr? :
    (buildWaferRunRecords program wafer results tally taxonomy metadata).filterMap gdr? =
      [⟨encodeWaferMapGdr wafer⟩] := by
  have hbefore : (recordsBeforeMap program wafer results tally taxonomy metadata).filterMap gdr? =
      [] := by
    rw [List.filterMap_eq_nil_iff]
    intro record hrecord
    have hcompact := compact_recordsBeforeMap record hrecord
    cases record with
    | gdr r => exact hcompact.elim
    | _ => rfl
  rw [buildWaferRunRecords_eq, List.filterMap_append, hbefore]
  rfl

/-- A run of fitting texts and a fitting map is well formed. -/
theorem wellFormed_buildWaferRunRecords
    (hfit : TextsFit program wafer results tally taxonomy metadata) (hmap : MapFits wafer) :
    ∀ record ∈ buildWaferRunRecords program wafer results tally taxonomy metadata,
      record.WellFormed := by
  have hpayload : (encodeWaferMapGdr wafer).length ≤ 65533 := by
    rw [length_encodeWaferMapGdr]
    exact hmap
  rw [buildWaferRunRecords_eq, List.forall_mem_append]
  refine ⟨wellFormed_recordsBeforeMap hfit, ?_⟩
  simp only [List.forall_mem_cons]
  refine ⟨⟨hpayload.trans (by decide), fun body hbody => ?_⟩,
    ⟨⟨Nat.zero_le _, Nat.zero_le _⟩, fun body hbody => ?_⟩, by simp⟩
  · rw [length_encodeGdr hbody]
    omega
  · exact @length_encodeBody_le (.mrr (runMrr metadata)) trivial body hbody

/-- A run whose texts and map fit is recorded. -/
theorem recorded_of_fits (hfit : TextsFit program wafer results tally taxonomy metadata)
    (hmap : MapFits wafer) : Recorded program wafer results tally taxonomy metadata := by
  obtain ⟨bytes, hfile, hread⟩ := readAll_file _ (wellFormed_buildWaferRunRecords hfit hmap)
  have hfar : withFar (buildWaferRunRecords program wafer results tally taxonomy metadata) =
      buildWaferRunRecords program wafer results tally taxonomy metadata :=
    rfl
  refine ⟨bytes, _, _, _, hfile, hfar ▸ hread, filterMap_gdr?,
    decodeWaferMapGdr_encodeWaferMapGdr hfit.waferId, ?_⟩
  rw [List.map_map]
  rfl

/-- A map that is written but does not fit makes the file unreadable. -/
theorem decodeAll_overlong {front rest body : Bytes}
    (hwf : ∀ record ∈ recordsBeforeMap program wafer results tally taxonomy metadata,
      record.WellFormed)
    (hfront : emit ((recordsBeforeMap program wafer results tally taxonomy metadata).map
      Record.encode) = some front)
    (hbody : encodeGdr ⟨encodeWaferMapGdr wafer⟩ = some body) (hmap : ¬ MapFits wafer) :
    ∃ error, decodeAll .little false (front ++ (recordHeader 20 10 body.length ++ (body ++ rest))) =
      .error error := by
  have hlarge : 65533 < (encodeWaferMapGdr wafer).length := by
    rw [length_encodeWaferMapGdr]
    exact Nat.lt_of_not_le hmap
  have hlength := length_encodeGdr hbody
  have hle := (encodeGdr_eq_some.mp hbody).1
  have hwrapped : body.length % 65536 ≤ 1 := by omega
  have hdata : 2 ≤ (body ++ rest).length := by
    rw [List.length_append]
    omega
  obtain ⟨error, hnext⟩ := nextFrame_shortGdr hwrapped hdata
  refine ⟨error, ?_⟩
  rw [decodeAll_emit_append (by simp [recordsBeforeMap, identityRecords]) hwf
    (.inr (by simp [recordsBeforeMap, identityRecords])) hfront, decodeAll_eq, hnext]
  rfl

/-- The texts and the map of a run that was recorded fit. -/
theorem fits_of_recorded (hrecorded : Recorded program wafer results tally taxonomy metadata) :
    TextsFit program wafer results tally taxonomy metadata ∧ MapFits wafer := by
  obtain ⟨bytes, records, -, -, hfile, hread, -⟩ := hrecorded
  have hemit : emit ((buildWaferRunRecords program wafer results tally taxonomy metadata).map
      Record.encode) = some bytes :=
    (file_eq _).symm.trans hfile
  rw [buildWaferRunRecords_eq, List.map_append] at hemit
  obtain ⟨front, tail, hfront, htail, rfl⟩ := emit_append_eq_some hemit
  have hfit : TextsFit program wafer results tally taxonomy metadata := by
    apply textsFit_of_encodeBody
    intro record hrecord
    obtain ⟨encoded, hencode⟩ := mem_of_emit hfront (List.mem_map_of_mem hrecord)
    obtain ⟨body, hbody, -⟩ := encode_eq_some.mp hencode
    exact ⟨body, hbody⟩
  refine ⟨hfit, by_contra fun hmap => ?_⟩
  simp only [List.map_cons, List.map_nil, emit, Option.bind_eq_bind, Option.bind_eq_some_iff,
    Option.pure_def, Option.some.injEq] at htail
  obtain ⟨encoded, hencode, rest, -, rfl⟩ := htail
  obtain ⟨body, hbody, rfl⟩ := encode_eq_some.mp hencode
  obtain ⟨error, hdecode⟩ := @decodeAll_overlong _ _ _ _ _ _ front rest body
    (wellFormed_recordsBeforeMap hfit) hfront hbody hmap
  have hdecoded : decodeAll .little false
      (front ++ (recordHeader 20 10 body.length ++ (body ++ rest))) = .ok records := by
    rw [← readAll_whole, ← List.append_assoc (recordHeader 20 10 body.length)]
    exact hread
  rw [hdecode] at hdecoded
  cases hdecoded

/-- A run is recorded exactly if its texts fit their length bytes and its map, at
thirteen bytes a die, fits a record of generic data. -/
theorem recorded_iff (program : TestProgram) (wafer : WaferDieMap) (results : List DieTestResult)
    (tally : BinTally) (taxonomy : BinTaxonomy) (metadata : RunMetadata) :
    Recorded program wafer results tally taxonomy metadata ↔
      TextsFit program wafer results tally taxonomy metadata ∧ MapFits wafer :=
  ⟨fits_of_recorded, fun h => recorded_of_fits h.1 h.2⟩

end

def rowDie (x : Nat) : DieCoord × DieState := (⟨Int32.ofNat x, 0⟩, .untested)

/-- A wafer of dies in a row. -/
def rowWafer (count : Nat) : WaferDieMap :=
  { waferId := "W1"
    dies := Std.ExtTreeMap.ofList ((List.range count).map rowDie)
    dieHeightMils := .one
    dieWidthMils := .one
    center := ⟨0, 0⟩ }

theorem size_rowWafer {count : Nat} (hcount : count ≤ 2 ^ 31) :
    (rowWafer count).dies.size = count := by
  have hdistinct : ((List.range count).map rowDie).Pairwise
      fun a b => ¬ compare a.1 b.1 = .eq := by
    rw [List.pairwise_map]
    refine List.pairwise_lt_range.imp_of_mem ?_
    intro x x' hx hx' hlt heq
    rw [List.mem_range] at hx hx'
    have hsame : Int32.ofNat x = Int32.ofNat x' :=
      congrArg DieCoord.x (Std.LawfulEqOrd.eq_of_compare heq)
    have hvalue := congrArg Int32.toInt hsame
    rw [Int32.toInt_ofNat_of_lt (by omega), Int32.toInt_ofNat_of_lt (by omega)] at hvalue
    omega
  rw [rowWafer, Std.ExtTreeMap.size_ofList hdistinct, List.length_map, List.length_range]

/-- The row is recorded before any of its dies is tested. -/
theorem textsFit_rowWafer (count : Nat) :
    TextsFit lenientProgram (rowWafer count) [] .empty .defaults
      (.default 1700000900 1700000900) := by
  have hid : FitsCn (rowWafer count).waferId := show (asBytes "W1").length ≤ 255 by decide +kernel
  have hdesign : FitsCn ("tpt-ate-test wafer sort: " ++ lenientProgram.designName) :=
    show (asBytes ("tpt-ate-test wafer sort: " ++ "D")).length ≤ 255 by decide +kernel
  have hprogram (text : String)
      (htext : text ∈ ["L", "P", "TPT-SIM", "TPT-SIM-ATE", "tpt-ate-test", "IDDQ"]) :
      FitsCn text := by
    have hall : ∀ text ∈ ["L", "P", "TPT-SIM", "TPT-SIM-ATE", "tpt-ate-test", "IDDQ"],
        (asBytes text).length ≤ 255 := by
      decide +kernel
    exact hall text htext
  exact {
    commandLine := hdesign
    lotId := hprogram "L" (by simp)
    partType := hprogram "P" (by simp)
    waferId := hid
    nodeName := hprogram "TPT-SIM" (by simp)
    testerType := hprogram "TPT-SIM-ATE" (by simp)
    operator := hprogram "tpt-ate-test" (by simp)
    tests := List.forall_mem_singleton.mpr (hprogram "IDDQ" (by simp))
    groups := by simp [lenientProgram]
    units := by simp
    patterns := by simp
    hardBins := by simp [BinTally.empty]
    softBins := by simp [BinTally.empty] }

/-- A wafer of 5041 dies cannot be recorded. -/
theorem not_recorded_rowWafer :
    ¬ ∀ (program : TestProgram) (wafer : WaferDieMap) (results : List DieTestResult)
      (tally : BinTally) (taxonomy : BinTaxonomy) (metadata : RunMetadata),
      TextsFit program wafer results tally taxonomy metadata →
        Recorded program wafer results tally taxonomy metadata := by
  intro hall
  have hmap := (fits_of_recorded (hall _ _ _ _ _ _ (textsFit_rowWafer 5041))).2
  have hid : (asBytes (rowWafer 5041).waferId).length = 2 := by
    change (asBytes "W1").length = 2
    decide +kernel
  rw [MapFits, size_rowWafer (by decide), hid] at hmap
  exact absurd hmap (by decide)

end Test
