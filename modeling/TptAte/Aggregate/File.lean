import TptAte.Aggregate.Schema
import TptAte.Json.Reread
import TptAte.Wire.Source

/-! # File-based outcome exchange

Reports are written to and read from standalone files. What may be shared is checked
where a report is written, and whether its version is understood where it is read.
-/

namespace Aggregate

open Wire Test Json Codec

/-! ## What the representation returns -/

theorem u32_returns (n : UInt32) : u32.Returns n := by
  have hlt := n.toNat_lt
  apply integer_returns
  · exact Int.natCast_nonneg _
  · omega
  · simp

theorem u16_returns (n : UInt16) : u16.Returns n := by
  have hlt := n.toNat_lt
  apply integer_returns
  · exact Int.natCast_nonneg _
  · omega
  · simp

theorem i32_returns (n : Int32) : i32.Returns n :=
  integer_returns n.le_toInt n.toInt_le n.ofInt_toInt

/-- The key of a bin is read back from its text. -/
theorem parseBin_repr (bin : UInt16) : parseBin (Nat.repr bin.toNat) = some bin := by
  have hvalue : Nat.ofDigitChars 10 (Nat.repr bin.toNat).toList 0 = bin.toNat := by
    rw [Nat.toList_repr, Nat.ofDigitChars_ten_toDigits]
  rw [parseBin, hvalue, if_pos ⟨rfl, bin.toNat_lt⟩, UInt16.ofNat_toNat]

/-- A map of bins is returned if what it holds is. -/
theorem bins_returns {α : Type} {C : Codec α} {buckets : Std.ExtTreeMap UInt16 α}
    (hvalues : ∀ entry ∈ buckets.toList, C.Returns entry.2) : (bins C).Returns buckets :=
  map_returns parseBin_repr hvalues

theorem dieCoord_returns (coord : DieCoord) : dieCoord.Returns coord := by
  refine (struct_imap_returns_iff (by simp) (fun _ => rfl) fun _ => rfl).mpr ?_
  exact ⟨i32_returns _, i32_returns _, trivial⟩

theorem dieTestOutcome_returns (outcome : DieTestOutcome) : dieTestOutcome.Returns outcome := by
  refine (struct_imap_returns_iff (by simp) (fun _ => rfl) fun _ => rfl).mpr ?_
  exact ⟨bool_returns _, u16_returns _, u16_returns _, trivial⟩

theorem dieState_returns (state : DieState) : dieState.Returns state := by
  rw [dieState, enum_returns_iff]
  cases state with
  | untested => rfl
  | excluded => rfl
  | tested outcome =>
      refine (newtype_returns_iff fun _ _ => DieState.tested.inj).mpr ?_
      exact dieTestOutcome_returns outcome

theorem entry_returns (site : DieCoord × DieState) : entry.Returns site := by
  refine (struct_imap_returns_iff (by simp) (fun _ => rfl) fun _ => rfl).mpr ?_
  exact ⟨dieCoord_returns _, dieState_returns _, trivial⟩

theorem binCount_returns (bucket : BinCount) : binCount.Returns bucket := by
  refine (struct_imap_returns_iff (by simp) (fun _ => rfl) fun _ => rfl).mpr ?_
  exact ⟨u32_returns _, bool_returns _, trivial⟩

theorem patterningTech_returns (tech : PatterningTech) : patterningTech.Returns tech := by
  apply names_returns
  cases tech <;> rfl

theorem measurementQuantity_returns (quantity : MeasurementQuantity) :
    measurementQuantity.Returns quantity := by
  apply names_returns
  cases quantity <;> rfl

theorem consentScope_returns (consent : ConsentScope) : consentScope.Returns consent := by
  apply names_returns
  cases consent <;> rfl

theorem schemaVersion_returns (version : SchemaVersion) : schemaVersion.Returns version := by
  refine (struct_imap_returns_iff (by simp) (fun _ => rfl) fun _ => rfl).mpr ?_
  exact ⟨u32_returns _, u32_returns _, trivial⟩

theorem processDeviation_returns (deviation : ProcessDeviation) :
    processDeviation.Returns deviation := by
  refine (struct_imap_returns_iff (by simp) (fun _ => rfl) fun _ => rfl).mpr ?_
  exact ⟨string_returns _, string_returns _, trivial⟩

theorem signature_returns (sign : Option Signature) : (option signature).Returns sign := by
  cases sign with
  | none => exact option_returns_none _
  | some sign =>
      refine (option_returns_some (by simp [signature, imap, struct])).mpr ?_
      refine (struct_imap_returns_iff (by simp) (fun _ => rfl) fun _ => rfl).mpr ?_
      exact ⟨string_returns _, string_returns _, trivial⟩

/-! ## The numbers of a report -/

def TestOutcome.doubles (outcome : TestOutcome) : List Float :=
  outcome.binSummary.yieldFraction :: outcome.packageTest.map (·.measuredValue)

def ManufacturingTrack.doubles : ManufacturingTrack → List Float
  | .testAssembly outcome => outcome.doubles
  | _ => []

/-- The singles of an outcome, which are the sizes of its dies. -/
def ManufacturingTrack.singles : ManufacturingTrack → List F32
  | .testAssembly outcome => [outcome.waferMap.dieHeightMils, outcome.waferMap.dieWidthMils]
  | _ => []

def OutcomeReport.doubles (report : OutcomeReport) : List Float :=
  report.track.doubles ++ report.measuredGeometry.map (·.deviation) ++
    report.electricalTest.map (·.measuredValue) ++ [report.yieldOutcome.yieldFraction]

/-- The numbers of a report are finite. -/
structure OutcomeReport.Finite (report : OutcomeReport) : Prop where
  doubles : ∀ x ∈ report.doubles, x.isFinite = true
  singles : ∀ x ∈ report.track.singles, isFiniteF32 x = true

/-- Whether a report is finite can be decided from its lists of numbers. -/
theorem OutcomeReport.finite_iff (report : OutcomeReport) :
    report.Finite ↔ (∀ x ∈ report.doubles, x.isFinite = true) ∧
      ∀ x ∈ report.track.singles, isFiniteF32 x = true :=
  ⟨fun h => ⟨h.doubles, h.singles⟩, fun h => ⟨h.1, h.2⟩⟩

instance (report : OutcomeReport) : Decidable report.Finite :=
  decidable_of_iff _ report.finite_iff.symm

/-! ## Numbers that come back as others

Where a number is read back as another one, the rest of the report stays as it is.
-/

def GeometryDeviation.mapNumbers (f64 : Float → Float) (geometry : GeometryDeviation) :
    GeometryDeviation :=
  { geometry with deviation := f64 geometry.deviation }

def ElectricalMeasurement.mapNumbers (f64 : Float → Float) (measurement : ElectricalMeasurement) :
    ElectricalMeasurement :=
  { measurement with measuredValue := f64 measurement.measuredValue }

def YieldSummary.mapNumbers (f64 : Float → Float) (summary : YieldSummary) : YieldSummary :=
  { summary with yieldFraction := f64 summary.yieldFraction }

def TestOutcome.mapNumbers (f64 : Float → Float) (f32 : F32 → F32) (outcome : TestOutcome) :
    TestOutcome :=
  { waferMap :=
      { outcome.waferMap with
        dieHeightMils := f32 outcome.waferMap.dieHeightMils
        dieWidthMils := f32 outcome.waferMap.dieWidthMils }
    binSummary :=
      { outcome.binSummary with yieldFraction := f64 outcome.binSummary.yieldFraction }
    packageTest := outcome.packageTest.map (·.mapNumbers f64) }

def ManufacturingTrack.mapNumbers (f64 : Float → Float) (f32 : F32 → F32) :
    ManufacturingTrack → ManufacturingTrack
  | .testAssembly outcome => .testAssembly (outcome.mapNumbers f64 f32)
  | track => track

/-- A report with other numbers in the places of its doubles and singles. -/
def OutcomeReport.mapNumbers (f64 : Float → Float) (f32 : F32 → F32) (report : OutcomeReport) :
    OutcomeReport :=
  { report with
    track := report.track.mapNumbers f64 f32
    measuredGeometry := report.measuredGeometry.map (·.mapNumbers f64)
    electricalTest := report.electricalTest.map (·.mapNumbers f64)
    yieldOutcome := report.yieldOutcome.mapNumbers f64 }

section

variable {f64 : Float → Float} {f32 : F32 → F32}

theorem map_mapNumbers_eq_self {measurements : List ElectricalMeasurement}
    (h : ∀ measurement ∈ measurements, f64 measurement.measuredValue = measurement.measuredValue) :
    measurements.map (·.mapNumbers f64) = measurements := by
  refine (List.map_congr_left fun measurement hmem => ?_).trans (List.map_id' _)
  rw [ElectricalMeasurement.mapNumbers, h measurement hmem]

/-- A track whose numbers stay as they are is the same track. -/
theorem ManufacturingTrack.mapNumbers_eq_self {track : ManufacturingTrack}
    (h64 : ∀ x ∈ track.doubles, f64 x = x) (h32 : ∀ x ∈ track.singles, f32 x = x) :
    track.mapNumbers f64 f32 = track := by
  cases track with
  | pcb => rfl
  | waferLitho tech => rfl
  | testAssembly outcome =>
      rw [ManufacturingTrack.doubles, TestOutcome.doubles, List.forall_mem_cons,
        List.forall_mem_map] at h64
      simp only [ManufacturingTrack.singles, List.forall_mem_cons] at h32
      rw [ManufacturingTrack.mapNumbers, TestOutcome.mapNumbers, h64.1,
        map_mapNumbers_eq_self h64.2, h32.1, h32.2.1]

/-- A report whose numbers stay as they are is the same report. -/
theorem OutcomeReport.mapNumbers_eq_self {report : OutcomeReport}
    (h64 : ∀ x ∈ report.doubles, f64 x = x) (h32 : ∀ x ∈ report.track.singles, f32 x = x) :
    report.mapNumbers f64 f32 = report := by
  simp only [OutcomeReport.doubles, List.forall_mem_append, List.forall_mem_map,
    List.forall_mem_singleton] at h64
  obtain ⟨⟨⟨htrack, hgeometry⟩, helectrical⟩, hyield⟩ := h64
  have hgeometries : report.measuredGeometry.map (·.mapNumbers f64) = report.measuredGeometry := by
    refine (List.map_congr_left fun geometry hmem => ?_).trans (List.map_id' _)
    rw [GeometryDeviation.mapNumbers, hgeometry geometry hmem]
  rw [OutcomeReport.mapNumbers, ManufacturingTrack.mapNumbers_eq_self htrack h32, hgeometries,
    map_mapNumbers_eq_self helectrical, YieldSummary.mapNumbers, hyield]

end

/-! ## What is read of a report -/

section

open Fields

variable {serde : SerdeJson} {f64 : Float → Float} {f32 : F32 → F32}

theorem rereads_geometryDeviation {geometry : GeometryDeviation}
    (h : serde.float64.Rereads geometry.deviation (f64 geometry.deviation)
      (geometry.deviation.isFinite = true)) :
    serde.geometryDeviation.Rereads geometry (geometry.mapNumbers f64)
      (geometry.deviation.isFinite = true) := by
  apply Fields.Rereads.struct
  · exact rereads_required (string_returns _).rereads <| rereads_required h <|
      rereads_required (string_returns _).rereads rereads_nil
  · simp
  · rfl
  · simp

theorem rereads_electricalMeasurement {measurement : ElectricalMeasurement}
    (h : serde.float64.Rereads measurement.measuredValue (f64 measurement.measuredValue)
      (measurement.measuredValue.isFinite = true)) :
    serde.electricalMeasurement.Rereads measurement (measurement.mapNumbers f64)
      (measurement.measuredValue.isFinite = true) := by
  apply Fields.Rereads.struct
  · exact rereads_required (string_returns _).rereads <|
      rereads_required (measurementQuantity_returns _).rereads <| rereads_required h <|
      rereads_required (string_returns _).rereads <|
      rereads_required (bool_returns _).rereads rereads_nil
  · simp
  · rfl
  · simp

theorem rereads_yieldSummary {summary : YieldSummary}
    (h : serde.float64.Rereads summary.yieldFraction (f64 summary.yieldFraction)
      (summary.yieldFraction.isFinite = true)) :
    serde.yieldSummary.Rereads summary (summary.mapNumbers f64)
      (summary.yieldFraction.isFinite = true) := by
  apply Fields.Rereads.struct
  · exact rereads_required (u32_returns _).rereads <| rereads_required (u32_returns _).rereads <|
      rereads_required h rereads_nil
  · simp
  · rfl
  · simp

/-- The map of a wafer comes back with its dies as they are. -/
theorem rereads_waferDieMap {wafer : WaferDieMap}
    (hheight : serde.float32.Rereads wafer.dieHeightMils (f32 wafer.dieHeightMils)
      (isFiniteF32 wafer.dieHeightMils = true))
    (hwidth : serde.float32.Rereads wafer.dieWidthMils (f32 wafer.dieWidthMils)
      (isFiniteF32 wafer.dieWidthMils = true)) :
    serde.waferDieMap.Rereads wafer
      { wafer with
        dieHeightMils := f32 wafer.dieHeightMils
        dieWidthMils := f32 wafer.dieWidthMils }
      (isFiniteF32 wafer.dieHeightMils = true ∧ isFiniteF32 wafer.dieWidthMils = true) := by
  apply Fields.Rereads.struct
  · exact rereads_required (string_returns _).rereads <|
      rereads_required (entries_returns fun site _ => entry_returns site).rereads <|
      rereads_required hheight <| rereads_required hwidth <|
      rereads_required (dieCoord_returns _).rereads rereads_nil
  · simp
  · rfl
  · simp

theorem rereads_binDistribution {distribution : BinDistribution}
    (h : serde.float64.Rereads distribution.yieldFraction (f64 distribution.yieldFraction)
      (distribution.yieldFraction.isFinite = true)) :
    serde.binDistribution.Rereads distribution
      { distribution with yieldFraction := f64 distribution.yieldFraction }
      (distribution.yieldFraction.isFinite = true) := by
  have hbins (buckets : Std.ExtTreeMap UInt16 BinCount) : (bins binCount).Returns buckets :=
    bins_returns fun entry _ => binCount_returns entry.2
  apply Fields.Rereads.struct
  · exact rereads_required (u32_returns _).rereads <| rereads_required (u32_returns _).rereads <|
      rereads_required h <| rereads_required (hbins _).rereads <|
      rereads_required (hbins _).rereads rereads_nil
  · simp
  · rfl
  · simp

/-- An outcome is kept if its doubles and the sizes of its dies are finite. -/
theorem rereads_testOutcome {outcome : TestOutcome}
    (h64 : ∀ x ∈ outcome.doubles, serde.float64.Rereads x (f64 x) (x.isFinite = true))
    (h32 : ∀ x ∈ (ManufacturingTrack.testAssembly outcome).singles,
      serde.float32.Rereads x (f32 x) (isFiniteF32 x = true)) :
    serde.testOutcome.Rereads outcome (outcome.mapNumbers f64 f32)
      ((∀ x ∈ outcome.doubles, x.isFinite = true) ∧
        ∀ x ∈ (ManufacturingTrack.testAssembly outcome).singles, isFiniteF32 x = true) := by
  rw [TestOutcome.doubles, List.forall_mem_cons, List.forall_mem_map] at h64
  simp only [ManufacturingTrack.singles, List.forall_mem_cons] at h32
  apply Fields.Rereads.struct
  · exact rereads_required (rereads_waferDieMap h32.1 h32.2.1) <|
      rereads_required (rereads_binDistribution h64.1) <|
      rereads_required (rereads_list fun measurement hmem =>
        rereads_electricalMeasurement (h64.2 measurement hmem)) rereads_nil
  · simp
  · rfl
  · simp only [TestOutcome.doubles, ManufacturingTrack.singles, List.forall_mem_cons,
      List.forall_mem_map]
    tauto

/-- The two other tracks hold no number and are always kept. -/
theorem rereads_manufacturingTrack {track : ManufacturingTrack}
    (h64 : ∀ x ∈ track.doubles, serde.float64.Rereads x (f64 x) (x.isFinite = true))
    (h32 : ∀ x ∈ track.singles, serde.float32.Rereads x (f32 x) (isFiniteF32 x = true)) :
    serde.manufacturingTrack.Rereads track (track.mapNumbers f64 f32)
      ((∀ x ∈ track.doubles, x.isFinite = true) ∧
        ∀ x ∈ track.singles, isFiniteF32 x = true) := by
  cases track with
  | pcb =>
      refine ⟨fun _ => rfl, fun hlost => (hlost ?_).elim⟩
      simp [ManufacturingTrack.doubles, ManufacturingTrack.singles]
  | waferLitho tech =>
      refine Gives.congr (patterningTech_returns tech).rereads.newtype ?_
      simp [ManufacturingTrack.doubles, ManufacturingTrack.singles]
  | testAssembly outcome => exact (rereads_testOutcome h64 h32).newtype

/-- A report comes back with its numbers as they are read, if they are finite, and is refused
otherwise. -/
theorem rereads_outcomeReport {report : OutcomeReport}
    (huuid : serde.uuid.Returns report.payloadManifestId)
    (h64 : ∀ x ∈ report.doubles, serde.float64.Rereads x (f64 x) (x.isFinite = true))
    (h32 : ∀ x ∈ report.track.singles, serde.float32.Rereads x (f32 x) (isFiniteF32 x = true)) :
    serde.outcomeReport.Rereads report (report.mapNumbers f64 f32) report.Finite := by
  simp only [OutcomeReport.doubles, List.forall_mem_append, List.forall_mem_map,
    List.forall_mem_singleton] at h64
  obtain ⟨⟨⟨htrack, hgeometry⟩, helectrical⟩, hyield⟩ := h64
  apply Fields.Rereads.struct
  · exact rereads_required huuid.rereads <|
      rereads_required (rereads_manufacturingTrack htrack h32) <|
      rereads_required (rereads_list fun geometry hmem =>
        rereads_geometryDeviation (hgeometry geometry hmem)) <|
      rereads_required (rereads_list fun measurement hmem =>
        rereads_electricalMeasurement (helectrical measurement hmem)) <|
      rereads_required (rereads_yieldSummary hyield) <|
      rereads_required
        (list_returns_iff.mpr fun note _ => processDeviation_returns note).rereads <|
      rereads_required (consentScope_returns _).rereads <|
      rereads_required (schemaVersion_returns _).rereads <|
      rereads_optional (signature_returns _).rereads rereads_nil
  · simp
  · rfl
  · rw [OutcomeReport.finite_iff]
    simp only [OutcomeReport.doubles, List.forall_mem_append, List.forall_mem_map,
      List.forall_mem_singleton]
    tauto

end

/-! ## What the JSON library does -/

/-- What the JSON library does for a report: its text is read as the tree that was written, the
text of its identifier as the identifier, and the text of a finite number as some number. -/
structure SerdeJson.Readable (serde : SerdeJson) (report : OutcomeReport) : Prop where
  text : serde.fromStr (serde.toStringPretty (serde.outcomeReport.toValue report)) =
    some (serde.outcomeReport.toValue report)
  uuid : serde.parseUuid (serde.printUuid report.payloadManifestId) =
    some report.payloadManifestId
  double : ∀ x ∈ report.doubles, x.isFinite = true →
    (serde.f64.parse (serde.f64.print x)).isSome
  single : ∀ x ∈ report.track.singles, isFiniteF32 x = true →
    (serde.f32.parse (serde.f32.print x)).isSome

/-- What the JSON library does for a report: its text is read as the tree that was
written, and so are the texts of its identifier and of its finite numbers. -/
structure SerdeJson.Faithful (serde : SerdeJson) (report : OutcomeReport) : Prop where
  text : serde.fromStr (serde.toStringPretty (serde.outcomeReport.toValue report)) =
    some (serde.outcomeReport.toValue report)
  uuid : serde.parseUuid (serde.printUuid report.payloadManifestId) =
    some report.payloadManifestId
  double : ∀ x ∈ report.doubles, x.isFinite = true → serde.f64.parse (serde.f64.print x) = some x
  single : ∀ x ∈ report.track.singles, isFiniteF32 x = true →
    serde.f32.parse (serde.f32.print x) = some x

/-- A report with its numbers as they are read back. -/
def SerdeJson.reread (serde : SerdeJson) (report : OutcomeReport) : OutcomeReport :=
  report.mapNumbers serde.float64.reread serde.float32.reread

theorem schemaVersion_reread (serde : SerdeJson) (report : OutcomeReport) :
    (serde.reread report).schemaVersion = report.schemaVersion := rfl

section

variable {serde : SerdeJson} {report : OutcomeReport}

/-- A readable report comes back as it was, but for numbers that are read as others. -/
theorem SerdeJson.Readable.rereads (hserde : serde.Readable report) :
    serde.outcomeReport.Rereads report (serde.reread report) report.Finite := by
  apply rereads_outcomeReport
  · exact hserde.uuid
  · exact fun x hx => rereads_float (hserde.double x hx)
  · exact fun x hx => rereads_float (hserde.single x hx)

namespace SerdeJson.Faithful

variable (hserde : serde.Faithful report)

include hserde

theorem readable : serde.Readable report where
  text := hserde.text
  uuid := hserde.uuid
  double x hx hfinite := Option.isSome_of_mem (hserde.double x hx hfinite)
  single x hx hfinite := Option.isSome_of_mem (hserde.single x hx hfinite)

/-- A library that reads each number as it was changes nothing. -/
theorem reread_eq_self : serde.reread report = report := by
  apply OutcomeReport.mapNumbers_eq_self
  · exact fun x hx => reread_float_eq_self (hserde.double x hx)
  · exact fun x hx => reread_float_eq_self (hserde.single x hx)

/-- A report is returned exactly if its numbers are finite. -/
theorem returns_iff_finite : serde.outcomeReport.Returns report ↔ report.Finite := by
  have hrereads := hserde.readable.rereads
  rw [hserde.reread_eq_self] at hrereads
  exact hrereads.returns_iff

end SerdeJson.Faithful

end

/-! ## Files -/

/-- Errors of the exchange. -/
inductive AggregateError where
  | io (kind : ErrorKind)
  | malformedJson (detail : String)
  | unsupportedSchemaVersion (found supported : String)
  | consentForbidsSharing (consent : ConsentScope)
  deriving DecidableEq, Repr

abbrev Files := String → Except ErrorKind String

/-- The exchange, with the highest version that it understands. -/
structure JsonOutcomeFile where
  supportedSchema : SchemaVersion
  deriving DecidableEq, Repr

namespace JsonOutcomeFile

def new : JsonOutcomeFile := { supportedSchema := .current }

/-- Write a report to a file, whose writing may fail. -/
def writeOutcomeFile (_exchange : JsonOutcomeFile) (serde : SerdeJson) (report : OutcomeReport)
    (path : String) (fault : Option ErrorKind) (files : Files) : Except AggregateError Files :=
  if report.consent = .noSharing then .error (.consentForbidsSharing report.consent)
  else
    let json := serde.toStringPretty (serde.outcomeReport.toValue report)
    match fault with
    | some kind => .error (.io kind)
    | none => .ok fun path' => if path' = path then .ok json else files path'

def readOutcomeFile (exchange : JsonOutcomeFile) (serde : SerdeJson) (files : Files)
    (path : String) : Except AggregateError OutcomeReport :=
  match files path with
  | .error kind => .error (.io kind)
  | .ok text =>
      match (serde.fromStr text).bind serde.outcomeReport.fromValue with
      | none => .error (.malformedJson (path ++ ": " ++ serde.message text))
      | some report =>
          if report.schemaVersion.isReadableBy exchange.supportedSchema then .ok report
          else .error (.unsupportedSchemaVersion report.schemaVersion.display
            exchange.supportedSchema.display)

/-- A file that was written holds the text of the report. -/
theorem files_of_writeOutcomeFile {exchange : JsonOutcomeFile} {serde : SerdeJson}
    {report : OutcomeReport} {path : String} {fault : Option ErrorKind} {files files' : Files}
    (hwrite : exchange.writeOutcomeFile serde report path fault files = .ok files') :
    files' path = .ok (serde.toStringPretty (serde.outcomeReport.toValue report)) := by
  unfold writeOutcomeFile at hwrite
  split at hwrite
  · cases hwrite
  · cases fault with
    | some kind => cases hwrite
    | none =>
        cases hwrite
        exact if_pos rfl

/-- What is read is of a version that is understood. -/
theorem isReadableBy_of_readOutcomeFile {exchange : JsonOutcomeFile} {serde : SerdeJson}
    {report : OutcomeReport} {files : Files} {path : String}
    (hread : exchange.readOutcomeFile serde files path = .ok report) :
    report.schemaVersion.isReadableBy exchange.supportedSchema = true := by
  unfold readOutcomeFile at hread
  cases hfile : files path with
  | error kind =>
      rw [hfile] at hread
      cases hread
  | ok text =>
      rw [hfile] at hread
      cases hreport : (serde.fromStr text).bind serde.outcomeReport.fromValue with
      | none =>
          simp only [hreport] at hread
          cases hread
      | some report' =>
          simp only [hreport] at hread
          split at hread
          next hreadable =>
            cases hread
            exact hreadable
          next => cases hread

/-- What was written and is read back has finite numbers. -/
theorem finite_of_readOutcomeFile {exchange : JsonOutcomeFile} {serde : SerdeJson}
    {report : OutcomeReport} (hserde : serde.Faithful report) {path : String}
    {fault : Option ErrorKind} {files files' : Files}
    (hwrite : exchange.writeOutcomeFile serde report path fault files = .ok files')
    (hread : exchange.readOutcomeFile serde files' path = .ok report) : report.Finite := by
  rw [← hserde.returns_iff_finite, Returns]
  rw [readOutcomeFile, files_of_writeOutcomeFile hwrite] at hread
  simp only [hserde.text, Option.bind_some] at hread
  cases hvalue : serde.outcomeReport.fromValue (serde.outcomeReport.toValue report) with
  | none =>
      simp only [hvalue] at hread
      cases hread
  | some report' =>
      simp only [hvalue] at hread
      split at hread
      · cases hread
        rfl
      · cases hread

end JsonOutcomeFile

/-! ## Reports on a wafer -/

/-- The double 0.5. -/
def halfF64 : Float := .ofBits 0x3FE0000000000000

/-- The double next to 14/15, whose text is 0.9333333333333333. -/
def measuredF64 : Float := .ofBits 0x3FEDDDDDDDDDDDDE

/-- The double in front of it, which a library that rounds twice reads of that text. -/
def nearF64 : Float := .ofBits 0x3FEDDDDDDDDDDDDD

def infinityF64 : Float := .ofBits 0x7FF0000000000000

def hundredF32 : F32 := ⟨0x42C80000⟩

def sortedDies : List (DieCoord × DieState) :=
  [(⟨0, 0⟩, .tested { passed := true, hardBin := 1, softBin := 1 }),
    (⟨1, 0⟩, .tested { passed := false, hardBin := 10, softBin := 10 }), (⟨2, 0⟩, .excluded)]

def sortedMap : WaferDieMap :=
  { waferId := "LOT7-W03", dies := .ofList sortedDies, dieHeightMils := hundredF32
    dieWidthMils := hundredF32, center := ⟨0, 0⟩ }

def sortedCounts : List (UInt16 × BinCount) := [(1, ⟨1, false⟩), (10, ⟨1, false⟩)]

def sortedBins : Std.ExtTreeMap UInt16 BinCount := .ofList sortedCounts

/-- A die that passes, one that fails and one that is excluded, and one measurement of the
package. -/
def waferReport (version : SchemaVersion) (measured : Float) : OutcomeReport :=
  { payloadManifestId := ⟨0⟩
    track := .testAssembly
      { waferMap := sortedMap
        binSummary :=
          { totalTested := 2, totalPassed := 1, yieldFraction := halfF64, hardBins := sortedBins
            softBins := sortedBins }
        packageTest := [
          { key := "VDD", quantity := .irDrop, measuredValue := measured, unit := "V"
            passed := true }] }
    measuredGeometry := [], electricalTest := []
    yieldOutcome := { totalUnits := 2, goodUnits := 1, yieldFraction := halfF64 }
    processNotes := [], consent := .privateBilateral, schemaVersion := version
    signature := none }

def dieTree (x y : Int) (state : Value) : Value :=
  .object [("coord", .object [("x", .integer x), ("y", .integer y)]), ("state", state)]

def testedTree (passed : Bool) (bin : Int) : Value :=
  .object [("Tested", .object [("passed", .bool passed), ("hard_bin", .integer bin),
    ("soft_bin", .integer bin)])]

def binsTree : Value :=
  .object [("1", .object [("count", .integer 1), ("withheld", .bool false)]),
    ("10", .object [("count", .integer 1), ("withheld", .bool false)])]

def waferTree (version : SchemaVersion) (measured : Value) : Value :=
  .object [("payload_manifest_id", .string "00000000-0000-0000-0000-000000000000"),
    ("track", .object [("TestAssembly", .object [
      ("wafer_map", .object [("wafer_id", .string "LOT7-W03"),
        ("dies", .array [dieTree 0 0 (testedTree true 1), dieTree 1 0 (testedTree false 10),
          dieTree 2 0 (.string "Excluded")]),
        ("die_height_mils", .decimal "100.0"), ("die_width_mils", .decimal "100.0"),
        ("center", .object [("x", .integer 0), ("y", .integer 0)])]),
      ("bin_summary", .object [("total_tested", .integer 2), ("total_passed", .integer 1),
        ("yield_fraction", .decimal "0.5"), ("hard_bins", binsTree), ("soft_bins", binsTree)]),
      ("package_test", .array [.object [("key", .string "VDD"), ("quantity", .string "IrDrop"),
        ("measured_value", measured), ("unit", .string "V"), ("passed", .bool true)]])])]),
    ("measured_geometry", .array []), ("electrical_test", .array []),
    ("yield_outcome", .object [("total_units", .integer 2), ("good_units", .integer 1),
      ("yield_fraction", .decimal "0.5")]),
    ("process_notes", .array []), ("consent", .string "PrivateBilateral"),
    ("schema_version", .object [("major", .integer version.major.toNat),
      ("minor", .integer version.minor.toNat)]),
    ("signature", .null)]

/-- The text of the report, in lines of two blanks for each level. -/
def waferText (version : SchemaVersion) (measured : String) : String :=
  "\x7b\n  \"payload_manifest_id\": \"00000000-0000-0000-0000-000000000000\",\n" ++
    "  \"track\": \x7b\n    \"TestAssembly\": \x7b\n      \"wafer_map\": \x7b\n" ++
    "        \"wafer_id\": \"LOT7-W03\",\n        \"dies\": [\n          \x7b\n" ++
    "            \"coord\": \x7b\n              \"x\": 0,\n              \"y\": 0\n" ++
    "            \x7d,\n            \"state\": \x7b\n              \"Tested\": \x7b\n" ++
    "                \"passed\": true,\n                \"hard_bin\": 1,\n" ++
    "                \"soft_bin\": 1\n              \x7d\n            \x7d\n" ++
    "          \x7d,\n          \x7b\n            \"coord\": \x7b\n" ++
    "              \"x\": 1,\n              \"y\": 0\n            \x7d,\n" ++
    "            \"state\": \x7b\n              \"Tested\": \x7b\n" ++
    "                \"passed\": false,\n                \"hard_bin\": 10,\n" ++
    "                \"soft_bin\": 10\n              \x7d\n            \x7d\n" ++
    "          \x7d,\n          \x7b\n            \"coord\": \x7b\n" ++
    "              \"x\": 2,\n              \"y\": 0\n            \x7d,\n" ++
    "            \"state\": \"Excluded\"\n          \x7d\n        ],\n" ++
    "        \"die_height_mils\": 100.0,\n        \"die_width_mils\": 100.0,\n" ++
    "        \"center\": \x7b\n          \"x\": 0,\n          \"y\": 0\n        \x7d\n" ++
    "      \x7d,\n      \"bin_summary\": \x7b\n        \"total_tested\": 2,\n" ++
    "        \"total_passed\": 1,\n        \"yield_fraction\": 0.5,\n" ++
    "        \"hard_bins\": \x7b\n          \"1\": \x7b\n            \"count\": 1,\n" ++
    "            \"withheld\": false\n          \x7d,\n          \"10\": \x7b\n" ++
    "            \"count\": 1,\n            \"withheld\": false\n          \x7d\n" ++
    "        \x7d,\n        \"soft_bins\": \x7b\n          \"1\": \x7b\n" ++
    "            \"count\": 1,\n            \"withheld\": false\n          \x7d,\n" ++
    "          \"10\": \x7b\n            \"count\": 1,\n            \"withheld\": false\n" ++
    "          \x7d\n        \x7d\n      \x7d,\n      \"package_test\": [\n        \x7b\n" ++
    "          \"key\": \"VDD\",\n          \"quantity\": \"IrDrop\",\n" ++
    "          \"measured_value\": " ++ measured ++
    ",\n          \"unit\": \"V\",\n          \"passed\": true\n        \x7d\n      ]\n" ++
    "    \x7d\n  \x7d,\n  \"measured_geometry\": [],\n  \"electrical_test\": [],\n" ++
    "  \"yield_outcome\": \x7b\n    \"total_units\": 2,\n    \"good_units\": 1,\n" ++
    "    \"yield_fraction\": 0.5\n  \x7d,\n  \"process_notes\": [],\n" ++
    "  \"consent\": \"PrivateBilateral\",\n  \"schema_version\": \x7b\n    \"major\": " ++
    Nat.repr version.major.toNat ++ ",\n    \"minor\": " ++ Nat.repr version.minor.toNat ++
    "\n  \x7d,\n  \"signature\": null\n\x7d"

/-- What the JSON library does for a report whose text and tree are given, if it reads the text of
the measurement as `back`. -/
def waferSerde (text : String) (tree : Value) (back : Float) : SerdeJson where
  toStringPretty _ := text
  fromStr text' := if text' = text then some tree else none
  message _ := "invalid type: null, expected f64 at line 78 column 32"
  f64 :=
    { print := fun x => if x = halfF64 then "0.5" else "0.9333333333333333"
      parse := fun text =>
        if text = "0.5" then some halfF64
        else if text = "0.9333333333333333" then some back
        else none
      ofInt := Float.ofInt }
  f32 :=
    { print := fun _ => "100.0"
      parse := fun text => if text = "100.0" then some hundredF32 else none
      ofInt := fun _ => hundredF32 }
  printUuid _ := "00000000-0000-0000-0000-000000000000"
  parseUuid text := if text = "00000000-0000-0000-0000-000000000000" then some ⟨0⟩ else none

/-- A library that reads each number of the report as it was. -/
def exactSerde (version : SchemaVersion) : SerdeJson :=
  waferSerde (waferText version "0.9333333333333333")
    (waferTree version (.decimal "0.9333333333333333")) measuredF64

/-- A library that reads the measurement as the double in front of it. -/
def nearSerde (version : SchemaVersion) : SerdeJson :=
  waferSerde (waferText version "0.9333333333333333")
    (waferTree version (.decimal "0.9333333333333333")) nearF64

/-- A library that is given an infinite measurement. -/
def infinitySerde (version : SchemaVersion) : SerdeJson :=
  waferSerde (waferText version "null") (waferTree version .null) measuredF64

theorem isFinite_halfF64 : halfF64.isFinite = true := by decide +kernel

theorem isFinite_measuredF64 : measuredF64.isFinite = true := by decide +kernel

theorem isFinite_infinityF64 : infinityF64.isFinite = false := by decide +kernel

theorem isFinite_hundredF32 : isFiniteF32 hundredF32 = true := by decide +kernel

theorem measuredF64_ne_halfF64 : measuredF64 ≠ halfF64 := by decide +kernel

/-- The dies lie in the map in ascending order. -/
theorem toList_sortedMap : sortedMap.dies.toList = sortedDies := by decide +kernel

theorem toList_sortedBins : sortedBins.toList = sortedCounts := by decide +kernel

theorem doubles_waferReport (version : SchemaVersion) (measured : Float) :
    (waferReport version measured).doubles = [halfF64, measured, halfF64] := rfl

theorem singles_waferReport (version : SchemaVersion) (measured : Float) :
    (waferReport version measured).track.singles = [hundredF32, hundredF32] := rfl

theorem finite_waferReport_iff (version : SchemaVersion) (measured : Float) :
    (waferReport version measured).Finite ↔ measured.isFinite = true := by
  rw [OutcomeReport.finite_iff, doubles_waferReport, singles_waferReport]
  simp [isFinite_halfF64, isFinite_hundredF32]

section

variable {version : SchemaVersion} {measured back : Float} {text : String} {tree value : Value}

/-- The library turns the report into the tree above, whose measurement it prints as a number or as
null. -/
theorem toValue_waferReport :
    (waferSerde text tree back).outcomeReport.toValue (waferReport version measured) =
      waferTree version ((waferSerde text tree back).float64.toValue measured) := by
  have h64 : (waferSerde text tree back).float64.toValue halfF64 = .decimal "0.5" := by
    simp [SerdeJson.float64, Codec.float, isFinite_halfF64, waferSerde]
  have h32 : (waferSerde text tree back).float32.toValue hundredF32 = .decimal "100.0" := by
    simp [SerdeJson.float32, Codec.float, isFinite_hundredF32, waferSerde]
  have hdies : (entries entry).toValue sortedMap.dies =
      .array [dieTree 0 0 (testedTree true 1), dieTree 1 0 (testedTree false 10),
        dieTree 2 0 (.string "Excluded")] :=
    congrArg (list entry).toValue toList_sortedMap
  have hbins : binsTree = (bins binCount).toValue sortedBins := by
    change Value.object (sortedCounts.map fun entry =>
      (Nat.repr entry.1.toNat, binCount.toValue entry.2)) = _
    rw [← toList_sortedBins]
    rfl
  rw [waferTree, ← h64, ← h32, ← hdies, hbins]
  rfl

/-- The text of one half is read as one half, and any other text as `back`. -/
theorem parse_print_waferSerde (x : Float) :
    (waferSerde text tree back).f64.parse ((waferSerde text tree back).f64.print x) =
      some (if x = halfF64 then halfF64 else back) := by
  by_cases hhalf : x = halfF64 <;> simp [waferSerde, hhalf]

/-- Whatever the measurement is read as, the library does what is assumed for this report. -/
theorem readable_waferSerde
    (hvalue : (waferSerde text (waferTree version value) back).float64.toValue measured = value) :
    (waferSerde text (waferTree version value) back).Readable (waferReport version measured) where
  text := by
    rw [toValue_waferReport, hvalue]
    simp only [waferSerde, if_true]
  uuid := rfl
  double x _ _ := by
    rw [parse_print_waferSerde]
    rfl
  single _ _ _ := rfl

/-- If the measurement is read as it was, the library changes no number of this report. -/
theorem faithful_waferSerde
    (hvalue : (waferSerde text (waferTree version value) measuredF64).float64.toValue measured =
      value)
    (hmeasured : measured.isFinite = true → measured = measuredF64) :
    (waferSerde text (waferTree version value) measuredF64).Faithful
      (waferReport version measured) where
  text := (readable_waferSerde hvalue).text
  uuid := rfl
  double x hx hfinite := by
    have hcases : x = halfF64 ∨ x = measured := by
      simp only [doubles_waferReport, List.mem_cons, List.not_mem_nil, or_false] at hx
      tauto
    rw [parse_print_waferSerde]
    rcases hcases with rfl | rfl
    · rw [if_pos rfl]
    · rw [hmeasured hfinite, if_neg measuredF64_ne_halfF64]
  single x hx _ := by
    have hhundred : x = hundredF32 := by simpa [singles_waferReport] using hx
    rw [hhundred]
    rfl

theorem toValue_measuredF64 :
    (waferSerde text tree back).float64.toValue measuredF64 = .decimal "0.9333333333333333" := by
  simp [SerdeJson.float64, Codec.float, isFinite_measuredF64, waferSerde, measuredF64_ne_halfF64]

end

theorem faithful_exactSerde (version : SchemaVersion) :
    (exactSerde version).Faithful (waferReport version measuredF64) :=
  faithful_waferSerde toValue_measuredF64 fun _ => rfl

theorem readable_nearSerde (version : SchemaVersion) :
    (nearSerde version).Readable (waferReport version measuredF64) :=
  readable_waferSerde toValue_measuredF64

theorem faithful_infinitySerde (version : SchemaVersion) :
    (infinitySerde version).Faithful (waferReport version infinityF64) := by
  apply faithful_waferSerde
  · simp [SerdeJson.float64, Codec.float, isFinite_infinityF64]
  · simp [isFinite_infinityF64]

/-- The measurement comes back as the double in front of it, and everything else as it was. -/
theorem reread_waferReport (version : SchemaVersion) :
    (nearSerde version).reread (waferReport version measuredF64) = waferReport version nearF64 := by
  have hhalf : (nearSerde version).float64.reread halfF64 = halfF64 := by
    simp [Codec.reread, SerdeJson.float64, Codec.float, isFinite_halfF64, nearSerde, waferSerde]
  have hmeasured : (nearSerde version).float64.reread measuredF64 = nearF64 := by
    simp [Codec.reread, SerdeJson.float64, Codec.float, isFinite_measuredF64, nearSerde,
      waferSerde, measuredF64_ne_halfF64]
  have hhundred : (nearSerde version).float32.reread hundredF32 = hundredF32 := by
    simp [Codec.reread, SerdeJson.float32, Codec.float, isFinite_hundredF32, nearSerde, waferSerde]
  simp [SerdeJson.reread, OutcomeReport.mapNumbers, waferReport, ManufacturingTrack.mapNumbers,
    TestOutcome.mapNumbers, ElectricalMeasurement.mapNumbers, YieldSummary.mapNumbers, sortedMap,
    hhalf, hmeasured, hhundred]

namespace JsonOutcomeFile

/-- The files after a report is written. -/
def filesWith (text : String) : Files :=
  fun path => if path = "report.json" then .ok text else .error (.other 2)

theorem writeOutcomeFile_waferReport (version : SchemaVersion) (measured : Float) (text : String)
    (tree : Value) (back : Float) :
    new.writeOutcomeFile (waferSerde text tree back) (waferReport version measured) "report.json"
      none (fun _ => .error (.other 2)) = .ok (filesWith text) := by
  rfl

end JsonOutcomeFile

end Aggregate
