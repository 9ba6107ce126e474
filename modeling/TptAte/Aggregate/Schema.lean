import TptAte.Aggregate.Outcome
import TptAte.Test.Wafer
import TptAte.Json.Codec

/-! # The outcome schema

The report on a manufacturing run and its representation in JSON. Test and assembly
results ride in the track of the report. A report is returned by its representation
exactly if its floating-point numbers are finite.
-/

namespace Aggregate

open Wire Test Json

/-! ## The report -/

/-- A 128-bit identifier. -/
structure Uuid where
  bits : BitVec 128
  deriving DecidableEq, Repr

inductive PatterningTech where
  | euv
  | duvMultiPattern
  | nil
  | ebeam
  deriving DecidableEq, Repr

/-- As-built vs. as-designed geometry, keyed by a semantic id. -/
structure GeometryDeviation where
  key : String
  deviation : Float
  note : String
  deriving DecidableEq

inductive MeasurementQuantity where
  | impedance
  | skew
  | irDrop
  | leakage
  | continuity
  deriving DecidableEq, Repr

structure ElectricalMeasurement where
  key : String
  quantity : MeasurementQuantity
  measuredValue : Float
  unit : String
  passed : Bool
  deriving DecidableEq

structure YieldSummary where
  (totalUnits goodUnits : UInt32)
  yieldFraction : Float
  deriving DecidableEq

structure ProcessDeviation where
  (code description : String)
  deriving DecidableEq

/-- Consent scope travelling inside the report. -/
inductive ConsentScope where
  | privateBilateral
  | aggregatedContribution
  | noSharing
  deriving DecidableEq, Repr

structure SchemaVersion where
  (major minor : UInt32)
  deriving DecidableEq, Repr

namespace SchemaVersion

def current : SchemaVersion := { major := 0, minor := 1 }

/-- The same major and a known or older minor is readable. -/
def isReadableBy (version ingestor : SchemaVersion) : Bool :=
  version.major == ingestor.major && version.minor ≤ ingestor.minor

def display (version : SchemaVersion) : String :=
  Nat.repr version.major.toNat ++ "." ++ Nat.repr version.minor.toNat

end SchemaVersion

structure Signature where
  (algorithm value : String)
  deriving DecidableEq

structure TestOutcome where
  waferMap : WaferDieMap
  binSummary : BinDistribution
  packageTest : List ElectricalMeasurement

inductive ManufacturingTrack where
  | pcb
  | waferLitho (tech : PatterningTech)
  | testAssembly (outcome : TestOutcome)

/-- The one file format for every stage; the track discriminates. -/
structure OutcomeReport where
  payloadManifestId : Uuid
  track : ManufacturingTrack
  measuredGeometry : List GeometryDeviation
  electricalTest : List ElectricalMeasurement
  yieldOutcome : YieldSummary
  processNotes : List ProcessDeviation
  consent : ConsentScope
  schemaVersion : SchemaVersion
  signature : Option Signature

/-! ## Its representation -/

/-- The JSON library and the texts of identifiers. -/
structure SerdeJson where
  toStringPretty : Value → String
  fromStr : String → Option Value
  /-- The message about a text that is refused. -/
  message : String → String
  f64 : Codec.FloatText Float
  f32 : Codec.FloatText F32
  printUuid : Uuid → String
  parseUuid : String → Option Uuid

/-- Neither an infinity nor NaN, whose exponents have all bits set. -/
def isFiniteF32 (value : F32) : Bool := (value.bits >>> 23) &&& 0xFF != 0xFF

def u32 : Codec UInt32 := .integer 0 (2 ^ 32 - 1) (·.toNat) fun n => .ofNat n.toNat

def u16 : Codec UInt16 := .integer 0 (2 ^ 16 - 1) (·.toNat) fun n => .ofNat n.toNat

def i32 : Codec Int32 := .integer (-2 ^ 31) (2 ^ 31 - 1) Int32.toInt Int32.ofInt

/-- The decimal text of a key, without leading zeros. -/
def parseBin (text : String) : Option UInt16 :=
  let n := Nat.ofDigitChars 10 text.toList 0
  if Nat.repr n = text ∧ n < 2 ^ 16 then some (.ofNat n) else none

def bins {α : Type} (C : Codec α) : Codec (Std.ExtTreeMap UInt16 α) :=
  .map (fun bin => Nat.repr bin.toNat) parseBin C

def dieCoord : Codec DieCoord :=
  (Codec.struct <| .required "x" i32 <| .required "y" i32 .nil).imap
    (fun (x, y, _) => ⟨x, y⟩) fun coord => (coord.x, coord.y, ())

def dieTestOutcome : Codec DieTestOutcome :=
  (Codec.struct <| .required "passed" .bool <| .required "hard_bin" u16 <|
    .required "soft_bin" u16 .nil).imap
    (fun (passed, hardBin, softBin, _) => ⟨passed, hardBin, softBin⟩)
    fun outcome => (outcome.passed, outcome.hardBin, outcome.softBin, ())

def dieState : Codec DieState :=
  .enum
    (fun
      | .untested => ("Untested", none)
      | .excluded => ("Excluded", none)
      | .tested outcome => ("Tested", some (dieTestOutcome.toValue outcome)))
    fun
      | "Untested" => Codec.unit .untested
      | "Excluded" => Codec.unit .excluded
      | "Tested" => Codec.newtype dieTestOutcome .tested
      | _ => fun _ => none

/-- An entry of a map whose keys are locations. -/
def entry : Codec (DieCoord × DieState) :=
  (Codec.struct <| .required "coord" dieCoord <| .required "state" dieState .nil).imap
    (fun (coord, state, _) => (coord, state)) fun entry => (entry.1, entry.2, ())

def binCount : Codec BinCount :=
  (Codec.struct <| .required "count" u32 <| .required "withheld" .bool .nil).imap
    (fun (count, withheld, _) => ⟨count, withheld⟩)
    fun bucket => (bucket.count, bucket.withheld, ())

def patterningTech : Codec PatterningTech :=
  .names
    (fun
      | .euv => "Euv"
      | .duvMultiPattern => "DuvMultiPattern"
      | .nil => "Nil"
      | .ebeam => "Ebeam")
    [.euv, .duvMultiPattern, .nil, .ebeam]

def measurementQuantity : Codec MeasurementQuantity :=
  .names
    (fun
      | .impedance => "Impedance"
      | .skew => "Skew"
      | .irDrop => "IrDrop"
      | .leakage => "Leakage"
      | .continuity => "Continuity")
    [.impedance, .skew, .irDrop, .leakage, .continuity]

def consentScope : Codec ConsentScope :=
  .names
    (fun
      | .privateBilateral => "PrivateBilateral"
      | .aggregatedContribution => "AggregatedContribution"
      | .noSharing => "NoSharing")
    [.privateBilateral, .aggregatedContribution, .noSharing]

def schemaVersion : Codec SchemaVersion :=
  (Codec.struct <| .required "major" u32 <| .required "minor" u32 .nil).imap
    (fun (major, minor, _) => ⟨major, minor⟩) fun version => (version.major, version.minor, ())

def processDeviation : Codec ProcessDeviation :=
  (Codec.struct <| .required "code" .string <| .required "description" .string .nil).imap
    (fun (code, description, _) => ⟨code, description⟩)
    fun deviation => (deviation.code, deviation.description, ())

def signature : Codec Signature :=
  (Codec.struct <| .required "algorithm" .string <| .required "value" .string .nil).imap
    (fun (algorithm, value, _) => ⟨algorithm, value⟩)
    fun signature => (signature.algorithm, signature.value, ())

namespace SerdeJson

variable (serde : SerdeJson)

def float64 : Codec Float := .float Float.isFinite serde.f64

def float32 : Codec F32 := .float isFiniteF32 serde.f32

def uuid : Codec Uuid where
  toValue id := .string (serde.printUuid id)
  fromValue
    | .string text => serde.parseUuid text
    | _ => none

def waferDieMap : Codec WaferDieMap :=
  (Codec.struct <| .required "wafer_id" .string <| .required "dies" (.entries entry) <|
    .required "die_height_mils" serde.float32 <| .required "die_width_mils" serde.float32 <|
    .required "center" dieCoord .nil).imap
    (fun (waferId, dies, dieHeightMils, dieWidthMils, center, _) =>
      ⟨waferId, dies, dieHeightMils, dieWidthMils, center⟩)
    fun wafer =>
      (wafer.waferId, wafer.dies, wafer.dieHeightMils, wafer.dieWidthMils, wafer.center, ())

def binDistribution : Codec BinDistribution :=
  (Codec.struct <| .required "total_tested" u32 <| .required "total_passed" u32 <|
    .required "yield_fraction" serde.float64 <| .required "hard_bins" (bins binCount) <|
    .required "soft_bins" (bins binCount) .nil).imap
    (fun (totalTested, totalPassed, yieldFraction, hardBins, softBins, _) =>
      ⟨totalTested, totalPassed, yieldFraction, hardBins, softBins⟩)
    fun bins =>
      (bins.totalTested, bins.totalPassed, bins.yieldFraction, bins.hardBins, bins.softBins, ())

def electricalMeasurement : Codec ElectricalMeasurement :=
  (Codec.struct <| .required "key" .string <| .required "quantity" measurementQuantity <|
    .required "measured_value" serde.float64 <| .required "unit" .string <|
    .required "passed" .bool .nil).imap
    (fun (key, quantity, measuredValue, unit, passed, _) =>
      ⟨key, quantity, measuredValue, unit, passed⟩)
    fun measurement =>
      (measurement.key, measurement.quantity, measurement.measuredValue, measurement.unit,
        measurement.passed, ())

def geometryDeviation : Codec GeometryDeviation :=
  (Codec.struct <| .required "key" .string <| .required "deviation" serde.float64 <|
    .required "note" .string .nil).imap
    (fun (key, deviation, note, _) => ⟨key, deviation, note⟩)
    fun geometry => (geometry.key, geometry.deviation, geometry.note, ())

def yieldSummary : Codec YieldSummary :=
  (Codec.struct <| .required "total_units" u32 <| .required "good_units" u32 <|
    .required "yield_fraction" serde.float64 .nil).imap
    (fun (totalUnits, goodUnits, yieldFraction, _) => ⟨totalUnits, goodUnits, yieldFraction⟩)
    fun summary => (summary.totalUnits, summary.goodUnits, summary.yieldFraction, ())

def testOutcome : Codec TestOutcome :=
  (Codec.struct <| .required "wafer_map" serde.waferDieMap <|
    .required "bin_summary" serde.binDistribution <|
    .required "package_test" (.list serde.electricalMeasurement) .nil).imap
    (fun (waferMap, binSummary, packageTest, _) => ⟨waferMap, binSummary, packageTest⟩)
    fun outcome => (outcome.waferMap, outcome.binSummary, outcome.packageTest, ())

def manufacturingTrack : Codec ManufacturingTrack :=
  .enum
    (fun
      | .pcb => ("Pcb", none)
      | .waferLitho tech => ("WaferLitho", some (patterningTech.toValue tech))
      | .testAssembly outcome => ("TestAssembly", some (serde.testOutcome.toValue outcome)))
    fun
      | "Pcb" => Codec.unit .pcb
      | "WaferLitho" => Codec.newtype patterningTech .waferLitho
      | "TestAssembly" => Codec.newtype serde.testOutcome .testAssembly
      | _ => fun _ => none

def outcomeReport : Codec OutcomeReport :=
  (Codec.struct <| .required "payload_manifest_id" serde.uuid <|
    .required "track" serde.manufacturingTrack <|
    .required "measured_geometry" (.list serde.geometryDeviation) <|
    .required "electrical_test" (.list serde.electricalMeasurement) <|
    .required "yield_outcome" serde.yieldSummary <|
    .required "process_notes" (.list processDeviation) <|
    .required "consent" consentScope <| .required "schema_version" schemaVersion <|
    .optional "signature" signature .nil).imap
    (fun (payloadManifestId, track, measuredGeometry, electricalTest, yieldOutcome, processNotes,
      consent, schemaVersion, signature, _) =>
      ⟨payloadManifestId, track, measuredGeometry, electricalTest, yieldOutcome, processNotes,
        consent, schemaVersion, signature⟩)
    fun report =>
      (report.payloadManifestId, report.track, report.measuredGeometry, report.electricalTest,
        report.yieldOutcome, report.processNotes, report.consent, report.schemaVersion,
        report.signature, ())

end SerdeJson

end Aggregate
