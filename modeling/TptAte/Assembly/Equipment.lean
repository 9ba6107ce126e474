import TptAte.Arith.Checked
import TptAte.Assembly.Verify
import TptAte.Comm.Rng
import TptAte.Secs.Gem

/-! # Assembly equipment

The equipment's side of an assembly run: accept the Select, answer the handshake,
then for each command of the plan answer the host command and report where the die
was placed.
-/

namespace Assembly

open Secs Comm

def AssemblyTechnique.rcmd : AssemblyTechnique → String
  | .wireBond => "PLACE_WB"
  | .flipChip => "PLACE_FC"
  | .chipletPickPlace => "PLACE_PP"

/-- One placement command for the equipment; `target` is the bottom-left corner. -/
structure PlacementCommand where
  siteId : String
  chipletId : String
  target : PointNm
  orientation : Orientation
  deriving DecidableEq, Repr

/-- A placement completed; the report carries the site and where it was placed. -/
def ceidPlacementDone : UInt32 := 201

structure AssemblyEquipment where
  technique : AssemblyTechnique
  modelName : String
  seed : UInt64
  jitterNm : Float32

namespace AssemblyEquipment

/-- Half the window of the placement jitter on each axis. -/
def placementJitterNm : Float32 := 15.0

def new (technique : AssemblyTechnique) (seed : UInt64) : AssemblyEquipment :=
  let suffix :=
    match technique with
    | .wireBond => "WB"
    | .flipChip => "FC"
    | .chipletPickPlace => "PP"
  { technique, modelName := s!"TPT-SIM-{suffix}", seed, jitterNm := placementJitterNm }

def gem (equipment : AssemblyEquipment) : EquipmentGem := ⟨equipment.modelName, "0.1.0"⟩

/-- The jitter drawn for a command, in whole nanometres. -/
def drawn (equipment : AssemblyEquipment) (index : Nat) (target : PointNm) : PointNm :=
  let rng := Rng.fromParts
    [equipment.seed, UInt64.ofNat index, target.x.toUInt64, target.y.toUInt64]
  let (x, rng) := rng.uniform (-equipment.jitterNm) equipment.jitterNm
  let (y, _) := rng.uniform (-equipment.jitterNm) equipment.jitterNm
  ⟨x.toInt64, y.toInt64⟩

/-- Where a die is placed, unless that overflows. -/
def placedAt (target offset : PointNm) : Option PointNm := do
  return ⟨← Arith.checkedAdd target.x offset.x, ← Arith.checkedAdd target.y offset.y⟩

/-- A coordinate as it is sent: negative ones as zero, and the low 32 bits. -/
def sentCoordinate (value : Int64) : UInt32 := (max value 0).toUInt64.toUInt32

def placementReport (command : PlacementCommand) (placed : PointNm) : List ReportEntry :=
  [(1, [.a command.siteId, .oneU4 (sentCoordinate placed.x), .oneU4 (sentCoordinate placed.y)])]

/-- Execute one host command with a jitter: whatever command is expected, the host
command is only looked at for its name. -/
def runCommand (equipment : AssemblyEquipment) (offset : PointNm) (command : PlacementCommand) :
    Program Unit := do
  let (stream, function, body) ← equipment.gem.serveOne
  if stream ≠ 2 ∨ function ≠ 41 then
    .fail (.unexpectedStreamFunction stream function (.text s!"S2F41 for site {command.siteId}"))
  else
    match body with
    | none => .fail (.missingDataBody 2 41)
    | some body =>
        let (rcmd, _) ← .ofExcept (parseS2f41 body)
        if rcmd ≠ equipment.technique.rcmd then
          .fail (.gem (.text s!"equipment {equipment.technique.rcmd} got host command {rcmd}"))
        else
          match placedAt command.target offset with
          | none => .stop .panicked
          | some placed =>
              EquipmentGem.sendEventReport 1 ceidPlacementDone (placementReport command placed)

/-- Execute the host commands in the order in which they arrive. -/
def runCommands (equipment : AssemblyEquipment) (offset : Nat → PointNm → PointNm) :
    Nat → List PlacementCommand → Program Unit
  | _, [] => return
  | index, command :: commands => do
      equipment.runCommand (offset index command.target) command
      equipment.runCommands offset (index + 1) commands

/-- The equipment's side of a run, with the jitter that is drawn for each command. -/
def runWith (equipment : AssemblyEquipment) (offset : Nat → PointNm → PointNm)
    (commands : List PlacementCommand) : Program Unit := do
  equipment.gem.accept
  equipment.runCommands offset 0 commands

def run (equipment : AssemblyEquipment) (commands : List PlacementCommand) : Program Unit :=
  equipment.runWith equipment.drawn commands

end AssemblyEquipment

end Assembly
