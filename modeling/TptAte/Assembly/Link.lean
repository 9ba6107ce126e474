import TptAte.Assembly.Equipment

/-! # The host's link to assembly equipment

Connect, issue the placement commands of a plan one by one, and collect the events
that report the placements.
-/

namespace Assembly

open Secs HsmsSession

structure PlacementPlan where
  commands : List PlacementCommand
  deriving DecidableEq, Repr

inductive AssemblyError where
  | comm (error : SecsError)
  | commandRejected (siteId : String) (hcack : UInt8)
  | malformedEvent (siteId name : String)
  deriving Repr

abbrev AssemblyM := ExceptT AssemblyError Program

def comm {α : Type} (program : Program α) : AssemblyM α :=
  ExceptT.mk do return (← program.attempt).mapError .comm

/-- A variable of an event, or the complaint that it is missing. -/
def orMalformed {α : Type} (siteId name : String) : Option α → Except AssemblyError α
  | some value => .ok value
  | none => .error (.malformedEvent siteId name)

/-- The position that the reports of an event give for a site. -/
def reportedPlacement (siteId : String) :
    List ReportEntry → Except AssemblyError (Option PointNm)
  | [] => .ok none
  | (_, [site, x, y]) :: reports => do
      let reported ← orMalformed siteId "SITE" site.asAscii
      if reported ≠ siteId then reportedPlacement siteId reports
      else
        let x ← orMalformed siteId "X" x.asU4
        let y ← orMalformed siteId "Y" y.asU4
        return some ⟨x.toUInt64.toInt64, y.toUInt64.toInt64⟩
  | (_, vlist) :: _ => .error (.malformedEvent siteId s!"V-list of {vlist.length}")

/-- What the wait for a placement does with a primary that was served. -/
def placementSeen (siteId : String) (served : Except SecsError (UInt8 × UInt8 × Option SecsItem)) :
    Unit ⊕ Except AssemblyError PointNm :=
  match served with
  | .error error => .inr (.error (.comm error))
  | .ok (stream, function, body) =>
      if stream ≠ 6 ∨ function ≠ 11 then .inl ()
      else
        match body with
        | none => .inr (.error (.comm (.missingDataBody 6 11)))
        | some body =>
            match parseS6f11 body with
            | .error error => .inr (.error (.comm error))
            | .ok (_, ceid, reports) =>
                if ceid ≠ ceidPlacementDone then .inl ()
                else
                  match reportedPlacement siteId reports with
                  | .error error => .inr (.error error)
                  | .ok none => .inl ()
                  | .ok (some placed) => .inr (.ok placed)

/-- The wait goes on only behind a primary that was served. -/
theorem isLeft_placementSeen {siteId : String}
    {served : Except SecsError (UInt8 × UInt8 × Option SecsItem)}
    (hleft : (placementSeen siteId served).isLeft) : ∃ value, served = .ok value ∧ True := by
  cases served with
  | error error => cases hleft
  | ok value => exact ⟨value, rfl, trivial⟩

namespace AssemblyHost

def connect : Program Unit := do
  Program.select
  let (model, _) ← HostGem.onlineData
  if model.isEmpty then
    Program.fail (.gem (.text "equipment reported empty model number"))
  else
    let accepted ← HostGem.establishCommunications
    if accepted then return
    else Program.fail (.gem (.text "equipment refused to establish communications"))

/-- Wait for the placement event of a site; every primary is acknowledged. -/
def awaitPlacementEvent (siteId : String) : AssemblyM PointNm :=
  ExceptT.mk <| .loop
    (fun () => do return placementSeen siteId (← HostGem.serveEventReports.attempt))
    (fun () => (reads_serveOne _).attempt.map fun _ => isLeft_placementSeen) ()

def placementCommand (rcmd : String) (command : PlacementCommand) : SecsItem :=
  s2f41HostCommand rcmd
    [("SITE", .a command.siteId), ("X", .oneU4 (AssemblyEquipment.sentCoordinate command.target.x)),
      ("Y", .oneU4 (AssemblyEquipment.sentCoordinate command.target.y))]

/-- Issue one placement command and wait for the position that the equipment reports. -/
def place (rcmd : String) (command : PlacementCommand) : AssemblyM PointNm := do
  let (function, reply) ← comm (.transact 2 41 (some (placementCommand rcmd command)))
  if function ≠ 42 then
    throw (.comm (.unexpectedStreamFunction 2 function (.text "S2F42 acknowledge")))
  else
    let hcack := (firstBinary reply).getD 1
    if hcack ≠ hcackOk then throw (.commandRejected command.siteId hcack)
    else awaitPlacementEvent command.siteId

end AssemblyHost

/-! ## Techniques -/

/-- The record of a placement: what was commanded, and where the die was placed. -/
def recordOf (technique : AssemblyTechnique) (command : PlacementCommand) (placed : PointNm) :
    PlacementRecord :=
  { siteId := command.siteId
    chipletId := command.chipletId
    technique
    nominal := command.target
    placed
    orientation := command.orientation }

/-- One host command per command of a plan, in order. -/
def placeAll (technique : AssemblyTechnique) :
    List PlacementCommand → AssemblyM (List PlacementRecord)
  | [] => return []
  | command :: commands => do
      let placed ← AssemblyHost.place technique.rcmd command
      let records ← placeAll technique commands
      return recordOf technique command placed :: records

def executePlan (technique : AssemblyTechnique) (plan : PlacementPlan) :
    AssemblyM (List PlacementRecord) :=
  placeAll technique plan.commands

def WireBondBackend.place (plan : PlacementPlan) : AssemblyM (List PlacementRecord) :=
  executePlan .wireBond plan

def FlipChipBackend.place (plan : PlacementPlan) : AssemblyM (List PlacementRecord) :=
  executePlan .flipChip plan

def ChipletPickPlaceBackend.place (plan : PlacementPlan) : AssemblyM (List PlacementRecord) :=
  executePlan .chipletPickPlace plan

def AssemblyTechnique.place : AssemblyTechnique → PlacementPlan → AssemblyM (List PlacementRecord)
  | .wireBond => WireBondBackend.place
  | .flipChip => FlipChipBackend.place
  | .chipletPickPlace => ChipletPickPlaceBackend.place

/-- The three backends place a plan alike. -/
theorem AssemblyTechnique.place_eq (technique : AssemblyTechnique) (plan : PlacementPlan) :
    technique.place plan = executePlan technique plan := by
  cases technique <;> rfl

/-- The host's side of a run: connect and let the backend place the plan. -/
def assemble (technique : AssemblyTechnique) (plan : PlacementPlan) :
    Program (Except AssemblyError (List PlacementRecord)) := do
  AssemblyHost.connect
  (technique.place plan).run

end Assembly
