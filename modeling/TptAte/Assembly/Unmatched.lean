import TptAte.Assembly.Run
import TptAte.Secs.Crossing
import TptAte.Secs.Parties

/-! # Plans that the equipment does not expect

The host and the equipment are each given a list of commands. Whether these lists, and the
techniques, match decides how a run over the in-memory transport ends: with the records, with
an error on either side because the other one is gone, or not at all.
-/

namespace Assembly

open Secs Wire Duplex Program

/-! ## The programs as parties -/

section Ends

theorem ends_comm {α : Type} {program : Program α} (h : program.Ends) :
    (comm program).run.Ends :=
  h.attempt.bind fun _ => ends_pure _

/-- One step of the host behind another. -/
theorem ends_bind {α β : Type} {first : AssemblyM α} {next : α → AssemblyM β}
    (hfirst : first.run.Ends) (hnext : ∀ value, (next value).run.Ends) :
    (first >>= next).run.Ends := by
  rw [ExceptT.run_bind]
  refine hfirst.bind fun result => ?_
  cases result with
  | error error => exact ends_pure _
  | ok value => exact hnext value

/-- The handshake of the host ends with its stream. -/
theorem ends_connect : AssemblyHost.connect.Ends := by
  refine ends_select.bind fun _ => Ends.onlineData.bind ?_
  rintro ⟨model, rev⟩
  dsimp only
  split
  · exact ends_fail _
  · refine Ends.establishCommunications.bind fun accepted => ?_
    split
    · exact ends_pure _
    · exact ends_fail _

/-- The wait for a placement ends with its stream. -/
theorem ends_awaitPlacementEvent (siteId : String) :
    (AssemblyHost.awaitPlacementEvent siteId).run.Ends :=
  ends_loop (fun _ => (ends_serveOne _).attempt.bind fun _ => ends_pure _) ()

theorem ends_place (rcmd : String) (command : PlacementCommand) :
    (AssemblyHost.place rcmd command).run.Ends := by
  refine ends_bind (ends_comm (ends_transact _ _ _)) ?_
  rintro ⟨function, reply⟩
  dsimp only
  split
  · exact ends_pure _
  · split
    · exact ends_pure _
    · exact ends_awaitPlacementEvent _

theorem ends_placeAll (technique : AssemblyTechnique) (commands : List PlacementCommand) :
    (placeAll technique commands).run.Ends := by
  induction commands with
  | nil => exact ends_pure _
  | cons command commands ih =>
      exact ends_bind (ends_place _ command) fun placed => ends_bind ih fun records => ends_pure _

/-- The host's side of a run ends with its stream. -/
theorem ends_assemble (technique : AssemblyTechnique) (plan : PlacementPlan) :
    (assemble technique plan).Ends := by
  rw [assemble, AssemblyTechnique.place_eq]
  exact ends_connect.bind fun _ => ends_placeAll technique plan.commands

namespace AssemblyEquipment

theorem ends_runCommand (equipment : AssemblyEquipment) (offset : PointNm)
    (command : PlacementCommand) : (equipment.runCommand offset command).Ends := by
  refine (ends_serveOne _).bind ?_
  rintro ⟨stream, function, body⟩
  dsimp only
  split
  · exact ends_fail _
  · cases body with
    | none => exact ends_fail _
    | some body =>
        refine (ends_ofExcept _).bind ?_
        rintro ⟨rcmd, params⟩
        dsimp only
        split
        · exact ends_fail _
        · split
          · exact ends_panicked
          · exact Ends.sendEventReport _ _ _

theorem ends_runCommands (equipment : AssemblyEquipment) (offset : Nat → PointNm → PointNm)
    (index : Nat) (commands : List PlacementCommand) :
    (equipment.runCommands offset index commands).Ends := by
  induction commands generalizing index with
  | nil => exact ends_pure _
  | cons command commands ih =>
      exact (equipment.ends_runCommand _ command).bind fun _ => ih (index + 1)

/-- The equipment's side of a run ends with its stream. -/
theorem ends_runWith (equipment : AssemblyEquipment) (offset : Nat → PointNm → PointNm)
    (commands : List PlacementCommand) : (equipment.runWith offset commands).Ends :=
  (Ends.accept _).bind fun _ => equipment.ends_runCommands offset 0 commands

end AssemblyEquipment

end Ends

/-! ## How the lists match -/

/-- What the host's side of a run comes to, if to anything. -/
abbrev HostOutcome := Option (Except Stop (Except AssemblyError (List PlacementRecord)))

/-- What the equipment's side of a run comes to, if to anything. -/
abbrev EquipmentOutcome := Option (Except Stop Unit)

/-- The host comes to the end of its stream in front of a message. -/
def hostCutOff : HostOutcome := some (.ok (.error (.comm (.unexpectedEof 4 0))))

/-- The equipment comes to the end of its stream in front of a message. -/
def equipmentCutOff : EquipmentOutcome := some (.error (.error (.unexpectedEof 4 0)))

def wrongCommand (expected sent : AssemblyTechnique) : EquipmentOutcome :=
  some (.error (.error (.gem (.text s!"equipment {expected.rcmd} got host command {sent.rcmd}"))))

/-- One more record in front of those that the host comes to. -/
def withRecord (record : PlacementRecord) (outcome : HostOutcome × EquipmentOutcome) :
    HostOutcome × EquipmentOutcome :=
  (outcome.1.map (·.map (·.map (record :: ·))), outcome.2)

/-- How a run ends when the host places commands and the equipment of a technique expects
commands: they are compared one by one. -/
def conclusion (technique technique' : AssemblyTechnique) (offset : Nat → PointNm → PointNm) :
    Nat → List PlacementCommand → List PlacementCommand → HostOutcome × EquipmentOutcome
  | _, [], [] => (some (.ok (.ok [])), some (.ok ()))
  | _, [], _ :: _ => (some (.ok (.ok [])), equipmentCutOff)
  | _, _ :: _, [] => (hostCutOff, some (.ok ()))
  | index, command :: commands, expected :: expecteds =>
      if technique ≠ technique' then (hostCutOff, wrongCommand technique' technique)
      else if (AssemblyEquipment.placedAt expected.target
          (offset index expected.target)).isNone then
        (hostCutOff, some (.error .panicked))
      else if expected.siteId ≠ command.siteId then
        -- the host waits for the report of another site, the equipment for the next command
        if expecteds = [] then (hostCutOff, some (.ok ())) else (none, none)
      else
        withRecord (recordOf technique command
            (reportedAt expected.target (offset index expected.target)))
          (conclusion technique technique' offset (index + 1) commands expecteds)

/-! ## One command -/

section Command

variable {control control' : Control} {technique technique' : AssemblyTechnique}

theorem waits_comm {α : Type} {program : Program α} {written : Bytes} {error : SecsError}
    (h : program.Waits control written (.error (.error error))) :
    (comm program).run.Waits control written (.ok (.error (.comm error))) := by
  apply Waits.bind_pure h.attempt
  rfl

/-- The host waits for a placement event that does not come. -/
theorem waits_awaitPlacementEvent (hselected : control.state = .selected) (siteId : String) :
    (AssemblyHost.awaitPlacementEvent siteId).run.Waits control []
      (.ok (.error (.comm (.unexpectedEof 4 0)))) := by
  apply Waits.loop_leaves
  exact (waits_serveOne hselected _).attempt.bind_pure rfl

/-- The host has sent a command that nobody answers. -/
theorem waits_place (hselected : control.state = .selected) {command : PlacementCommand}
    (hsite : (asBytes command.siteId).length ≤ maxLength) (technique : AssemblyTechnique) :
    ∃ written, (AssemblyHost.place technique.rcmd command).run.Waits control written
      (.ok (.error (.comm (.unexpectedEof 4 0)))) := by
  obtain ⟨hencodable, -⟩ := fitsFrame_placementCommand hsite technique
  obtain ⟨written, hwritten⟩ := Option.isSome_iff_exists.mp <|
    @HsmsSession.isSome_toBytes_primary (control.session []) 2 41
      (some (AssemblyHost.placementCommand technique.rcmd command))
      fun item hitem => Option.some.inj hitem ▸ hencodable
  have htransact := waits_comm (@waits_transact control hselected 2 41 (by decide) _ _ hwritten)
  refine ⟨written, ?_⟩
  rw [AssemblyHost.place, ExceptT.run_bind]
  apply htransact.bind_pure
  rfl

/-- What the equipment does about the command of a technique behind its acknowledge. -/
def executed (sent equipped : AssemblyTechnique) (offset : PointNm)
    (expected : PlacementCommand) : Program Unit :=
  if sent.rcmd ≠ equipped.rcmd then
    .fail (.gem (.text s!"equipment {equipped.rcmd} got host command {sent.rcmd}"))
  else
    match AssemblyEquipment.placedAt expected.target offset with
    | none => .stop .panicked
    | some placed =>
        EquipmentGem.sendEventReport 1 ceidPlacementDone
          (AssemblyEquipment.placementReport expected placed)

theorem ends_executed (technique technique' : AssemblyTechnique) (offset : PointNm)
    (expected : PlacementCommand) : (executed technique technique' offset expected).Ends := by
  rw [executed]
  split
  · exact ends_fail _
  · split
    · exact ends_panicked
    · exact Ends.sendEventReport _ _ _

/-- Behind a command and its acknowledge the host waits for the placement event. -/
theorem leads_commanded (hselected : control.state = .selected)
    (hselected' : control'.state = .selected) {command expected : PlacementCommand}
    (hsite : (asBytes command.siteId).length ≤ maxLength) {offset : PointNm} {seed : UInt64}
    {α β : Type} {next : Except AssemblyError PointNm → Program α} {next' : Unit → Program β}
    (hnext : ∀ placed, (next placed).Ends) (hnext' : ∀ value, (next' value).Ends)
    {outcome : Option (Except Stop α)} {outcome' : Option (Except Stop β)}
    (h : ((AssemblyHost.awaitPlacementEvent command.siteId).run >>= next).Leads control.advanced
      (executed technique technique' offset expected >>= next') control' outcome outcome') :
    ((AssemblyHost.place technique.rcmd command).run >>= next).Leads control
      ((AssemblyEquipment.new technique' seed).runCommand offset expected >>= next') control'
      outcome outcome' := by
  have hbody : parseS2f41 (AssemblyHost.placementCommand technique.rcmd command) =
      .ok (technique.rcmd, _) := parseS2f41_hostCommand _ _
  have hserved := meets_comm (meets_served hselected hselected'
    (by decide : (2 : UInt8) ≤ 127) (by decide : (41 : UInt8) ≤ 126)
    (fitsFrame_placementCommand hsite technique)
    (by rfl : (AssemblyEquipment.new technique' seed).gem.answer 2 41 _ = some _)
    (fitsFrame_byte 0))
  have hawait := (ends_awaitPlacementEvent command.siteId).bind hnext
  have hexecuted := (ends_executed technique technique' offset expected).bind hnext'
  rw [AssemblyHost.place, ExceptT.run_bind, AssemblyEquipment.runCommand, bind_assoc, bind_assoc]
  refine Leads.behind hserved (ends_comm (ends_transact _ _ _)) (ends_serveOne _) ?_ ?_ ?_
  · dsimp only
    rw [if_neg (by decide), if_neg (by decide)]
    exact hawait
  · dsimp only
    rw [if_neg (by decide), hbody]
    exact hexecuted
  · dsimp only
    rw [if_neg (by decide), if_neg (by decide), if_neg (by decide), hbody]
    exact h

/-- The event of another site leaves the host waiting. -/
theorem meets_otherSite (hselected : control.state = .selected)
    (hselected' : control'.state = .selected) {siteId : String} {expected : PlacementCommand}
    (hsite : (asBytes expected.siteId).length ≤ maxLength) (hne : expected.siteId ≠ siteId)
    (placed : PointNm) :
    (HostGem.serveEventReports.attempt >>= fun served =>
        pure (placementSeen siteId served)).Meets control
      (EquipmentGem.sendEventReport 1 ceidPlacementDone
        (AssemblyEquipment.placementReport expected placed)) control'
      (.inl ()) control () control'.advanced := by
  refine (HostGem.meets_sendEventReport hselected' hselected
    (fitsFrame_placementReport hsite placed)).swap.attempt.then_left ?_
  dsimp only [placementSeen]
  rw [if_neg (by decide), parseS6f11_eventReport]
  dsimp only
  rw [if_neg (by decide)]
  simp [reportedPlacement, AssemblyEquipment.placementReport, SecsItem.a, SecsItem.asAscii,
    orMalformed, Reader.ok_bind, hne]

/-- The event of the awaited site is what the host waits for. -/
theorem meets_ownSite (hselected : control.state = .selected)
    (hselected' : control'.state = .selected) {expected : PlacementCommand}
    (hsite : (asBytes expected.siteId).length ≤ maxLength) (offset : PointNm) :
    (AssemblyHost.awaitPlacementEvent expected.siteId).run.Meets control
      (EquipmentGem.sendEventReport 1 ceidPlacementDone
        (AssemblyEquipment.placementReport expected (pointAt expected.target offset))) control'
      (.ok (reportedAt expected.target offset)) control () control'.advanced := by
  refine Meets.loop_leaves ?_
  refine (HostGem.meets_sendEventReport hselected' hselected
    (fitsFrame_placementReport hsite _)).swap.attempt.then_left ?_
  dsimp only [placementSeen, pointAt]
  rw [if_neg (by decide), parseS6f11_eventReport]
  dsimp only
  rw [if_neg (by decide), reportedPlacement_report]

/-- The equipment waits for the next command. -/
theorem waits_runCommands (hselected : control.state = .selected) (equipment : AssemblyEquipment)
    (offset : Nat → PointNm → PointNm) (index : Nat) (expected : PlacementCommand)
    (expecteds : List PlacementCommand) :
    (equipment.runCommands offset index (expected :: expecteds)).Waits control []
      (.error (.error (.unexpectedEof 4 0))) :=
  ((waits_serveOne hselected _).bind_error _).bind_error _

/-- One round of the wait for a placement: serve a primary, and leave or go on with what it says. -/
theorem run_awaitPlacementEvent (siteId : String) :
    (AssemblyHost.awaitPlacementEvent siteId).run =
      (HostGem.serveEventReports.attempt >>= fun served =>
        pure (placementSeen siteId served)) >>= fun
          | .inl () => (AssemblyHost.awaitPlacementEvent siteId).run
          | .inr placed => pure placed := by
  refine (loop_eq ()).trans ?_
  congr 1
  funext next
  cases next <;> rfl

/-- Behind the event of another site the host waits for a further event, and the equipment
for a further command, if it expects one. -/
theorem leads_otherSite (hselected : control.state = .selected)
    (hselected' : control'.state = .selected) {siteId : String} {expected : PlacementCommand}
    (hsite : (asBytes expected.siteId).length ≤ maxLength) (hne : expected.siteId ≠ siteId)
    {placed : PointNm} {equipment : AssemblyEquipment} {offset : Nat → PointNm → PointNm}
    {index : Nat} {expecteds : List PlacementCommand} {α : Type}
    {next : Except AssemblyError PointNm → Program α} {result : α}
    (hends : ∀ placed, (next placed).Ends)
    (hnext : next (.error (.comm (.unexpectedEof 4 0))) = pure result) :
    ((AssemblyHost.awaitPlacementEvent siteId).run >>= next).Leads control
      (EquipmentGem.sendEventReport 1 ceidPlacementDone
          (AssemblyEquipment.placementReport expected placed) >>= fun _ =>
        equipment.runCommands offset index expecteds) control'
      (if expecteds = [] then some (.ok result) else none)
      (if expecteds = [] then some (.ok ()) else none) := by
  have hother := meets_otherSite hselected hselected' hsite hne placed
  have hawait := (ends_awaitPlacementEvent siteId).bind hends
  have hround : (HostGem.serveEventReports.attempt >>= fun served =>
      pure (placementSeen siteId served) : Program _).Ends :=
    (ends_serveOne _).attempt.bind fun _ => ends_pure _
  have hwaits := (waits_awaitPlacementEvent hselected siteId).bind_pure hnext
  rw [run_awaitPlacementEvent, bind_assoc]
  refine Leads.behind hother hround (Ends.sendEventReport _ _ _) hawait
    (equipment.ends_runCommands offset index expecteds) ?_
  cases expecteds with
  | nil => exact hwaits.leads (leaves_pure () _)
  | cons expected' expecteds =>
      have hselected'' : control'.advanced.state = .selected := hselected'
      exact hwaits.stuck (waits_runCommands hselected'' equipment offset index expected' expecteds)

end Command

/-! ## Command by command -/

section PlaceAll

variable {control control' : Control} {technique technique' : AssemblyTechnique} {α : Type}

/-- What the host does behind the placement of a command. -/
def afterPlace (technique : AssemblyTechnique) (command : PlacementCommand)
    (commands : List PlacementCommand) (result : Except AssemblyError (List PlacementRecord) → α) :
    Except AssemblyError PointNm → Program α
  | .ok placed => (placeAll technique commands).run >>= fun records =>
      pure (result (records.map (recordOf technique command placed :: ·)))
  | .error error => pure (result (.error error))

/-- The host places one command and then the others. -/
theorem run_placeAll_cons (command : PlacementCommand) (commands : List PlacementCommand)
    (result : Except AssemblyError (List PlacementRecord) → α) :
    ((placeAll technique (command :: commands)).run >>= fun placed => pure (result placed)) =
      (AssemblyHost.place technique.rcmd command).run >>=
        afterPlace technique command commands result := by
  rw [placeAll, ExceptT.run_bind, bind_assoc]
  congr 1
  funext placed
  cases placed with
  | error error => exact pure_bind _ _
  | ok placed =>
      dsimp only
      rw [ExceptT.run_bind, bind_assoc]
      congr 1
      funext records
      cases records <;> exact pure_bind _ _

theorem map_withRecord (record : PlacementRecord) (outcome : HostOutcome × EquipmentOutcome)
    (result : Except AssemblyError (List PlacementRecord) → α) :
    (withRecord record outcome).1.map (·.map result) =
      outcome.1.map (·.map fun records => result (records.map (record :: ·))) := by
  obtain ⟨_ | _ | _, _⟩ := outcome <;> rfl

/-- Each technique has a remote command of its own. -/
theorem rcmd_ne (h : technique ≠ technique') : technique.rcmd ≠ technique'.rcmd := by
  cases technique <;> cases technique' <;> first | exact (h rfl).elim | decide

/-- How a run goes on where the host issues commands and the equipment expects commands. -/
theorem leads_placeAll {seed : UInt64} {offset : Nat → PointNm → PointNm}
    {commands expecteds : List PlacementCommand} {index : Nat}
    (hsites : ∀ command ∈ commands, (asBytes command.siteId).length ≤ maxLength)
    (hsites' : ∀ expected ∈ expecteds, (asBytes expected.siteId).length ≤ maxLength)
    (hselected : control.state = .selected) (hselected' : control'.state = .selected)
    (result : Except AssemblyError (List PlacementRecord) → α) :
    ((placeAll technique commands).run >>= fun placed => pure (result placed)).Leads control
      ((AssemblyEquipment.new technique' seed).runCommands offset index expecteds) control'
      ((conclusion technique technique' offset index commands expecteds).1.map (·.map result))
      (conclusion technique technique' offset index commands expecteds).2 := by
  -- by induction on the commands of the host, with the list of the equipment taken along
  induction commands generalizing expecteds index control control' result with
  | nil =>
      cases expecteds with
      | nil => exact (meets_pure control control' (result (.ok [])) ()).leads
      | cons expected expecteds =>
          -- the host is through, and the equipment waits for a command of its list
          have hwaits := waits_runCommands hselected' (.new technique' seed) offset index expected
            expecteds
          exact (hwaits.leads (leaves_pure (result (.ok [])) control)).swap
  | cons command commands ih =>
      rw [List.forall_mem_cons] at hsites
      rw [run_placeAll_cons]
      cases expecteds with
      | nil =>
          -- the equipment is through, and the host waits for the reply to its command
          obtain ⟨written, hwaits⟩ := waits_place hselected hsites.1 technique
          refine Waits.leads (hwaits.bind_pure ?_) (leaves_pure () control')
          rfl
      | cons expected expecteds =>
          rw [List.forall_mem_cons] at hsites'
          have hadvanced : control.advanced.state = .selected := hselected
          have hadvanced' : control'.advanced.state = .selected := hselected'
          have hequipment (value : Unit) :=
            (AssemblyEquipment.new technique' seed).ends_runCommands offset (index + 1) expecteds
          have hnext (placed : Except AssemblyError PointNm) :
              (afterPlace technique command commands result placed).Ends := by
            cases placed with
            | error error => exact ends_pure _
            | ok placed => exact (ends_placeAll technique commands).bind fun _ => ends_pure _
          refine leads_commanded hselected hselected' hsites.1 hnext hequipment ?_
          · rw [conclusion, executed]
            have hcutOff := waits_awaitPlacementEvent hadvanced command.siteId
            by_cases htechnique : technique = technique'
            case neg =>
              -- `run_command` refuses the command of another technique and returns
              rw [if_pos htechnique, if_pos (rcmd_ne htechnique)]
              refine Waits.leads (hcutOff.bind_pure ?_) (leaves_stop ?_ _ _)
              · rfl
              · nofun
            case pos =>
              subst htechnique
              rw [if_neg (not_not.mpr rfl), if_neg (not_not.mpr rfl)]
              cases hplaced : AssemblyEquipment.placedAt expected.target
                  (offset index expected.target) with
              | none =>
                  -- the coordinates overflow, and `run_command` returns with the error
                  refine Waits.leads (hcutOff.bind_pure ?_) (leaves_stop ?_ _ _)
                  · rfl
                  · nofun
              | some placed =>
                  dsimp only [Option.isNone_some]
                  rw [if_neg Bool.false_ne_true]
                  by_cases hsite : expected.siteId = command.siteId
                  case neg =>
                    -- the event is about another site, which the host does not take
                    rw [if_pos hsite]
                    have hother := @leads_otherSite _ _ hadvanced hselected' _ _ hsites'.1 hsite
                      placed (.new technique seed) offset (index + 1) expecteds _ _ _ hnext rfl
                    split
                    · next hnone =>
                        rw [if_pos hnone, if_pos hnone] at hother
                        exact hother
                    · next hsome =>
                        rw [if_neg hsome, if_neg hsome] at hother
                        exact hother
                  case pos =>
                    rw [if_neg (not_not.mpr hsite), ← hsite]
                    -- the placement is told and acknowledged, and both go on to the next command
                    have hown := meets_ownSite hadvanced hselected' hsites'.1
                      (offset index expected.target)
                    have hplaced' := placedAt_of_isSome (Option.isSome_of_eq_some hplaced)
                    rw [hplaced] at hplaced'
                    cases hplaced'
                    refine Leads.behind hown (ends_awaitPlacementEvent _)
                      (Ends.sendEventReport _ _ _) (hnext _) (hequipment ()) ?_
                    rw [map_withRecord]
                    exact ih hsites.2 hsites'.2 hadvanced hadvanced' _

end PlaceAll

/-! ## What the comparison comes to -/

section Conclusion

variable {technique technique' : AssemblyTechnique} {offset : Nat → PointNm → PointNm}

/-- The die that a command asks for can be placed without an overflow. -/
def Placeable (offset : Nat → PointNm → PointNm) (entry : PlacementCommand × Nat) : Prop :=
  (AssemblyEquipment.placedAt entry.1.target (offset entry.2 entry.1.target)).isSome

/-- The records of commands for the sites that the equipment expects: each gives the position at
which the equipment placed the die that it expected. -/
def recordsAlong (technique : AssemblyTechnique) (offset : Nat → PointNm → PointNm) (index : Nat)
    (commands expecteds : List PlacementCommand) : List PlacementRecord :=
  (commands.zip (expecteds.zipIdx index)).map fun (command, expected, index) =>
    recordOf technique command (reportedAt expected.target (offset index expected.target))

/-- The host returns records behind one that it has if it returns the later ones. -/
theorem records_withRecord_iff {record : PlacementRecord} {records : List PlacementRecord}
    {outcome : HostOutcome × EquipmentOutcome} :
    (withRecord record outcome).1 = some (.ok (.ok records)) ↔
      ∃ later, outcome.1 = some (.ok (.ok later)) ∧ records = record :: later := by
  obtain ⟨_ | _ | _ | _, _⟩ := outcome <;> simp [withRecord, Except.map, eq_comm]

/-- The host gets its records exactly if the equipment expects its commands first. -/
theorem conclusion_records_iff {index : Nat} {commands expecteds : List PlacementCommand}
    {records : List PlacementRecord} :
    (conclusion technique technique' offset index commands expecteds).1 =
        some (.ok (.ok records)) ↔
      (commands = [] ∨ technique = technique') ∧
        commands.map (·.siteId) <+: expecteds.map (·.siteId) ∧
        (∀ entry ∈ (expecteds.take commands.length).zipIdx index, Placeable offset entry) ∧
        records = recordsAlong technique offset index commands expecteds := by
  induction commands generalizing expecteds index records with
  | nil => cases expecteds <;> simp [conclusion, recordsAlong, eq_comm]
  | cons command commands ih =>
      cases expecteds with
      -- the equipment has no command left, so that the host is cut off
      | nil => simp [conclusion, hostCutOff]
      | cons expected expecteds =>
          rw [conclusion]
          by_cases htechnique : technique = technique'
          case neg => simp [htechnique, hostCutOff]
          case pos =>
            by_cases hplaces : Placeable offset (expected, index)
            case neg =>
              have hnone := Option.not_isSome_iff_eq_none.mp hplaces
              simp [htechnique, hostCutOff, hnone, hplaces]
            case pos =>
              have hsome := Option.isNone_eq_false_iff.mpr hplaces
              by_cases hsite : expected.siteId = command.siteId
              case neg =>
                have hne := Ne.symm hsite
                cases expecteds <;> simp [htechnique, hostCutOff, hsome, hsite, hne]
              case pos =>
                subst htechnique
                -- the placement is confirmed, and its record stands in front of the later ones
                rw [if_neg (not_not.mpr rfl), if_neg (by rw [hsome]; exact Bool.false_ne_true),
                  if_neg (not_not.mpr hsite), records_withRecord_iff]
                simp only [ih, or_true, true_and, List.map_cons, List.cons_prefix_cons,
                  List.length_cons, List.take_succ_cons, List.zipIdx_cons, List.forall_mem_cons,
                  hplaces, hsite]
                constructor
                · rintro ⟨later, ⟨hsites, hplaced, rfl⟩, rfl⟩
                  exact ⟨hsites, hplaced, rfl⟩
                · rintro ⟨hsites, hplaced, rfl⟩
                  exact ⟨_, ⟨hsites, hplaced, rfl⟩, rfl⟩

/-- The sites agree up to this index, at which the equipment places the die of another site and
expects a further command. -/
structure PartsAt (offset : Nat → PointNm → PointNm) (index : Nat)
    (commands expecteds : List PlacementCommand) (n : Nat) : Prop where
  commanded : n < commands.length
  expected : n + 1 < expecteds.length
  before : (commands.take n).map (·.siteId) = (expecteds.take n).map (·.siteId)
  parts : commands[n]?.map (·.siteId) ≠ expecteds[n]?.map (·.siteId)
  places : ∀ entry ∈ (expecteds.take (n + 1)).zipIdx index, Placeable offset entry

section Parts

variable {index : Nat} {command expected : PlacementCommand}
  {commands expecteds : List PlacementCommand}

/-- The parties part at the first command if it is placed at another site than commanded while
further ones are expected. -/
theorem partsAt_zero_iff : PartsAt offset index (command :: commands) (expected :: expecteds) 0 ↔
    Placeable offset (expected, index) ∧ expected.siteId ≠ command.siteId ∧ expecteds ≠ [] := by
  constructor
  · rintro ⟨-, hexpected, -, hparts, hplaces⟩
    refine ⟨hplaces _ (by simp), ?_, ?_⟩
    · simpa [eq_comm] using hparts
    · rintro rfl
      simp at hexpected
  · rintro ⟨hplaces, hparts, hexpecteds⟩
    have hlength := List.length_pos_of_ne_nil hexpecteds
    exact ⟨by simp, by simpa using hlength, rfl, by simpa [eq_comm] using hparts,
      by simpa using hplaces⟩

/-- They part later if the first command is placed at its site and they part among the others. -/
theorem partsAt_succ_iff {n : Nat} :
    PartsAt offset index (command :: commands) (expected :: expecteds) (n + 1) ↔
      Placeable offset (expected, index) ∧ expected.siteId = command.siteId ∧
        PartsAt offset (index + 1) commands expecteds n := by
  constructor
  · rintro ⟨hcommanded, hexpected, hbefore, hparts, hplaces⟩
    simp only [List.length_cons, List.take_succ_cons, List.map_cons, List.cons.injEq,
      List.getElem?_cons_succ, List.zipIdx_cons, List.forall_mem_cons, Nat.add_lt_add_iff_right]
      at hcommanded hexpected hbefore hparts hplaces
    exact ⟨hplaces.1, hbefore.1.symm, hcommanded, hexpected, hbefore.2, hparts, hplaces.2⟩
  · rintro ⟨hplaced, hsite, hcommanded, hexpected, hbefore, hparts, hplaces⟩
    refine ⟨Nat.succ_lt_succ hcommanded, Nat.succ_lt_succ hexpected, ?_, hparts, ?_⟩
    · rw [List.take_succ_cons, List.take_succ_cons, List.map_cons, List.map_cons, hbefore, hsite]
    · rw [List.take_succ_cons, List.zipIdx_cons, List.forall_mem_cons]
      exact ⟨hplaced, hplaces⟩

end Parts

/-- The run never ends exactly if the equipment places a die at another site than the host
waits for and expects a further command. -/
theorem conclusion_none_iff {index : Nat} {commands expecteds : List PlacementCommand} :
    (conclusion technique technique' offset index commands expecteds).1 = none ↔
      technique = technique' ∧ ∃ n, PartsAt offset index commands expecteds n := by
  induction commands generalizing expecteds index with
  | nil =>
      have hnot (n : Nat) : ¬ PartsAt offset index [] expecteds n := fun h =>
        absurd h.commanded (Nat.not_lt_zero n)
      cases expecteds <;> simp [conclusion, hnot]
  | cons command commands ih =>
      cases expecteds with
      | nil =>
          have hnot (n : Nat) : ¬ PartsAt offset index (command :: commands) [] n := fun h =>
            absurd h.expected (Nat.not_lt_zero _)
          simp [conclusion, hostCutOff, hnot]
      | cons expected expecteds =>
          rw [conclusion, ← Nat.or_exists_add_one, partsAt_zero_iff]
          simp only [partsAt_succ_iff]
          by_cases htechnique : technique = technique'
          case neg => simp [htechnique, hostCutOff]
          case pos =>
            subst htechnique
            by_cases hplaces : Placeable offset (expected, index)
            case neg =>
              have hnone := Option.not_isSome_iff_eq_none.mp hplaces
              simp [hostCutOff, hnone, hplaces]
            case pos =>
              have hsome := Option.isNone_eq_false_iff.mpr hplaces
              by_cases hsite : expected.siteId = command.siteId
              case neg => cases expecteds <;> simp [hostCutOff, hsome, hsite, hplaces]
              case pos => simp [hsome, hsite, hplaces, withRecord, ih]

end Conclusion

/-! ## Whole runs -/

section Runs

variable {technique technique' : AssemblyTechnique} {sessionId sessionId' : UInt16} {seed : UInt64}
  {offset : Nat → PointNm → PointNm} {plan : PlacementPlan} {expecteds : List PlacementCommand}

/-- The host as a party of the connection. -/
def hostParty (technique : AssemblyTechnique) (plan : PlacementPlan) (sessionId : UInt16) :
    Ending UInt8 UInt8 (Except Stop (Except AssemblyError (List PlacementRecord))) :=
  (assemble technique plan).party (ends_assemble technique plan) (.new sessionId)

def equipmentParty (technique : AssemblyTechnique) (seed : UInt64)
    (offset : Nat → PointNm → PointNm) (expecteds : List PlacementCommand) (sessionId : UInt16) :
    Ending UInt8 UInt8 (Except Stop Unit) :=
  ((AssemblyEquipment.new technique seed).runWith offset expecteds).party
    ((AssemblyEquipment.new technique seed).ends_runWith offset expecteds) (.new sessionId)

/-- All runs over the transport are finite and end as the comparison of the commands says. -/
theorem connects_conclusion
    (hsites : ∀ command ∈ plan.commands, (asBytes command.siteId).length ≤ maxLength)
    (hsites' : ∀ expected ∈ expecteds, (asBytes expected.siteId).length ≤ maxLength) :
    Comm.Connects (hostParty technique plan sessionId)
      (equipmentParty technique' seed offset expecteds sessionId')
      (conclusion technique technique' offset 0 plan.commands expecteds).1
      (conclusion technique technique' offset 0 plan.commands expecteds).2 := by
  apply Leads.connects
  have hplaced := @leads_placeAll (Control.new sessionId).advanced.selected.advanced.advanced
    (Control.new sessionId').selected technique technique' _ seed offset plan.commands expecteds 0
    hsites hsites' rfl rfl id
  simp only [Except.map_id, Option.map_id', id_eq, bind_pure] at hplaced
  rw [assemble, AssemblyTechnique.place_eq, executePlan]
  exact Leads.behind (meets_connect _ _ technique' seed) ends_connect (Ends.accept _)
    (ends_placeAll technique plan.commands)
    (AssemblyEquipment.ends_runCommands _ offset 0 expecteds) hplaced

/-- Over the transport the host gets its records exactly if the equipment has the same technique
and expects the commands of the plan first, by their sites; the positions are those of the dies
that the equipment expected. -/
theorem returns_records_iff
    (hsites : ∀ command ∈ plan.commands, (asBytes command.siteId).length ≤ maxLength)
    (hsites' : ∀ expected ∈ expecteds, (asBytes expected.siteId).length ≤ maxLength) :
    Terminates (Comm.Connection.step (hostParty technique plan sessionId)
        (equipmentParty technique' seed offset expecteds sessionId')) .start ∧
      ∀ connection, Comm.Ran (hostParty technique plan sessionId)
          (equipmentParty technique' seed offset expecteds sessionId') connection →
        ∀ records, (hostParty technique plan sessionId).returns
            (Comm.takenBy .left connection.history) = some (.ok (.ok records)) ↔
          (plan.commands = [] ∨ technique = technique') ∧
            plan.commands.map (·.siteId) <+: expecteds.map (·.siteId) ∧
            (∀ entry ∈ (expecteds.take plan.commands.length).zipIdx, Placeable offset entry) ∧
            records = recordsAlong technique offset 0 plan.commands expecteds := by
  have hconnects := @connects_conclusion technique technique' sessionId sessionId' seed offset plan
    expecteds hsites hsites'
  refine ⟨hconnects.1, fun connection hran records => ?_⟩
  rw [(hconnects.2 connection hran.reaches hran.atRest).1]
  exact conclusion_records_iff

/-- Over the transport both parties wait for ever exactly if the equipment comes to place a die at
another site than the host has commanded, and expects a further command. -/
theorem wait_iff_partsAt
    (hsites : ∀ command ∈ plan.commands, (asBytes command.siteId).length ≤ maxLength)
    (hsites' : ∀ expected ∈ expecteds, (asBytes expected.siteId).length ≤ maxLength) :
    Terminates (Comm.Connection.step (hostParty technique plan sessionId)
        (equipmentParty technique' seed offset expecteds sessionId')) .start ∧
      ∀ connection, Comm.Ran (hostParty technique plan sessionId)
          (equipmentParty technique' seed offset expecteds sessionId') connection →
        ((∀ side, ¬ Comm.Dropped side connection.history) ↔
          technique = technique' ∧ ∃ n, PartsAt offset 0 plan.commands expecteds n) := by
  have hconnects := @connects_conclusion technique technique' sessionId sessionId' seed offset plan
    expecteds hsites hsites'
  refine ⟨hconnects.1, fun connection hran => ?_⟩
  obtain ⟨hhost, -⟩ := hconnects.2 connection hran.reaches hran.atRest
  rw [← conclusion_none_iff, ← hhost]
  rcases hran.both_or_neither with ⟨hreturned, -, hdropped⟩ | ⟨hwaits, -, hheld⟩
  · constructor
    · intro hheld
      exact (hheld .left (hdropped .left)).elim
    · intro hwaits
      rw [hwaits] at hreturned
      cases hreturned
  · exact iff_of_true (fun side => (hheld side).1) hwaits

theorem asBytes_twoPlacements : ∀ command ∈ twoPlacements.commands,
    (asBytes command.siteId).length ≤ maxLength := by
  intro command hcommand
  simp only [twoPlacements, List.mem_cons, List.not_mem_nil, or_false] at hcommand
  rcases hcommand with rfl | rfl <;> exact (by decide : 1 ≤ 0xFFFFFF)

/-- An equipment that expects one more command than the plan has. -/
theorem returns_records_twoPlacements : ∃ connection,
    Comm.Ran (hostParty .flipChip twoPlacements 7)
      (equipmentParty .flipChip 42 (fun _ _ => ⟨15, -15⟩)
        (twoPlacements.commands ++ twoPlacements.commands) 9) connection ∧
    (hostParty .flipChip twoPlacements 7).returns (Comm.takenBy .left connection.history) =
      some (.ok (.ok (recordsAlong .flipChip (fun _ _ => ⟨15, -15⟩) 0 twoPlacements.commands
        (twoPlacements.commands ++ twoPlacements.commands)))) := by
  obtain ⟨hterminates, hreturns⟩ := @returns_records_iff .flipChip .flipChip 7 9 42
    (fun _ _ => ⟨15, -15⟩) twoPlacements (twoPlacements.commands ++ twoPlacements.commands)
    asBytes_twoPlacements
    (List.forall_mem_append.mpr ⟨asBytes_twoPlacements, asBytes_twoPlacements⟩)
  obtain ⟨connection, hreaches, hrest⟩ := hterminates.exists_still
  refine ⟨connection, ⟨hreaches, hrest⟩, ?_⟩
  refine (hreturns connection ⟨hreaches, hrest⟩ _).mpr ⟨.inr rfl, ?_, ?_, rfl⟩
  · rw [List.map_append]
    exact List.prefix_append _ _
  · rw [List.take_left]
    unfold Placeable
    decide

/-- An equipment that expects the commands of the plan the other way round. -/
theorem wait_iff_partsAt_twoPlacements : ∃ connection,
    Comm.Ran (hostParty .flipChip twoPlacements 7)
      (equipmentParty .flipChip 42 (fun _ _ => ⟨15, -15⟩) twoPlacements.commands.reverse 9)
      connection ∧
    ∀ side, ¬ Comm.Dropped side connection.history := by
  obtain ⟨hterminates, hwaits⟩ := @wait_iff_partsAt .flipChip .flipChip 7 9 42
    (fun _ _ => ⟨15, -15⟩) twoPlacements twoPlacements.commands.reverse asBytes_twoPlacements
    (fun expected hexpected => asBytes_twoPlacements expected (List.mem_reverse.mp hexpected))
  obtain ⟨connection, hreaches, hrest⟩ := hterminates.exists_still
  refine ⟨connection, ⟨hreaches, hrest⟩, ?_⟩
  refine (hwaits connection ⟨hreaches, hrest⟩).mpr
    ⟨rfl, 0, by decide, by decide, rfl, by decide, ?_⟩
  unfold Placeable
  decide

end Runs

end Assembly
