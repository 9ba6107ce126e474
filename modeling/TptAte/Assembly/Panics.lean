import TptAte.Assembly.Run
import TptAte.Secs.Panics

/-! # Assembly runs that do not panic

What a peer sends brings neither side of an assembly run to a panic. The list of commands
that a side is given may: a site whose name is too long for an item, and, at the equipment,
a position that overflows. Then there is a peer that brings the side to it.
-/

namespace Assembly

open Secs Wire Program

variable {α β : Type}

/-! ## The host's side -/

theorem neverPanics_comm {program : Program α} (h : program.NeverPanics) :
    (comm program).run.NeverPanics :=
  h.attempt.bind fun _ => neverPanics_pure _

/-- One step of the host behind another. -/
theorem neverPanics_bind {first : AssemblyM α} {next : α → AssemblyM β}
    (hfirst : first.run.NeverPanics) (hnext : ∀ value, (next value).run.NeverPanics) :
    (first >>= next).run.NeverPanics := by
  rw [ExceptT.run_bind]
  refine hfirst.bind fun result => ?_
  cases result with
  | error error => exact neverPanics_pure _
  | ok value => exact hnext value

/-- The handshake sends items of constant size and panics at no answer. -/
theorem neverPanics_connect : AssemblyHost.connect.NeverPanics := by
  refine neverPanics_select.bind fun _ => HostGem.neverPanics_onlineData.bind ?_
  rintro ⟨model, rev⟩
  dsimp only
  split
  · exact neverPanics_fail _
  · refine HostGem.neverPanics_establishCommunications.bind fun accepted => ?_
    split
    · exact neverPanics_pure _
    · exact neverPanics_fail _

/-- No event report brings the wait for a placement to a panic. -/
theorem neverPanics_awaitPlacementEvent (siteId : String) :
    (AssemblyHost.awaitPlacementEvent siteId).run.NeverPanics :=
  neverPanics_loop (fun _ => HostGem.neverPanics_serveEventReports.attempt.bind fun _ =>
    neverPanics_pure _) ()

/-- A command is sent and awaited without a panic if its site id fits an item. -/
theorem neverPanics_place {command : PlacementCommand}
    (hsite : (asBytes command.siteId).length ≤ maxLength) (technique : AssemblyTechnique) :
    (AssemblyHost.place technique.rcmd command).run.NeverPanics := by
  have hcommand := (fitsFrame_placementCommand hsite technique).1
  refine neverPanics_bind (neverPanics_comm (neverPanics_transact (by decide) hcommand)) ?_
  rintro ⟨function, reply⟩
  dsimp only
  split
  · exact neverPanics_pure _
  · split
    · exact neverPanics_pure _
    · exact neverPanics_awaitPlacementEvent _

/-- A plan is placed without a panic if all its site ids fit. -/
theorem neverPanics_placeAll (technique : AssemblyTechnique) {commands : List PlacementCommand}
    (hsites : ∀ command ∈ commands, (asBytes command.siteId).length ≤ maxLength) :
    (placeAll technique commands).run.NeverPanics := by
  induction commands with
  | nil => exact neverPanics_pure _
  | cons command commands ih =>
      rw [List.forall_mem_cons] at hsites
      refine neverPanics_bind (neverPanics_place hsites.1 technique) fun placed => ?_
      exact neverPanics_bind (ih hsites.2) fun records => neverPanics_pure _

theorem neverPanics_assemble (technique : AssemblyTechnique) {plan : PlacementPlan}
    (hsites : ∀ command ∈ plan.commands, (asBytes command.siteId).length ≤ maxLength) :
    (assemble technique plan).NeverPanics := by
  rw [assemble, AssemblyTechnique.place_eq]
  exact neverPanics_connect.bind fun _ => neverPanics_placeAll technique hsites

/-! ## The equipment's side -/

namespace AssemblyEquipment

/-- A die can be placed where its command says, and its report can be sent. -/
def Executable (offset : Nat → PointNm → PointNm) (entry : PlacementCommand × Nat) : Prop :=
  (asBytes entry.1.siteId).length ≤ maxLength ∧
    (placedAt entry.1.target (offset entry.2 entry.1.target)).isSome

variable (technique : AssemblyTechnique) (seed : UInt64)

theorem length_modelName : (asBytes (new technique seed).gem.modelName).length ≤ maxLength := by
  cases technique <;> exact (by decide : 10 ≤ maxLength)

theorem length_softRev : (asBytes (new technique seed).gem.softRev).length ≤ maxLength :=
  (by decide : (asBytes "0.1.0").length ≤ maxLength)

/-- A command is executed without a panic if its position does not overflow and its site id fits an
item. -/
theorem neverPanics_runCommand {offset : PointNm} {command : PlacementCommand}
    (hsite : (asBytes command.siteId).length ≤ maxLength)
    (hplaced : (placedAt command.target offset).isSome) :
    ((new technique seed).runCommand offset command).NeverPanics := by
  refine (EquipmentGem.neverPanics_serveOne (length_modelName technique seed)
    (length_softRev technique seed)).bind ?_
  rintro ⟨stream, function, body⟩
  dsimp only
  split
  · exact neverPanics_fail _
  · cases body with
    | none => exact neverPanics_fail _
    | some body =>
        refine (neverPanics_ofExcept _).bind ?_
        rintro ⟨rcmd, params⟩
        dsimp only
        split
        · exact neverPanics_fail _
        · rw [placedAt_of_isSome hplaced]
          exact EquipmentGem.neverPanics_sendEventReport (fitsFrame_placementReport hsite _).1

/-- The commands are executed without a panic if each of them can be. -/
theorem neverPanics_runCommands {offset : Nat → PointNm → PointNm} {index : Nat}
    {commands : List PlacementCommand}
    (hexecutable : ∀ entry ∈ commands.zipIdx index, Executable offset entry) :
    ((new technique seed).runCommands offset index commands).NeverPanics := by
  induction commands generalizing index with
  | nil => exact neverPanics_pure _
  | cons command commands ih =>
      rw [List.zipIdx_cons, List.forall_mem_cons] at hexecutable
      obtain ⟨⟨hsite, hplaced⟩, hothers⟩ := hexecutable
      exact (neverPanics_runCommand technique seed hsite hplaced).bind fun _ => ih hothers

/-! ## Peers that bring a side to a panic -/

section Reached

variable {control : Control} {technique seed} {sent : PlacementCommand}

/-- A command of the host is served before the equipment looks at its own. -/
theorem exists_commanded (hselected : control.state = .selected)
    (hsite : (asBytes sent.siteId).length ≤ maxLength) (offset : PointNm)
    (command : PlacementCommand) :
    ∃ arrived, ∀ more,
      (((new technique seed).runCommand offset command).call control (arrived ++ more)).1 =
        ((match placedAt command.target offset with
          | none => Program.stop .panicked
          | some placed => EquipmentGem.sendEventReport 1 ceidPlacementDone
              (placementReport command placed)).call control more).1 := by
  have hbody : parseS2f41 (AssemblyHost.placementCommand technique.rcmd sent) =
      .ok (technique.rcmd, _) := parseS2f41_hostCommand _ _
  obtain ⟨_, arrived, -, -, hserved⟩ := meets_served hselected hselected
    (by decide : (2 : UInt8) ≤ 127) (by decide : (41 : UInt8) ≤ 126)
    (fitsFrame_placementCommand hsite technique)
    (by rfl : (new technique seed).gem.answer 2 41 _ = some _) (fitsFrame_byte 0)
  refine ⟨arrived, fun more => ?_⟩
  rw [runCommand, EquipmentGem.serveOne, (hserved.call_bind _ more).1]
  dsimp only
  rw [if_neg (by decide), hbody, ofExcept_ok, pure_bind]
  dsimp only
  have hexpected : (new technique seed).technique.rcmd = technique.rcmd := rfl
  apply congrArg fun program : Program Unit => (program.call _ more).1
  apply (if_neg (not_not.mpr hexpected.symm)).trans
  cases placedAt command.target offset with
  | none => rfl
  | some placed => rfl

/-- The report of a placement can be encoded only if the site id fits an item. -/
theorem length_of_placementReport {command : PlacementCommand} {placed : PointNm}
    (hencodable : (s6f11EventReport 1 ceidPlacementDone
      (placementReport command placed)).Encodable) :
    (asBytes command.siteId).length ≤ maxLength := by
  simp only [s6f11EventReport, reportItem, placementReport, SecsItem.a, List.map_cons,
    SecsItem.Encodable, SecsItem.AllEncodable, SecsItem.lengthCount] at hencodable
  obtain ⟨-, -, -, ⟨-, ⟨-, -, ⟨-, hsite, -⟩, -⟩, -⟩, -⟩ := hencodable
  exact hsite

/-- A command that cannot be executed is what the equipment panics at. -/
theorem exists_panics_runCommand (hselected : control.state = .selected) {offset : PointNm}
    {command : PlacementCommand} (hexecutable : ¬ ((asBytes command.siteId).length ≤ maxLength ∧
      (placedAt command.target offset).isSome)) :
    ∃ arrived, (((new technique seed).runCommand offset command).call control arrived).1 =
      .error .panicked := by
  obtain ⟨arrived, hcommanded⟩ := @exists_commanded technique seed control
    ⟨"", "", ⟨0, 0⟩, .r0⟩ hselected (by decide) offset command
  have hcall := hcommanded []
  rw [List.append_nil] at hcall
  refine ⟨arrived, hcall.trans ?_⟩
  cases hplaced : placedAt command.target offset with
  | none => rfl
  | some placed =>
      rw [hplaced, Option.isSome_some, and_iff_left rfl] at hexecutable
      have hencodable := mt (@length_of_placementReport command placed) hexecutable
      exact bind_panics (transact_panics hselected 6 11 hencodable []) _

/-- In front of a command that cannot be executed the equipment executes the others. -/
theorem exists_panics_runCommands {offset : Nat → PointNm → PointNm} {index : Nat}
    {commands : List PlacementCommand} (hselected : control.state = .selected)
    (hexecutable : ¬ ∀ entry ∈ commands.zipIdx index, Executable offset entry) :
    ∃ arrived, (((new technique seed).runCommands offset index commands).call control arrived).1 =
      .error .panicked := by
  induction commands generalizing index control with
  | nil => exact (hexecutable nofun).elim
  | cons command commands ih =>
      rw [List.zipIdx_cons, List.forall_mem_cons] at hexecutable
      by_cases hhead : Executable offset (command, index)
      · have hothers : ¬ ∀ entry ∈ commands.zipIdx (index + 1), Executable offset entry :=
          fun hall => hexecutable ⟨hhead, hall⟩
        have hadvanced : control.advanced.state = .selected := hselected
        obtain ⟨more, hpanics⟩ := ih hadvanced hothers
        obtain ⟨_, arrived, -, -, hexecuted⟩ :=
          meets_place hselected hselected hhead.1 hhead.2 technique seed
        refine ⟨arrived ++ more, ?_⟩
        rw [runCommands, (hexecuted.call_bind _ more).1]
        exact hpanics
      · obtain ⟨arrived, hpanics⟩ := @exists_panics_runCommand technique seed control hselected
          (offset index command.target) command hhead
        refine ⟨arrived, ?_⟩
        rw [runCommands]
        exact bind_panics hpanics _

end Reached

end AssemblyEquipment

section HostReached

variable {control : Control} {command : PlacementCommand}

/-- Without a jitter no position overflows. -/
theorem isSome_placedAt_zero (target : PointNm) :
    (AssemblyEquipment.placedAt target ⟨0, 0⟩).isSome := by
  have hfits (value : Int64) : Arith.Fits (value.toInt + (0 : Int64).toInt) := by
    rw [Int64.toInt_zero, Int.add_zero]
    exact Arith.fits_toInt value
  rw [AssemblyEquipment.placedAt, (Arith.computes_checkedAdd _ _).gives (hfits _),
    (Arith.computes_checkedAdd _ _).gives (hfits _)]
  rfl

/-- A host command can be encoded only if the site id fits an item. -/
theorem length_of_placementCommand {technique : AssemblyTechnique}
    (hencodable : (AssemblyHost.placementCommand technique.rcmd command).Encodable) :
    (asBytes command.siteId).length ≤ maxLength := by
  simp only [AssemblyHost.placementCommand, s2f41HostCommand, paramItem, SecsItem.a, List.map_cons,
    SecsItem.Encodable, SecsItem.AllEncodable, SecsItem.lengthCount] at hencodable
  obtain ⟨-, -, ⟨-, ⟨-, -, hsite, -⟩, -⟩, -⟩ := hencodable
  exact hsite

/-- In front of a site whose name is too long the host has the others placed. -/
theorem exists_panics_placeAll (technique : AssemblyTechnique) {commands : List PlacementCommand}
    (hselected : control.state = .selected)
    (hsites : ¬ ∀ command ∈ commands, (asBytes command.siteId).length ≤ maxLength) :
    ∃ arrived, ((placeAll technique commands).run.call control arrived).1 = .error .panicked := by
  induction commands generalizing control with
  | nil => exact (hsites nofun).elim
  | cons command commands ih =>
      rw [List.forall_mem_cons] at hsites
      by_cases hsite : (asBytes command.siteId).length ≤ maxLength
      · have hothers : ¬ ∀ command ∈ commands, (asBytes command.siteId).length ≤ maxLength :=
          fun hall => hsites ⟨hsite, hall⟩
        have hadvanced : control.advanced.state = .selected := hselected
        obtain ⟨more, hpanics⟩ := ih hadvanced hothers
        obtain ⟨arrived, _, -, hplaced, -⟩ := meets_place hselected hselected hsite
          (isSome_placedAt_zero command.target) technique 0
        refine ⟨arrived ++ more, ?_⟩
        rw [placeAll, ExceptT.run_bind, (hplaced.call_bind _ more).1]
        dsimp only
        rw [ExceptT.run_bind]
        exact bind_panics hpanics _
      · refine ⟨[], ?_⟩
        have htransact := transact_panics hselected 2 41
          (mt (@length_of_placementCommand command technique) hsite) []
        rw [placeAll, ExceptT.run_bind, AssemblyHost.place, ExceptT.run_bind]
        exact bind_panics (bind_panics (bind_panics (attempt_panics htransact) _) _) _

end HostReached

/-! ## Exactly when -/

/-- Some peer brings the equipment to a panic exactly if one of the commands that it was given
itself cannot be executed. -/
theorem equipment_neverPanics_iff (technique : AssemblyTechnique) (seed : UInt64)
    (sessionId : UInt16) (offset : Nat → PointNm → PointNm) (commands : List PlacementCommand) :
    (∀ stream, (((AssemblyEquipment.new technique seed).runWith offset commands).action.call
        (.new stream sessionId)).1 ≠ .error .panicked) ↔
      ∀ entry ∈ commands.zipIdx, AssemblyEquipment.Executable offset entry := by
  constructor
  · intro hnever
    by_contra hexecutable
    obtain ⟨_, arrived, -, -, haccepted⟩ :=
      meets_connect (.new sessionId) (.new sessionId) technique seed
    obtain ⟨more, hpanics⟩ := @AssemblyEquipment.exists_panics_runCommands technique seed
      (Control.new sessionId).selected offset 0 commands rfl hexecutable
    apply hnever ((Control.new sessionId).session (arrived ++ more)).stream
    change (((AssemblyEquipment.new technique seed).runWith offset commands).call
      (.new sessionId) (arrived ++ more)).1 = _
    rw [AssemblyEquipment.runWith, (haccepted.call_bind _ more).1]
    exact hpanics
  · intro hexecutable stream
    have haccept := EquipmentGem.neverPanics_accept
      (AssemblyEquipment.length_modelName technique seed)
      (AssemblyEquipment.length_softRev technique seed)
    exact (haccept.bind fun _ =>
      AssemblyEquipment.neverPanics_runCommands technique seed hexecutable) _

/-- Some peer brings the host to a panic exactly if the name of a site in its plan is too long
for an item. -/
theorem host_neverPanics_iff (technique : AssemblyTechnique) (sessionId : UInt16)
    (plan : PlacementPlan) :
    (∀ stream, ((assemble technique plan).action.call (.new stream sessionId)).1 ≠
        .error .panicked) ↔
      ∀ command ∈ plan.commands, (asBytes command.siteId).length ≤ 0xFFFFFF := by
  constructor
  · intro hnever
    by_contra hsites
    obtain ⟨arrived, _, -, hconnected, -⟩ :=
      meets_connect (.new sessionId) (.new sessionId) technique 0
    obtain ⟨more, hpanics⟩ := @exists_panics_placeAll
      (Control.new sessionId).advanced.selected.advanced.advanced technique plan.commands rfl hsites
    apply hnever ((Control.new sessionId).session (arrived ++ more)).stream
    change ((assemble technique plan).call (.new sessionId) (arrived ++ more)).1 = _
    rw [assemble, (hconnected.call_bind _ more).1, AssemblyTechnique.place_eq]
    exact hpanics
  · intro hsites stream
    exact neverPanics_assemble technique hsites _

end Assembly
