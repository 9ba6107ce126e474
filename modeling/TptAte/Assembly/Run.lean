import TptAte.Assembly.Link
import TptAte.Secs.GemLaws

/-! # An assembly run from end to end

The host connects and places a plan, while the equipment executes the commands of
the plan. Each command is a transaction of the host followed by one of the equipment;
by induction over the plan the two sides come to an end together, and the host has one
record for each command.
-/

namespace Assembly

open Secs Wire Duplex Program

variable {control control' : Control}

/-! ## The bodies fit -/

section Bodies

variable {command : PlacementCommand} (hsite : (asBytes command.siteId).length ≤ maxLength)

include hsite

/-- A host command is small enough for a frame. -/
theorem fitsFrame_placementCommand (technique : AssemblyTechnique) :
    FitsFrame (AssemblyHost.placementCommand technique.rcmd command) := by
  have hrcmd : (asBytes technique.rcmd).length = 8 := by
    cases technique <;> rfl
  have hname : (asBytes "SITE").length = 4 ∧ (asBytes "X").length = 1 ∧
      (asBytes "Y").length = 1 := by
    decide
  apply fitsFrame_of_weight
  · rw [maxLength] at hsite
    simp only [AssemblyHost.placementCommand, s2f41HostCommand, paramItem, SecsItem.Encodable,
      SecsItem.AllEncodable, SecsItem.lengthCount, SecsItem.a, SecsItem.oneU4, hrcmd, hname,
      List.map_cons, List.map_nil, List.length_cons, List.length_nil, maxLength, and_true]
    omega
  · rw [maxLength] at hsite
    simp only [AssemblyHost.placementCommand, s2f41HostCommand, paramItem, SecsItem.a,
      SecsItem.oneU4, List.map_cons, List.map_nil, SecsItem.weight, SecsItem.weights,
      SecsItem.lengthCount, hrcmd, hname, List.length_cons, List.length_nil]
    omega

/-- A placement event is small enough for a frame. -/
theorem fitsFrame_placementReport (placed : PointNm) :
    FitsFrame (s6f11EventReport 1 ceidPlacementDone
      (AssemblyEquipment.placementReport command placed)) := by
  apply fitsFrame_of_weight
  · rw [maxLength] at hsite
    simp only [s6f11EventReport, reportItem, AssemblyEquipment.placementReport, SecsItem.Encodable,
      SecsItem.AllEncodable, SecsItem.lengthCount, SecsItem.a, SecsItem.oneU4,
      List.map_cons, List.map_nil, List.length_cons, List.length_nil, maxLength, and_true]
    omega
  · rw [maxLength] at hsite
    simp only [s6f11EventReport, reportItem, AssemblyEquipment.placementReport, SecsItem.a,
      SecsItem.oneU4, List.map_cons, List.map_nil, SecsItem.weight, SecsItem.weights,
      SecsItem.lengthCount, List.length_cons, List.length_nil]
    omega

end Bodies

/-! ## The handshake -/

/-- The host's handshake and the equipment's acceptance go through together. -/
theorem meets_connect (control control' : Control) (technique : AssemblyTechnique)
    (seed : UInt64) :
    AssemblyHost.connect.Meets control (AssemblyEquipment.new technique seed).gem.accept control' ()
      control.advanced.selected.advanced.advanced () control'.selected := by
  have hmodel : (asBytes (AssemblyEquipment.new technique seed).modelName).length ≤ maxLength := by
    cases technique <;> exact (by decide : 10 ≤ maxLength)
  have hempty : (AssemblyEquipment.new technique seed).modelName.isEmpty = false := by
    cases technique <;> rfl
  refine (meets_select control control').bind ?_
  refine (HostGem.meets_onlineData rfl rfl hmodel
    (by decide : (asBytes "0.1.0").length ≤ maxLength)).bind ?_
  dsimp only
  rw [AssemblyEquipment.gem, hempty, if_neg Bool.false_ne_true]
  refine (HostGem.meets_establishCommunications rfl rfl).bind ?_
  exact meets_pure _ _ _ _

/-! ## One command -/

/-- Offsets within the jitter window. -/
def Jitter (offset : PointNm) : Prop :=
  -15 ≤ offset.x.toInt ∧ offset.x.toInt ≤ 15 ∧ -15 ≤ offset.y.toInt ∧ offset.y.toInt ≤ 15

/-- Whatever the jitter, the position of a die does not overflow. -/
def InRange (target : PointNm) : Prop :=
  -2 ^ 63 ≤ target.x.toInt - 15 ∧ target.x.toInt + 15 < 2 ^ 63 ∧
    -2 ^ 63 ≤ target.y.toInt - 15 ∧ target.y.toInt + 15 < 2 ^ 63

/-- In range, a die is placed at its target and the jitter. -/
theorem placedAt_eq {target offset : PointNm} (htarget : InRange target) (hoffset : Jitter offset) :
    AssemblyEquipment.placedAt target offset =
      some ⟨target.x + offset.x, target.y + offset.y⟩ := by
  obtain ⟨hxlow, hxhigh, hylow, hyhigh⟩ := hoffset
  obtain ⟨htxlow, htxhigh, htylow, htyhigh⟩ := htarget
  rw [AssemblyEquipment.placedAt, (Arith.computes_checkedAdd _ _).gives ⟨by omega, by omega⟩,
    (Arith.computes_checkedAdd _ _).gives ⟨by omega, by omega⟩]
  rfl

/-- Where the position does not overflow, it is the target and the jitter. -/
theorem placedAt_of_isSome {target offset : PointNm}
    (hplaced : (AssemblyEquipment.placedAt target offset).isSome) :
    AssemblyEquipment.placedAt target offset =
      some ⟨target.x + offset.x, target.y + offset.y⟩ := by
  unfold AssemblyEquipment.placedAt Arith.checkedAdd Arith.unlessOverflow at hplaced ⊢
  split_ifs at hplaced ⊢ <;> simp_all

/-- A coordinate as the host gets it. -/
def receivedCoordinate (value : Int64) : Int64 :=
  (AssemblyEquipment.sentCoordinate value).toUInt64.toInt64

theorem meets_comm {α β : Type} {left : Program α} {right : Program β} {after after' : Control}
    {value : α} {value' : β}
    (h : left.Meets control right control' value after value' after') :
    (comm left).run.Meets control right control' (.ok value) after value' after' :=
  h.attempt.then_left rfl

/-- The position that the host gets for a target and a jitter. -/
def reportedAt (target offset : PointNm) : PointNm :=
  ⟨receivedCoordinate (target.x + offset.x), receivedCoordinate (target.y + offset.y)⟩

/-- What the host makes of the report of a placement. -/
theorem reportedPlacement_report (command : PlacementCommand) (offset : PointNm) :
    reportedPlacement command.siteId (AssemblyEquipment.placementReport command
      ⟨command.target.x + offset.x, command.target.y + offset.y⟩) =
      .ok (some (reportedAt command.target offset)) := by
  simp only [AssemblyEquipment.placementReport, reportedPlacement, SecsItem.a, SecsItem.asAscii,
    orMalformed, Reader.ok_bind, ne_eq, not_true_eq_false, if_false, SecsItem.oneU4, SecsItem.asU4,
    List.head?_cons]
  rfl

/-- The host command for a placement, its acknowledge, the placement event and its
acknowledge. -/
theorem meets_place (hselected : control.state = .selected)
    (hselected' : control'.state = .selected)
    {command : PlacementCommand} (hsite : (asBytes command.siteId).length ≤ maxLength)
    {offset : PointNm} (hplaced : (AssemblyEquipment.placedAt command.target offset).isSome)
    (technique : AssemblyTechnique) (seed : UInt64) :
    (AssemblyHost.place technique.rcmd command).run.Meets control
      ((AssemblyEquipment.new technique seed).runCommand offset command) control'
      (.ok (reportedAt command.target offset)) control.advanced () control'.advanced := by
  have hbody : parseS2f41 (AssemblyHost.placementCommand technique.rcmd command) =
      .ok (technique.rcmd, _) := parseS2f41_hostCommand _ _
  rw [AssemblyHost.place, ExceptT.run_bind]
  refine (meets_comm (meets_served hselected hselected' (by decide) (by decide)
    (fitsFrame_placementCommand hsite technique) (by rfl) (fitsFrame_byte 0))).bind ?_
  dsimp only
  rw [if_neg (by decide), if_neg (by decide), if_neg (by decide), hbody]
  have hexpected :
      (AssemblyEquipment.new technique seed).technique.rcmd = technique.rcmd := rfl
  rw [ofExcept_ok, pure_bind]
  dsimp only
  rw [if_neg (not_not.mpr hexpected.symm), placedAt_of_isSome hplaced]
  dsimp only
  refine Meets.loop_leaves ?_
  have hadvanced : control.advanced.state = .selected := hselected
  refine (HostGem.meets_sendEventReport hselected' hadvanced
    (fitsFrame_placementReport hsite _)).swap.attempt.then_left ?_
  dsimp only [placementSeen]
  rw [if_neg (by decide), parseS6f11_eventReport]
  dsimp only
  rw [if_neg (by decide), reportedPlacement_report]

/-! ## All commands -/

/-- A record says of its placement what the command said. -/
structure Executes (technique : AssemblyTechnique) (command : PlacementCommand)
    (record : PlacementRecord) : Prop where
  siteId : record.siteId = command.siteId
  chipletId : record.chipletId = command.chipletId
  technique : record.technique = technique
  nominal : record.nominal = command.target
  orientation : record.orientation = command.orientation

/-- The records of commands, each placed at a point that depends on its index. -/
def recordsAt (technique : AssemblyTechnique) (point : Nat → PointNm → PointNm) :
    Nat → List PlacementCommand → List PlacementRecord
  | _, [] => []
  | index, command :: commands =>
      recordOf technique command (point index command.target) ::
        recordsAt technique point (index + 1) commands

/-- The records belong to the commands one by one, in their order. -/
theorem executes_recordsAt (technique : AssemblyTechnique) (point : Nat → PointNm → PointNm)
    (index : Nat) (commands : List PlacementCommand) :
    List.Forall₂ (Executes technique) commands (recordsAt technique point index commands) := by
  induction commands generalizing index with
  | nil => exact .nil
  | cons command commands ih => exact .cons ⟨rfl, rfl, rfl, rfl, rfl⟩ (ih (index + 1))

/-- The commands that are left are placed and executed one by one. -/
theorem meets_placeAll (technique : AssemblyTechnique) (seed : UInt64)
    {offset : Nat → PointNm → PointNm} {commands : List PlacementCommand} {index : Nat}
    (hsites : ∀ command ∈ commands, (asBytes command.siteId).length ≤ maxLength)
    (hplaces : ∀ entry ∈ commands.zipIdx index,
      (AssemblyEquipment.placedAt entry.1.target (offset entry.2 entry.1.target)).isSome)
    (hselected : control.state = .selected) (hselected' : control'.state = .selected) :
    ∃ after after', (placeAll technique commands).run.Meets control
      ((AssemblyEquipment.new technique seed).runCommands offset index commands) control'
      (.ok (recordsAt technique (fun index target => reportedAt target (offset index target))
        index commands)) after () after' := by
  induction commands generalizing index control control' with
  | nil => exact ⟨control, control', meets_pure _ _ _ _⟩
  | cons command commands ih =>
      rw [List.forall_mem_cons] at hsites
      rw [List.zipIdx_cons, List.forall_mem_cons] at hplaces
      have hadvanced : control.advanced.state = .selected := hselected
      have hadvanced' : control'.advanced.state = .selected := hselected'
      obtain ⟨after, after', hmeets⟩ := ih hsites.2 hplaces.2 hadvanced hadvanced'
      refine ⟨after, after', ?_⟩
      rw [placeAll, ExceptT.run_bind, AssemblyEquipment.runCommands]
      refine (meets_place hselected hselected' hsites.1 hplaces.1 technique seed).bind ?_
      dsimp only
      rw [ExceptT.run_bind]
      exact hmeets.then_left rfl

/-- Both sides of a run return, the host with the positions that were reported to it. -/
theorem settles_reported (technique : AssemblyTechnique) (sessionId : UInt16) (seed : UInt64)
    {offset : Nat → PointNm → PointNm} {plan : PlacementPlan}
    (hsites : ∀ command ∈ plan.commands, (asBytes command.siteId).length ≤ 0xFFFFFF)
    (hplaces : ∀ entry ∈ plan.commands.zipIdx,
      (AssemblyEquipment.placedAt entry.1.target (offset entry.2 entry.1.target)).isSome) :
    Settles ((assemble technique plan).process (.new sessionId))
      (((AssemblyEquipment.new technique seed).runWith offset plan.commands).process
        (.new sessionId))
      (.ok (.ok (recordsAt technique (fun index target => reportedAt target (offset index target))
        0 plan.commands))) (.ok ()) := by
  obtain ⟨after, after', hmeets⟩ := @meets_placeAll
    (Control.new sessionId).advanced.selected.advanced.advanced (Control.new sessionId).selected
    technique seed offset plan.commands 0 hsites hplaces rfl rfl
  rw [assemble, AssemblyTechnique.place_eq]
  exact ((meets_connect (.new sessionId) (.new sessionId) technique seed).bind hmeets).settles

/-- A run from end to end, for every technique, plan and jitter and in every order of
steps: both sides return, and the host has one record for each command. -/
theorem settles_assemble (technique : AssemblyTechnique) (sessionId : UInt16) (seed : UInt64)
    {offset : Nat → PointNm → PointNm} (hoffset : ∀ index target, Jitter (offset index target))
    {plan : PlacementPlan}
    (hsites : ∀ command ∈ plan.commands, (asBytes command.siteId).length ≤ 0xFFFFFF)
    (htargets : ∀ command ∈ plan.commands, InRange command.target) :
    ∃ records,
      Settles ((assemble technique plan).process (.new sessionId))
        (((AssemblyEquipment.new technique seed).runWith offset plan.commands).process
          (.new sessionId))
        (.ok (.ok records)) (.ok ()) ∧
      List.Forall₂ (Executes technique) plan.commands records := by
  refine ⟨_, settles_reported technique sessionId seed hsites fun entry hentry => ?_,
    executes_recordsAt technique _ 0 plan.commands⟩
  have htarget := htargets entry.1 (List.fst_mem_of_mem_zipIdx hentry)
  rw [placedAt_eq htarget (hoffset _ _)]
  rfl

/-- A plan of two commands, one of them off the interposer. -/
def twoPlacements : PlacementPlan :=
  ⟨[⟨"A", "cpu", ⟨0, 9000⟩, .r0⟩, ⟨"B", "hbm", ⟨-20, 15⟩, .mx⟩]⟩

theorem settles_assemble_twoPlacements : ∃ records,
    Settles ((assemble .flipChip twoPlacements).process (.new 7))
      (((AssemblyEquipment.new .flipChip 42).runWith (fun _ _ => ⟨15, -15⟩)
        twoPlacements.commands).process (.new 7))
      (.ok (.ok records)) (.ok ()) ∧
    List.Forall₂ (Executes .flipChip) twoPlacements.commands records := by
  refine @settles_assemble .flipChip 7 42 (fun _ _ => ⟨15, -15⟩) (fun _ _ => ?_)
    twoPlacements ?_ ?_
  · exact ⟨by decide, by decide, by decide, by decide⟩
  · intro command hcommand
    simp only [twoPlacements, List.mem_cons, List.not_mem_nil, or_false] at hcommand
    rcases hcommand with rfl | rfl <;> exact (by decide : 1 ≤ 0xFFFFFF)
  · intro command hcommand
    simp only [twoPlacements, List.mem_cons, List.not_mem_nil, or_false] at hcommand
    rcases hcommand with rfl | rfl <;> exact ⟨by decide, by decide, by decide, by decide⟩

/-! ## Positions that arrive as they are -/

def FitsU4 (value : Int64) : Prop := 0 ≤ value.toInt ∧ value.toInt < 2 ^ 32

theorem toUInt32_toUInt64_eq_iff (value : UInt64) :
    value.toUInt32.toUInt64 = value ↔ value.toNat < 2 ^ 32 := by
  rw [← UInt64.toNat_inj, UInt32.toNat_toUInt64, UInt64.toNat_toUInt32]
  omega

/-- A coordinate reaches the host as it is exactly if four unsigned bytes can hold it. -/
theorem receivedCoordinate_eq_iff (value : Int64) :
    receivedCoordinate value = value ↔ FitsU4 value := by
  have hsign : 0 ≤ value ↔ 0 ≤ value.toInt := Int64.le_iff_toInt_le
  rw [receivedCoordinate, AssemblyEquipment.sentCoordinate, FitsU4]
  -- a negative coordinate is sent as 0, and one of more than 32 bits is cut
  by_cases h : 0 ≤ value
  · have hmax : max value 0 = value := by
      change (if value ≤ 0 then 0 else value) = value
      split
      · next hle => exact Int64.le_antisymm h hle
      · rfl
    have hnat : (value.toUInt64.toNat : Int) = value.toInt := by
      rw [Int64.toNat_toUInt64_of_le h]
      exact Int.toNat_of_nonneg (hsign.mp h)
    rw [hmax]
    constructor
    · intro heq
      have hu := congrArg Int64.toUInt64 heq
      rw [UInt64.toUInt64_toInt64, toUInt32_toUInt64_eq_iff] at hu
      omega
    · intro hfits
      have hu : value.toUInt64.toUInt32.toUInt64 = value.toUInt64 := by
        rw [toUInt32_toUInt64_eq_iff]
        omega
      rw [hu, Int64.toInt64_toUInt64]
  · have hmax : max value 0 = 0 := by
      change (if value ≤ 0 then 0 else value) = 0
      have hle : value.toInt ≤ 0 := (not_le.mp (mt hsign.mpr h)).le
      exact if_pos (Int64.le_iff_toInt_le.mpr hle)
    rw [hmax]
    constructor
    · intro heq
      exact absurd (heq ▸ Int64.le_refl _) h
    · intro hfits
      exact absurd (hsign.mpr hfits.1) h
/-- The point at which a die is placed, if nothing overflows. -/
def pointAt (target offset : PointNm) : PointNm := ⟨target.x + offset.x, target.y + offset.y⟩

/-- A position reaches the host as it is exactly if both its coordinates do. -/
theorem reportedAt_eq_iff (target offset : PointNm) :
    reportedAt target offset = pointAt target offset ↔
      FitsU4 (target.x + offset.x) ∧ FitsU4 (target.y + offset.y) := by
  rw [reportedAt, pointAt, PointNm.mk.injEq, receivedCoordinate_eq_iff, receivedCoordinate_eq_iff]

/-- Two lists of records are the same exactly if each command has the same point in both. -/
theorem recordsAt_eq_iff (technique : AssemblyTechnique) (point point' : Nat → PointNm → PointNm)
    (index : Nat) (commands : List PlacementCommand) :
    recordsAt technique point index commands = recordsAt technique point' index commands ↔
      ∀ entry ∈ commands.zipIdx index,
        point entry.2 entry.1.target = point' entry.2 entry.1.target := by
  induction commands generalizing index with
  | nil => simp [recordsAt]
  | cons command commands ih =>
      rw [recordsAt, recordsAt, List.cons.injEq, ih, List.zipIdx_cons, List.forall_mem_cons]
      simp [recordOf]

/-- A run gives the host the positions at which the dies were placed, in every order of
steps, exactly if each coordinate of them fits into an unsigned four-byte item. -/
theorem settles_pointAt_iff (technique : AssemblyTechnique) (sessionId : UInt16) (seed : UInt64)
    {offset : Nat → PointNm → PointNm} {plan : PlacementPlan}
    (hsites : ∀ command ∈ plan.commands, (asBytes command.siteId).length ≤ 0xFFFFFF)
    (hplaces : ∀ entry ∈ plan.commands.zipIdx,
      AssemblyEquipment.placedAt entry.1.target (offset entry.2 entry.1.target) =
        some (pointAt entry.1.target (offset entry.2 entry.1.target))) :
    Settles ((assemble technique plan).process (.new sessionId))
        (((AssemblyEquipment.new technique seed).runWith offset plan.commands).process
          (.new sessionId))
        (.ok (.ok (recordsAt technique (fun index target => pointAt target (offset index target))
          0 plan.commands))) (.ok ()) ↔
      ∀ entry ∈ plan.commands.zipIdx,
        FitsU4 (pointAt entry.1.target (offset entry.2 entry.1.target)).x ∧
          FitsU4 (pointAt entry.1.target (offset entry.2 entry.1.target)).y := by
  have hsettles := settles_reported technique sessionId seed hsites fun entry hentry => by
    rw [hplaces entry hentry]
    rfl
  have hexact := recordsAt_eq_iff technique
    (fun index target => reportedAt target (offset index target))
    (fun index target => pointAt target (offset index target)) 0 plan.commands
  simp only [reportedAt_eq_iff] at hexact
  refine Iff.trans ?_ hexact
  constructor
  · intro hpoints
    obtain ⟨hrecords, -⟩ := hsettles.unique hpoints
    simpa using hrecords
  · intro hrecords
    rwa [hrecords] at hsettles

/-- A site near the edge of the interposer. -/
def edgePlan : PlacementPlan := ⟨[⟨"A", "cpu", ⟨5, 1000⟩, .r0⟩]⟩

/-- Near the edge with a jitter away from it, the host gets the position of the die. -/
theorem settles_pointAt_iff_edgePlan :
    Settles ((assemble .flipChip edgePlan).process (.new 7))
      (((AssemblyEquipment.new .flipChip 42).runWith (fun _ _ => ⟨10, -3⟩)
        edgePlan.commands).process (.new 7))
      (.ok (.ok (recordsAt .flipChip (fun _ target => pointAt target ⟨10, -3⟩)
        0 edgePlan.commands))) (.ok ()) := by
  refine (@settles_pointAt_iff .flipChip 7 42 (fun _ _ => ⟨10, -3⟩) edgePlan ?_ ?_).mpr ?_
  · exact List.forall_mem_singleton.mpr (by decide : 1 ≤ 0xFFFFFF)
  · exact List.forall_mem_singleton.mpr (by decide)
  · exact List.forall_mem_singleton.mpr ⟨⟨by decide, by decide⟩, by decide, by decide⟩

/-- A die that is placed beyond the edge is reported on it. -/
theorem not_settles_pointAt_edgePlan :
    ¬ Settles ((assemble .flipChip edgePlan).process (.new 7))
      (((AssemblyEquipment.new .flipChip 42).runWith (fun _ _ => ⟨-10, 3⟩)
        edgePlan.commands).process (.new 7))
      (.ok (.ok (recordsAt .flipChip (fun _ target => pointAt target ⟨-10, 3⟩)
        0 edgePlan.commands))) (.ok ()) := by
  intro hsettles
  have hreported := @settles_reported .flipChip 7 42 (fun _ _ => ⟨-10, 3⟩) edgePlan
    (List.forall_mem_singleton.mpr (by decide : 1 ≤ 0xFFFFFF))
    (List.forall_mem_singleton.mpr (by decide))
  obtain ⟨hrecords, -⟩ := hsettles.unique hreported
  simp only [Except.ok.injEq] at hrecords
  have hpoint := (recordsAt_eq_iff .flipChip _ _ 0 edgePlan.commands).mp hrecords
  exact absurd (List.forall_mem_singleton.mp hpoint) (by decide)

end Assembly
