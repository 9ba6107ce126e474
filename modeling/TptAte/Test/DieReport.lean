import TptAte.Secs.GemBodies
import TptAte.Test.Simulator

/-! # The location in a die's report

A die's report carries each coordinate in two bytes, so the host reads its remainder.
-/

namespace Test

open Wire Secs

/-- The location that the host reads from the report of a die. -/
def reportedCoord (coord : DieCoord) : DieCoord :=
  ⟨coord.x.toUInt32.toUInt16.toUInt32.toInt32, coord.y.toUInt32.toUInt16.toUInt32.toInt32⟩

/-- A report is decoded with the coordinates cut to 16 bits. -/
theorem decodeDieReport_eq (coord : DieCoord) (outcome : DieTestOutcome) :
    decodeDieReport (encodeDieReport coord outcome) = .ok (reportedCoord coord, outcome) := rfl

/-- Two dies are reported alike exactly if their coordinates agree to 16 bits. -/
theorem reportedCoord_eq_iff {first second : DieCoord} :
    reportedCoord first = reportedCoord second ↔
      first.x.toInt % 65536 = second.x.toInt % 65536 ∧
        first.y.toInt % 65536 = second.y.toInt % 65536 := by
  rw [reportedCoord, reportedCoord, DieCoord.mk.injEq, ← Int32.toInt_inj, ← Int32.toInt_inj,
    toInt_toUInt16, toInt_toUInt16, toInt_toUInt16, toInt_toUInt16]

/-- A die is reported where it is exactly if its coordinates fit. -/
theorem reportedCoord_eq_self {coord : DieCoord} :
    reportedCoord coord = coord ↔ FitsU2 coord.x ∧ FitsU2 coord.y := by
  obtain ⟨x, y⟩ := coord
  rw [reportedCoord, DieCoord.mk.injEq, toInt32_toUInt16_iff, toInt32_toUInt16_iff]

/-- The report of a die can always be encoded. -/
theorem encodable_dieReport (dataid ceid rptid : UInt32) (coord : DieCoord)
    (outcome : DieTestOutcome) :
    (s6f11EventReport dataid ceid [(rptid, encodeDieReport coord outcome)]).Encodable := by
  refine encodable_eventReport.mpr ⟨(by decide : 1 ≤ maxLength), ?_⟩
  simp only [List.forall_mem_singleton, encodeDieReport, List.forall_mem_cons]
  exact ⟨(by decide : 5 ≤ maxLength), (by decide : 2 ≤ maxLength), (by decide : 2 ≤ maxLength),
    (by decide : 2 ≤ maxLength), (by decide : 2 ≤ maxLength), (by decide : 1 ≤ maxLength)⟩

/-- A die's report is read back, at once and over the wire, exactly if two bytes can hold each
of its coordinates; two dies are read as one exactly if their coordinates have the same
remainders. -/
theorem decodeDieReport_iff (coord other : DieCoord) (outcome outcome' : DieTestOutcome)
    (dataid ceid rptid : UInt32) :
    (decodeDieReport (encodeDieReport coord outcome) = .ok (coord, outcome) ↔
      FitsU2 coord.x ∧ FitsU2 coord.y) ∧
    (∃ bytes body vlist,
      (s6f11EventReport dataid ceid [(rptid, encodeDieReport coord outcome)]).toBytes =
        some bytes ∧
      SecsItem.fromBytes bytes = .ok (body, bytes.length) ∧
      parseS6f11 body = .ok (dataid, ceid, [(rptid, vlist)]) ∧
      (decodeDieReport vlist = .ok (coord, outcome) ↔ FitsU2 coord.x ∧ FitsU2 coord.y)) ∧
    ((∃ key read read', decodeDieReport (encodeDieReport coord outcome) = .ok (key, read) ∧
        decodeDieReport (encodeDieReport other outcome') = .ok (key, read')) ↔
      coord.x.toInt % 65536 = other.x.toInt % 65536 ∧
        coord.y.toInt % 65536 = other.y.toInt % 65536) := by
  have hread : decodeDieReport (encodeDieReport coord outcome) = .ok (coord, outcome) ↔
      FitsU2 coord.x ∧ FitsU2 coord.y := by
    rw [decodeDieReport_eq, ← reportedCoord_eq_self]
    simp
  refine ⟨hread, ?_, ?_⟩
  · obtain ⟨bytes, hbytes, -, hdecode⟩ :=
      decodeItem_toBytes _ (encodable_dieReport dataid ceid rptid coord outcome)
    exact ⟨bytes, _, _, hbytes, hdecode, parseS6f11_eventReport _ _ _, hread⟩
  · rw [← reportedCoord_eq_iff, decodeDieReport_eq, decodeDieReport_eq]
    constructor
    · rintro ⟨key, read, read', hcoord, hother⟩
      cases hcoord
      exact (Prod.mk.inj (Except.ok.inj hother)).1.symm
    · intro hsame
      exact ⟨_, outcome, outcome', rfl, by rw [hsame]⟩

/-- The die left of the centre is read as another, and so is one far to its right, which is
read as the centre. -/
theorem decodeDieReport_collapse :
    decodeDieReport (encodeDieReport ⟨-1, 0⟩ ⟨true, 1, 1⟩) = .ok (⟨65535, 0⟩, ⟨true, 1, 1⟩) ∧
      decodeDieReport (encodeDieReport ⟨65536, 0⟩ ⟨true, 1, 1⟩) =
        decodeDieReport (encodeDieReport ⟨0, 0⟩ ⟨true, 1, 1⟩) :=
  ⟨rfl, rfl⟩

end Test
