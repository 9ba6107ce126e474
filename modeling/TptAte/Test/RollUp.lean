import TptAte.Test.Summary

/-! # Hardware bins as the roll-up of software bins

Every die is sorted into a software bin, and its hardware bin follows from that by the
taxonomy. The counts of a hardware bin are therefore those of the software bins that
roll up into it, and both kinds of bins count every die once.
-/

namespace Test

open Keyed

/-- The counters of a tally are conserved: the software bins roll up into the hardware
bins, all bins of a kind count every die, and none both passes and is aborted. -/
structure Conserved (taxonomy : BinTaxonomy) (tally : BinTally) (dies : Nat) : Prop where
  rollUp (bin : UInt16) : (tally.hardBins[bin]?.getD 0).toNat =
    ((tally.softBins.toList.filter fun entry =>
      taxonomy.hardBinOf entry.1 == bin).map (·.2.toNat)).sum
  hardBins : (tally.hardBins.toList.map (·.2.toNat)).sum = tally.totalTested.toNat
  softBins : (tally.softBins.toList.map (·.2.toNat)).sum = tally.totalTested.toNat
  totalTested : tally.totalTested.toNat = dies
  verdicts : tally.totalPassed.toNat + tally.aborted.toNat ≤ tally.totalTested.toNat

section

variable {program : TestProgram} {taxonomy : BinTaxonomy} {results : List DieTestResult}

theorem hardBin_outcome (result : DieTestResult) :
    (result.outcome program taxonomy).hardBin =
      taxonomy.hardBinOf (result.outcome program taxonomy).softBin :=
  hardBin_sortDie result program taxonomy

/-- An aborted die does not pass. -/
theorem not_passed_of_aborted {result : DieTestResult} (haborted : result.aborted = true) :
    (result.outcome program taxonomy).passed = false := by
  apply Bool.eq_false_of_not_eq_true
  intro hpassed
  have hgood := (passed_sortDie_iff result program taxonomy).mp hpassed
  rw [hgood.1] at haborted
  cases haborted

theorem countP_passed_add_aborted_le :
    (results.countP fun result => (result.outcome program taxonomy).passed) +
      results.countP (·.aborted) ≤ results.length := by
  have hsplit := @List.length_eq_countP_add_countP DieTestResult
    (fun result => (result.outcome program taxonomy).passed) results
  have haborted : results.countP (·.aborted) ≤
      results.countP fun result => ¬ (result.outcome program taxonomy).passed = true := by
    apply List.countP_mono_left
    intro result _ haborted
    rw [not_passed_of_aborted haborted]
    rfl
  omega

/-- The tally of a run conserves its dies. -/
theorem conserved_tally (program : TestProgram) (taxonomy : BinTaxonomy)
    {results : List DieTestResult} (hlength : results.length < 2 ^ 32) :
    Conserved taxonomy (tally results program taxonomy) results.length := by
  have htotal : (UInt32.ofNat results.length).toNat = results.length :=
    toNat_ofNat hlength le_rfl
  have hkeys (bin : DieTestOutcome → UInt16) :
      (results.map fun result => bin (result.outcome program taxonomy)).length < 2 ^ 32 := by
    rwa [List.length_map]
  rw [tally_eq]
  refine ⟨?_, ?_, ?_, htotal, ?_⟩
  · intro bin
    -- a die is in the hardware bin of its software bin
    have hsum := sum_toNat_filter_countAll (taxonomy.hardBinOf · == bin) (hkeys (·.softBin))
    rw [List.countP_map] at hsum
    simp only [getD_countAll, List.count, List.countP_map, hardBin_outcome]
    rw [hsum, toNat_ofNat hlength List.countP_le_length]
    rfl
  · simp only [htotal]
    rw [sum_toNat_countAll (hkeys (·.hardBin)), List.length_map]
  · simp only [htotal]
    rw [sum_toNat_countAll (hkeys (·.softBin)), List.length_map]
  · have hle := @countP_passed_add_aborted_le program taxonomy results
    simp only [htotal]
    rw [toNat_ofNat hlength List.countP_le_length, toNat_ofNat hlength List.countP_le_length]
    exact hle

/-- The tally of a die that fails, one that passes, and two that have no place. -/
theorem conserved_tally_fourResults :
    Conserved .defaults (tally fourResults lenientProgram .defaults) fourResults.length :=
  conserved_tally lenientProgram .defaults (by decide)

end

end Test
