import TptAte.Aggregate.Outcome
import TptAte.Keyed.Counter

/-! # Published counts under the minimum-cohort rule

A withheld bucket is published with the size of the minimum cohort. It is withheld for
having fewer dies than that, so that the published count lies above the true one.
-/

namespace Test.BinTally

open Keyed

def recordAll (dies : List (Bool × UInt16 × UInt16)) : BinTally :=
  dies.foldl (fun tally die => tally.record die.1 die.2.1 die.2.2) .empty

/-- Recording dies one after the other counts them all, and each bin by its own. -/
theorem foldl_record (dies : List (Bool × UInt16 × UInt16)) (tally : BinTally) :
    (dies.foldl (fun tally die => tally.record die.1 die.2.1 die.2.2) tally).totalTested =
        tally.totalTested + UInt32.ofNat dies.length ∧
      (dies.foldl (fun tally die => tally.record die.1 die.2.1 die.2.2) tally).hardBins =
        (dies.map (·.2.1)).foldl bump tally.hardBins := by
  induction dies generalizing tally with
  | nil => simp
  | cons die dies ih =>
      obtain ⟨htotal, hhard⟩ := ih (tally.record die.1 die.2.1 die.2.2)
      rw [List.foldl_cons, htotal, hhard]
      simp [record, bump, UInt32.ofNat_add, add_comm, add_assoc]

/-- The hardware bins of a recorded tally count the tested dies. -/
theorem sum_hardBins_recordAll {dies : List (Bool × UInt16 × UInt16)}
    (hlength : dies.length < 2 ^ 32) :
    ((recordAll dies).hardBins.toList.map (·.2.toNat)).sum =
      (recordAll dies).totalTested.toNat := by
  obtain ⟨htotal, hhard⟩ := foldl_record dies .empty
  have hsum := @sum_toNat_countAll _ _ _ _ _ (dies.map (·.2.1)) (by rwa [List.length_map])
  rw [recordAll, htotal, hhard]
  simp only [empty, UInt32.zero_add, UInt32.toNat_ofNat_of_lt' hlength]
  rw [← List.length_map (·.2.1), ← hsum]
  rfl

end Test.BinTally

namespace Aggregate

open Test

namespace BinDistribution

/-- What is published of the buckets of a distribution stays within the tally: no count
is above the true one, and those of the hardware bins add up to no more than the tested
dies. -/
structure NeverOverstates (tally : BinTally) (minCohort : UInt32) : Prop where
  hardBins (bin : UInt16) (bucket : BinCount) :
    ((fromTally tally).redactBelowCohort minCohort).hardBins[bin]? = some bucket →
      ∃ count ∈ tally.hardBins[bin]?, publishableCount bucket minCohort ≤ count
  softBins (bin : UInt16) (bucket : BinCount) :
    ((fromTally tally).redactBelowCohort minCohort).softBins[bin]? = some bucket →
      ∃ count ∈ tally.softBins[bin]?, publishableCount bucket minCohort ≤ count
  hardTotal : (((fromTally tally).redactBelowCohort minCohort).hardBins.toList.map fun entry =>
      (publishableCount entry.2 minCohort).toNat).sum ≤ tally.totalTested.toNat

/-- No bucket has fewer dies than the minimum cohort. -/
def Reaches (minCohort : UInt32) (bins : Std.ExtTreeMap UInt16 UInt32) : Prop :=
  ∀ (bin : UInt16) (count : UInt32), bins[bin]? = some count → minCohort ≤ count

variable {minCohort : UInt32} {bins : Std.ExtTreeMap UInt16 UInt32}

/-- A bucket that reaches the minimum cohort is published with its count. -/
theorem publishableCount_of_le {count : UInt32} (hle : minCohort ≤ count) :
    publishableCount (redactBucket minCohort { count, withheld := false }) minCohort = count := by
  rw [redactBucket, if_neg (UInt32.not_lt.mpr hle)]
  rfl

/-- Any other one is published as if it did. -/
theorem publishableCount_of_lt {count : UInt32} (hlt : count < minCohort) :
    publishableCount (redactBucket minCohort { count, withheld := false }) minCohort =
      minCohort := by
  rw [redactBucket, if_pos hlt]
  rfl

/-- A published count overstates nothing exactly where the bucket reaches the minimum cohort. -/
theorem publishableCount_le_iff {count : UInt32} :
    publishableCount (redactBucket minCohort { count, withheld := false }) minCohort ≤ count ↔
      minCohort ≤ count := by
  by_cases hlt : count < minCohort
  · rw [publishableCount_of_lt hlt]
  · have hle := UInt32.not_lt.mp hlt
    rw [publishableCount_of_le hle]
    exact iff_of_true (UInt32.le_refl count) hle

/-- Published counts are lower bounds exactly where no bucket is withheld. -/
theorem published_le_iff :
    (∀ (bin : UInt16) (bucket : BinCount),
        ((bucketsOf bins).map fun _ => redactBucket minCohort)[bin]? = some bucket →
          ∃ count ∈ bins[bin]?, publishableCount bucket minCohort ≤ count) ↔
      Reaches minCohort bins := by
  simp only [bucketsOf, Std.ExtTreeMap.getElem?_map, Option.map_map]
  constructor
  · intro hle bin count hcount
    obtain ⟨count', hcount', hbound⟩ := hle bin _ (by rw [hcount]; rfl)
    rw [Option.mem_def, hcount] at hcount'
    cases hcount'
    exact publishableCount_le_iff.mp hbound
  · intro hreaches bin bucket hbucket
    obtain ⟨count, hcount, rfl⟩ := Option.map_eq_some_iff.mp hbucket
    exact ⟨count, hcount, publishableCount_le_iff.mpr (hreaches bin count hcount)⟩

/-- Without a withheld bucket the published counts are those of the tally. -/
theorem map_published_of_reaches (hreaches : Reaches minCohort bins) :
    (((bucketsOf bins).map fun _ => redactBucket minCohort).toList.map fun entry =>
        (publishableCount entry.2 minCohort).toNat) =
      bins.toList.map (·.2.toNat) := by
  simp only [bucketsOf, Std.ExtTreeMap.toList_map, List.map_map]
  apply List.map_congr_left
  intro entry hentry
  have hcount := Std.ExtTreeMap.mem_toList_iff_getElem?_eq_some.mp hentry
  exact congrArg UInt32.toNat (publishableCount_of_le (hreaches entry.1 entry.2 hcount))

/-- What is published does not overstate a tally exactly if every bucket reaches the
minimum cohort and the hardware bins count no more than the tested dies. -/
theorem neverOverstates_iff (tally : BinTally) (minCohort : UInt32) :
    NeverOverstates tally minCohort ↔
      Reaches minCohort tally.hardBins ∧ Reaches minCohort tally.softBins ∧
        (tally.hardBins.toList.map (·.2.toNat)).sum ≤ tally.totalTested.toNat := by
  constructor
  · intro hnever
    have hhard := published_le_iff.mp hnever.hardBins
    have htotal := hnever.hardTotal
    rw [redactBelowCohort, fromTally] at htotal
    rw [map_published_of_reaches hhard] at htotal
    exact ⟨hhard, published_le_iff.mp hnever.softBins, htotal⟩
  · intro hcase
    obtain ⟨hhard, hsoft, htotal⟩ := hcase
    refine ⟨published_le_iff.mpr hhard, published_le_iff.mpr hsoft, ?_⟩
    rw [redactBelowCohort, fromTally]
    rw [map_published_of_reaches hhard]
    exact htotal

/-- One die that failed is published as five. -/
theorem not_neverOverstates_singleDie :
    ¬ NeverOverstates (BinTally.recordAll [(false, 10, 10)]) 5 := by
  intro hnever
  have hreaches := published_le_iff.mp hnever.hardBins
  have hcount : (BinTally.recordAll [(false, 10, 10)]).hardBins[(10 : UInt16)]? = some 1 := by
    decide +kernel
  exact absurd (hreaches 10 1 hcount) (by decide)

end BinDistribution

end Aggregate
