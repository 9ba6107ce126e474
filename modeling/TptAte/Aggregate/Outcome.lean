import TptAte.Test.Bins

/-! # Bin distribution of an outcome

The bin and yield summary that is published for a run, and the minimum-cohort
rule that should hide the sizes of its small buckets. The rule marks them as
withheld and leaves their counts in place.
-/

namespace Aggregate

open Test

structure BinCount where
  count : UInt32
  withheld : Bool
  deriving DecidableEq, Repr

structure BinDistribution where
  totalTested : UInt32
  totalPassed : UInt32
  yieldFraction : Float
  hardBins : Std.ExtTreeMap UInt16 BinCount
  softBins : Std.ExtTreeMap UInt16 BinCount

namespace BinDistribution

/-- The buckets of a tally, none of them withheld. -/
def bucketsOf (bins : Std.ExtTreeMap UInt16 UInt32) : Std.ExtTreeMap UInt16 BinCount :=
  bins.map fun _ count => { count, withheld := false }

def fromTally (tally : BinTally) : BinDistribution :=
  { totalTested := tally.totalTested
    totalPassed := tally.totalPassed
    yieldFraction := tally.yieldFraction
    hardBins := bucketsOf tally.hardBins
    softBins := bucketsOf tally.softBins }

/-- Withhold a bucket with fewer than `minCohort` dies. -/
def redactBucket (minCohort : UInt32) (bucket : BinCount) : BinCount :=
  -- the count stays in the bucket
  if bucket.count < minCohort then { bucket with withheld := true } else bucket

/-- The minimum-cohort rule. -/
def redactBelowCohort (distribution : BinDistribution) (minCohort : UInt32) : BinDistribution :=
  { distribution with
    hardBins := distribution.hardBins.map fun _ => redactBucket minCohort
    softBins := distribution.softBins.map fun _ => redactBucket minCohort }

def publishableCount (bucket : BinCount) (minCohort : UInt32) : UInt32 :=
  if bucket.withheld then minCohort else bucket.count

/-! ## What redaction hides -/

/-- Redaction leaves the count of a bucket as it was. -/
theorem count_redactBucket (minCohort : UInt32) (bucket : BinCount) :
    (redactBucket minCohort bucket).count = bucket.count := by
  unfold redactBucket
  split <;> rfl

/-- Every bucket is published with the count it has in the tally. -/
theorem redact_bucketsOf_injective (minCohort : UInt32)
    {bins bins' : Std.ExtTreeMap UInt16 UInt32}
    (h : (bucketsOf bins).map (fun _ => redactBucket minCohort) =
      (bucketsOf bins').map fun _ => redactBucket minCohort) : bins = bins' := by
  apply Std.ExtTreeMap.ext_getElem?
  intro bin
  have hbin := congrArg (fun buckets => buckets[bin]?.map BinCount.count) h
  simpa [bucketsOf, Std.ExtTreeMap.getElem?_map, Function.comp_def, count_redactBucket] using hbin

/-- Two maps with the same bins, whose counts differ only in bins with fewer than
`minCohort` dies on both sides. -/
def BinsAgree (minCohort : UInt32) (bins bins' : Std.ExtTreeMap UInt16 UInt32) : Prop :=
  ∀ bin : UInt16, (bins[bin]?.isSome ↔ bins'[bin]?.isSome) ∧
    (bins[bin]? = bins'[bin]? ∨
      (∀ count ∈ bins[bin]?, count < minCohort) ∧ ∀ count ∈ bins'[bin]?, count < minCohort)

/-- Two tallies that may differ only in buckets with fewer than `minCohort` dies. -/
structure AgreeAbove (minCohort : UInt32) (left right : BinTally) : Prop where
  totalTested : left.totalTested = right.totalTested
  totalPassed : left.totalPassed = right.totalPassed
  hardBins : BinsAgree minCohort left.hardBins right.hardBins
  softBins : BinsAgree minCohort left.softBins right.softBins

/-- Two tallies that differ only in small buckets are published alike exactly if
they do not differ there either. -/
theorem redact_eq_iff {minCohort : UInt32} {left right : BinTally}
    (hagree : AgreeAbove minCohort left right) :
    (fromTally left).redactBelowCohort minCohort = (fromTally right).redactBelowCohort minCohort ↔
      ∀ bin : UInt16, left.hardBins[bin]? = right.hardBins[bin]? ∧
        left.softBins[bin]? = right.softBins[bin]? := by
  constructor
  · -- a published bucket still shows its count, so equal outputs have equal tallies
    intro heq bin
    have hhard := redact_bucketsOf_injective minCohort (congrArg BinDistribution.hardBins heq)
    have hsoft := redact_bucketsOf_injective minCohort (congrArg BinDistribution.softBins heq)
    exact ⟨by rw [hhard], by rw [hsoft]⟩
  · intro hall
    have hhard : left.hardBins = right.hardBins :=
      Std.ExtTreeMap.ext_getElem? fun bin => (hall bin).1
    have hsoft : left.softBins = right.softBins :=
      Std.ExtTreeMap.ext_getElem? fun bin => (hall bin).2
    simp only [fromTally, BinTally.yieldFraction, hagree.totalTested, hagree.totalPassed,
      hhard, hsoft]

/-- The publishable counts, unlike the published buckets, do hide the small ones. -/
theorem publishableCount_eq {minCohort : UInt32} {bins bins' : Std.ExtTreeMap UInt16 UInt32}
    (hagree : BinsAgree minCohort bins bins') (bin : UInt16) :
    ((bucketsOf bins).map fun _ => redactBucket minCohort)[bin]?.map
        (publishableCount · minCohort) =
      ((bucketsOf bins').map fun _ => redactBucket minCohort)[bin]?.map
        (publishableCount · minCohort) := by
  obtain ⟨hkeys, hcounts⟩ := hagree bin
  simp only [bucketsOf, Std.ExtTreeMap.getElem?_map, Option.map_map]
  rcases hcounts with heq | ⟨hsmall, hsmall'⟩
  · rw [heq]
  · cases hbin : bins[bin]? with
    | none =>
        cases hbin' : bins'[bin]? with
        | none => rfl
        | some count' => simp [hbin, hbin'] at hkeys
    | some count =>
        cases hbin' : bins'[bin]? with
        | none => simp [hbin, hbin'] at hkeys
        | some count' =>
            have hlt := hsmall count hbin
            have hlt' := hsmall' count' hbin'
            simp [redactBucket, publishableCount, hlt, hlt']

/-- Ten sorted dies, seven of them passing, with the given numbers of failures. -/
def failuresTally (parametric functional : UInt32) : BinTally :=
  let bins : Std.ExtTreeMap UInt16 UInt32 :=
    ((Std.ExtTreeMap.empty.insert 1 7).insert 10 parametric).insert 11 functional
  { totalTested := 10, totalPassed := 7, hardBins := bins, softBins := bins, aborted := 0 }

/-- The two runs differ in their failures only, of which each kind has fewer than five dies. -/
theorem agreeAbove_failuresTally : AgreeAbove 5 (failuresTally 1 2) (failuresTally 2 1) := by
  have hbins : BinsAgree 5 (failuresTally 1 2).hardBins (failuresTally 2 1).hardBins := by
    intro bin
    simp only [failuresTally, Std.ExtTreeMap.getElem?_insert]
    by_cases hfunctional : 11 = bin
    · subst hfunctional
      simp
    · by_cases hparametric : 10 = bin
      · subst hparametric
        simp
      · simp [hfunctional, hparametric]
  exact ⟨rfl, rfl, hbins, hbins⟩

/-- The two runs would be published alike only if their failures were the same. -/
theorem redact_eq_iff_failuresTally :
    AgreeAbove 5 (failuresTally 1 2) (failuresTally 2 1) ∧
      ((fromTally (failuresTally 1 2)).redactBelowCohort 5 =
          (fromTally (failuresTally 2 1)).redactBelowCohort 5 ↔
        ∀ bin : UInt16,
          (failuresTally 1 2).hardBins[bin]? = (failuresTally 2 1).hardBins[bin]? ∧
            (failuresTally 1 2).softBins[bin]? = (failuresTally 2 1).softBins[bin]?) :=
  ⟨agreeAbove_failuresTally, redact_eq_iff agreeAbove_failuresTally⟩

/-- One parametric and two functional failures are published differently from two
and one. -/
theorem not_redact_eq_failuresTally :
    ¬ ∀ minCohort left right, AgreeAbove minCohort left right →
      (fromTally left).redactBelowCohort minCohort =
        (fromTally right).redactBelowCohort minCohort := by
  intro hclaim
  have heq := hclaim 5 (failuresTally 1 2) (failuresTally 2 1) agreeAbove_failuresTally
  have hbins := redact_bucketsOf_injective 5 (congrArg BinDistribution.hardBins heq)
  have hten := congrArg (fun bins => bins[(10 : UInt16)]?) hbins
  revert hten
  decide +kernel

end BinDistribution

end Aggregate
