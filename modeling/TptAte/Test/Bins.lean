import TptAte.Wire.Field
import Mathlib.Tactic.Linarith

/-! # Bin taxonomy and tallies

The hardware and software bins that a test program sorts dies into, and the
counts of one wafer run.
-/

namespace Test

structure HardBin where
  number : UInt16
  pass : Bool
  name : String
  deriving DecidableEq, Repr

/-- Definition of one software bin and the hardware bin it rolls up into. -/
structure SoftBin where
  number : UInt16
  name : String
  hardBin : UInt16
  deriving DecidableEq, Repr

structure BinTaxonomy where
  hardBins : Std.ExtTreeMap UInt16 HardBin
  softBins : Std.ExtTreeMap UInt16 SoftBin

namespace BinTaxonomy

/-- Taxonomy used when a test program has no bin policy of its own. -/
def defaults : BinTaxonomy :=
  let hard : List HardBin :=
    [{ number := 1, pass := true, name := "PASS" },
     { number := 10, pass := false, name := "PARAMETRIC_FAIL" },
     { number := 11, pass := false, name := "FUNCTIONAL_FAIL" },
     { number := 12, pass := false, name := "ABORT" }]
  let soft : List SoftBin :=
    [{ number := 1, name := "PASS_ALL", hardBin := 1 },
     { number := 10, name := "FAIL_PARAMETRIC", hardBin := 10 },
     { number := 11, name := "FAIL_FUNCTIONAL", hardBin := 11 },
     { number := 12, name := "FAIL_ABORT", hardBin := 12 }]
  { hardBins := Std.ExtTreeMap.ofList (hard.map fun bin => (bin.number, bin))
    softBins := Std.ExtTreeMap.ofList (soft.map fun bin => (bin.number, bin)) }

/-- The hardware bin of a software bin; unknown ones go to the abort bin. -/
def hardBinOf (taxonomy : BinTaxonomy) (softBin : UInt16) : UInt16 :=
  (taxonomy.softBins[softBin]?.map (·.hardBin)).getD 12

/-- Is this a pass bin? Unknown bins are not. -/
def isPassHardBin (taxonomy : BinTaxonomy) (hardBin : UInt16) : Bool :=
  (taxonomy.hardBins[hardBin]?.map (·.pass)).getD false

def rollsToPass (taxonomy : BinTaxonomy) (softBin : UInt16) : Bool :=
  taxonomy.isPassHardBin (taxonomy.hardBinOf softBin)

end BinTaxonomy

structure BinTally where
  totalTested : UInt32
  totalPassed : UInt32
  hardBins : Std.ExtTreeMap UInt16 UInt32
  softBins : Std.ExtTreeMap UInt16 UInt32
  aborted : UInt32

namespace BinTally

def empty : BinTally :=
  { totalTested := 0, totalPassed := 0, hardBins := ∅, softBins := ∅, aborted := 0 }

def record (tally : BinTally) (passed : Bool) (hardBin softBin : UInt16) : BinTally :=
  { tally with
    totalTested := tally.totalTested + 1
    totalPassed := tally.totalPassed + passed.toUInt32
    hardBins := tally.hardBins.alter hardBin fun count => some (count.getD 0 + 1)
    softBins := tally.softBins.alter softBin fun count => some (count.getD 0 + 1) }

/-- Die yield over tested dies; zero for an empty run. -/
def yieldFraction (tally : BinTally) : Float :=
  if tally.totalTested = 0 then 0.0 else tally.totalPassed.toFloat / tally.totalTested.toFloat

end BinTally

end Test
