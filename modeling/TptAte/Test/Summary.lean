import TptAte.Test.Recording

/-! # Summary counters of a recorded run

The bin records carry the counters of the tally, and the wafer and part results those
of the map. They agree unless a die is reported twice or fails into a pass bin.
-/

namespace Test

open Wire Stdf Keyed

/-! ## The counters of a record stream -/

def hbr? : Record → Option Hbr
  | .hbr r => some r
  | _ => none

def sbr? : Record → Option Sbr
  | .sbr r => some r
  | _ => none

def wrr? : Record → Option Wrr
  | .wrr r => some r
  | _ => none

def pcr? : Record → Option Pcr
  | .pcr r => some r
  | _ => none

def hardTotal (records : List Record) (p : UInt8 → Bool) : UInt32 :=
  (((records.filterMap hbr?).filter fun r => p r.hbinPf).map (·.hbinCnt)).sum

def softTotal (records : List Record) (p : UInt8 → Bool) : UInt32 :=
  (((records.filterMap sbr?).filter fun r => p r.sbinPf).map (·.sbinCnt)).sum

/-- The bins, the wafer results and both part results count the same parts, and the
same good ones. -/
def SummariesAgree (records : List Record) : Prop :=
  ∃ part good,
    hardTotal records (fun _ => true) = part ∧ softTotal records (fun _ => true) = part ∧
    hardTotal records (· == 0x50) = good ∧ softTotal records (· == 0x50) = good ∧
    (records.filterMap wrr?).map (fun r => (r.partCnt, r.goodCnt)) = [(part, good)] ∧
    (records.filterMap pcr?).map (fun r => (r.partCnt, r.goodCnt)) = [(part, good), (part, good)]

/-! ## The records of a run -/

section

variable {program : TestProgram} {wafer : WaferDieMap} {results : List DieTestResult}
  {tally : BinTally} {taxonomy : BinTaxonomy} {metadata : RunMetadata}

/-- The records of a kind that is neither of the identity nor of the dies and the tests. -/
theorem filterMap_buildWaferRunRecords {α : Type} {pick : Record → Option α}
    (hidentity : (identityRecords program wafer metadata).filterMap pick = [])
    (hbps : pick .bps = none) (heps : pick .eps = none) (hptr : ∀ r, pick (.ptr r) = none)
    (hftr : ∀ r, pick (.ftr r) = none) (htsr : ∀ r, pick (.tsr r) = none) :
    (buildWaferRunRecords program wafer results tally taxonomy metadata).filterMap pick =
      [.wrr (waferWrr wafer tally metadata), .pcr (sitePcr wafer tally 1),
        .pcr (sitePcr wafer tally 255)].filterMap pick ++
        tally.hardBins.toList.filterMap (fun entry =>
          pick (.hbr (hardBinHbr taxonomy entry.1 entry.2))) ++
        tally.softBins.toList.filterMap (fun entry =>
          pick (.sbr (softBinSbr taxonomy entry.1 entry.2))) ++
        [.gdr ⟨encodeWaferMapGdr wafer⟩,
          .mrr { finishT := metadata.finishT, dispCod := 0x20, usrCod := 0, excCod := 0
                 usrDesc := "", excDesc := "" }].filterMap pick := by
  have hdies : ((byCoord results).flatMap (dieRecords program)).filterMap pick = [] := by
    rw [List.filterMap_eq_nil_iff]
    intro record hrecord
    rw [List.mem_flatMap] at hrecord
    obtain ⟨result, -, hrecord⟩ := hrecord
    simp only [dieRecords, List.cons_append, List.mem_cons, List.mem_append, List.mem_map,
      List.not_mem_nil, or_false] at hrecord
    rcases hrecord with rfl | (⟨_, -, rfl⟩ | ⟨_, -, rfl⟩) | rfl
    · exact hbps
    · exact hptr _
    · exact hftr _
    · exact heps
  simp only [buildWaferRunRecords, List.filterMap_append, hidentity, hdies, List.filterMap_map,
    Function.comp_def, htsr, List.filterMap_none, List.nil_append]

theorem hbrs_eq :
    (buildWaferRunRecords program wafer results tally taxonomy metadata).filterMap hbr? =
      tally.hardBins.toList.map fun entry => hardBinHbr taxonomy entry.1 entry.2 := by
  rw [filterMap_buildWaferRunRecords rfl rfl rfl (fun _ => rfl) (fun _ => rfl) fun _ => rfl]
  simp [hbr?, List.filterMap_cons]

theorem sbrs_eq :
    (buildWaferRunRecords program wafer results tally taxonomy metadata).filterMap sbr? =
      tally.softBins.toList.map fun entry => softBinSbr taxonomy entry.1 entry.2 := by
  rw [filterMap_buildWaferRunRecords rfl rfl rfl (fun _ => rfl) (fun _ => rfl) fun _ => rfl]
  simp [sbr?, List.filterMap_cons]

theorem wrrs_eq :
    (buildWaferRunRecords program wafer results tally taxonomy metadata).filterMap wrr? =
      [waferWrr wafer tally metadata] := by
  rw [filterMap_buildWaferRunRecords rfl rfl rfl (fun _ => rfl) (fun _ => rfl) fun _ => rfl]
  simp [wrr?, List.filterMap_cons]

theorem pcrs_eq :
    (buildWaferRunRecords program wafer results tally taxonomy metadata).filterMap pcr? =
      [sitePcr wafer tally 1, sitePcr wafer tally 255] := by
  rw [filterMap_buildWaferRunRecords rfl rfl rfl (fun _ => rfl) (fun _ => rfl) fun _ => rfl]
  simp [pcr?, List.filterMap_cons]

end

/-! ## What the counters count -/

section

variable {program : TestProgram} {wafer : WaferDieMap} {results : List DieTestResult}
  {taxonomy : BinTaxonomy} {metadata : RunMetadata}

/-- The hardware bins count the results by their hardware bins. -/
theorem hardTotal_recordRun (p : UInt8 → Bool) :
    hardTotal (recordRun program taxonomy metadata wafer results).records p =
      UInt32.ofNat (countWith program taxonomy
        (fun outcome => p (hardBinHbr taxonomy outcome.hardBin 0).hbinPf) results) := by
  have hsum := sum_filter_countAll (fun number => p (hardBinHbr taxonomy number 0).hbinPf)
    (results.map fun result => (result.outcome program taxonomy).hardBin)
  rw [List.countP_map] at hsum
  rw [hardTotal, recordRun, hbrs_eq, tally_eq, List.filter_map, List.map_map]
  exact hsum

/-- The software bins of a kind count the results that were sorted into them. -/
theorem softTotal_recordRun (p : UInt8 → Bool) :
    softTotal (recordRun program taxonomy metadata wafer results).records p =
      UInt32.ofNat (countWith program taxonomy
        (fun outcome => p (softBinSbr taxonomy outcome.softBin 0).sbinPf) results) := by
  have hsum := sum_filter_countAll (fun number => p (softBinSbr taxonomy number 0).sbinPf)
    (results.map fun result => (result.outcome program taxonomy).softBin)
  rw [List.countP_map] at hsum
  rw [softTotal, recordRun, sbrs_eq, tally_eq, List.filter_map, List.map_map]
  exact hsum

/-- The wafer and part results count the dies that the map shows as tested. -/
theorem summariesAgree_recordRun_iff (hfresh : wafer.Fresh) :
    SummariesAgree (recordRun program taxonomy metadata wafer results).records ↔
      UInt32.ofNat results.length = UInt32.ofNat (wafer.kept results).length ∧
        UInt32.ofNat (countWith program taxonomy
            (fun outcome => (hardBinHbr taxonomy outcome.hardBin 0).hbinPf == 0x50) results) =
          UInt32.ofNat (countWith program taxonomy (·.passed) (wafer.kept results)) ∧
        UInt32.ofNat (countWith program taxonomy
            (fun outcome => (softBinSbr taxonomy outcome.softBin 0).sbinPf == 0x50) results) =
          UInt32.ofNat (countWith program taxonomy (·.passed) (wafer.kept results)) := by
  have hcounts : (sortWafer results wafer program taxonomy).2.testedCounts =
      (UInt32.ofNat (wafer.kept results).length,
        UInt32.ofNat (countWith program taxonomy (·.passed) (wafer.kept results))) := by
    rw [← @countWith_true program taxonomy (wafer.kept results), ← fst_testedCounts hfresh,
      ← snd_testedCounts hfresh]
  have hwrrs : ((recordRun program taxonomy metadata wafer results).records.filterMap wrr?).map
      (fun r => (r.partCnt, r.goodCnt)) =
        [(sortWafer results wafer program taxonomy).2.testedCounts] :=
    congrArg (List.map _) wrrs_eq
  have hpcrs : ((recordRun program taxonomy metadata wafer results).records.filterMap pcr?).map
      (fun r => (r.partCnt, r.goodCnt)) =
        [(sortWafer results wafer program taxonomy).2.testedCounts,
          (sortWafer results wafer program taxonomy).2.testedCounts] :=
    congrArg (List.map _) pcrs_eq
  -- the WRR and both PCRs show the same counts, so that only the bins can differ from them
  rw [hcounts] at hwrrs hpcrs
  rw [SummariesAgree, hwrrs, hpcrs, hardTotal_recordRun, hardTotal_recordRun, softTotal_recordRun,
    softTotal_recordRun, countWith_true]
  constructor
  · rintro ⟨part, good, hpart, -, hhard, hsoft, hcounts, -⟩
    obtain ⟨rfl, rfl⟩ := Prod.mk.inj (List.cons.inj hcounts).1
    exact ⟨hpart, hhard, hsoft⟩
  · rintro ⟨hpart, hhard, hsoft⟩
    exact ⟨_, _, hpart, hpart, hhard, hsoft, rfl, rfl⟩

end

/-! ## The default taxonomy -/

/-- The default taxonomy knows four software bins. -/
theorem softBins_defaults {number : UInt16}
    (hnumber : ¬ (number = 1 ∨ number = 10 ∨ number = 11 ∨ number = 12)) :
    BinTaxonomy.defaults.softBins[number]? = none := by
  apply Std.ExtTreeMap.getElem?_eq_none
  rw [BinTaxonomy.defaults, Std.ExtTreeMap.mem_ofList]
  simpa using hnumber

theorem rollsToPass_defaults (number : UInt16) :
    BinTaxonomy.defaults.rollsToPass number = (number == 1) := by
  by_cases hnumber : number = 1 ∨ number = 10 ∨ number = 11 ∨ number = 12
  · rcases hnumber with rfl | rfl | rfl | rfl <;> decide +kernel
  · rw [BinTaxonomy.rollsToPass, BinTaxonomy.hardBinOf, softBins_defaults hnumber]
    have hone : number ≠ 1 := fun h => hnumber (.inl h)
    have hfail : BinTaxonomy.defaults.isPassHardBin 12 = false := by
      decide +kernel
    simp [hone, hfail]

theorem sbinPf_defaults (number : UInt16) :
    ((softBinSbr .defaults number 0).sbinPf == 0x50) = (number == 1) := by
  by_cases hnumber : number = 1 ∨ number = 10 ∨ number = 11 ∨ number = 12
  · rcases hnumber with rfl | rfl | rfl | rfl <;> decide +kernel
  · rw [softBinSbr, softBins_defaults hnumber]
    have hone : number ≠ 1 := fun h => hnumber (.inl h)
    simp [hone]

/-- A hardware bin is shown as passing exactly if the taxonomy says so. -/
theorem hbinPf_eq (taxonomy : BinTaxonomy) (number : UInt16) :
    ((hardBinHbr taxonomy number 0).hbinPf == 0x50) = taxonomy.isPassHardBin number := by
  unfold hardBinHbr BinTaxonomy.isPassHardBin
  cases taxonomy.hardBins[number]? with
  | none => rfl
  | some bin => cases hpass : bin.pass <;> simp [hpass]

theorem hardBin_sortDie (result : DieTestResult) (program : TestProgram) (taxonomy : BinTaxonomy) :
    (sortDie result program taxonomy).hardBin =
      taxonomy.hardBinOf (sortDie result program taxonomy).softBin := by
  unfold sortDie assignFail
  split
  · rfl
  split
  · rfl
  split <;> rfl

/-- Both kinds of bin count the results in software bin one as good. -/
theorem isGood_defaults (result : DieTestResult) (program : TestProgram) :
    ((hardBinHbr .defaults (result.outcome program .defaults).hardBin 0).hbinPf == 0x50) =
      ((result.outcome program .defaults).softBin == 1) := by
  rw [hbinPf_eq, DieTestResult.outcome, ← rollsToPass_defaults, BinTaxonomy.rollsToPass,
    hardBin_sortDie]

/-- A die is in software bin one if it passed, or if the program declares that bin for
its failure. -/
theorem softBin_eq_one (result : DieTestResult) (program : TestProgram) :
    ((result.outcome program .defaults).softBin == 1) =
      ((result.outcome program .defaults).passed || declaredSoftBin result program == 1) := by
  have hpass := isPassHardBin_sortDie result program separates_defaults
  rw [hardBin_sortDie, ← BinTaxonomy.rollsToPass, rollsToPass_defaults,
    rollsToPass_defaults] at hpass
  rw [DieTestResult.outcome, hpass]
  by_cases hone : declaredSoftBin result program = 1
  · simp [hone]
  · have hne : (declaredSoftBin result program == 1) = false := beq_eq_false_iff_ne.mpr hone
    simp [hne]

/-! ## When the counters agree -/

/-- The results that the pass bins count, although the map does not show them as
passing dies. -/
def falselyGood (program : TestProgram) (wafer : WaferDieMap) (results : List DieTestResult) :
    List DieTestResult :=
  (wafer.lost results).filter (fun result => (result.outcome program .defaults).softBin == 1) ++
    (wafer.kept results).filter (declaredSoftBin · program == 1)

/-- Two numbers are the same counter if they differ by whole turns of it. -/
theorem ofNat_add_eq_iff (a b : Nat) : UInt32.ofNat (a + b) = UInt32.ofNat a ↔ 2 ^ 32 ∣ b := by
  rw [← UInt32.toNat_inj, UInt32.toNat_ofNat', UInt32.toNat_ofNat']
  omega

section

variable {program : TestProgram} {wafer : WaferDieMap} {results : List DieTestResult}

theorem onSites_eq_self (hsites : ∀ result ∈ results, wafer.Testable result.coord) :
    wafer.onSites results = results := by
  rw [WaferDieMap.onSites, List.filter_eq_self]
  simpa using hsites

theorem offSites_eq_nil (hsites : ∀ result ∈ results, wafer.Testable result.coord) :
    wafer.offSites results = [] := by
  rw [WaferDieMap.offSites, List.filter_eq_nil_iff]
  simpa using hsites

/-- No passing die has a failure that the program declares a bin for. -/
theorem declaredSoftBin_of_passed {taxonomy : BinTaxonomy} {result : DieTestResult}
    (hpassed : (result.outcome program taxonomy).passed = true) :
    declaredSoftBin result program = 0 := by
  apply declaredSoftBin_of_good
  exact (passed_sortDie_iff result program taxonomy).mp hpassed

/-- Software bin one counts the passing dies and those that fail into it. -/
theorem countWith_softBin (results : List DieTestResult) :
    countWith program .defaults (·.softBin == 1) results =
      countWith program .defaults (·.passed) results +
        (results.filter fun result => declaredSoftBin result program == 1).length := by
  induction results with
  | nil => rfl
  | cons result results ih =>
      simp only [countWith] at ih ⊢
      rw [List.countP_cons, List.countP_cons, ih, softBin_eq_one, List.filter_cons]
      cases hpassed : (result.outcome program .defaults).passed with
      | true =>
          simp [declaredSoftBin_of_passed hpassed]
          omega
      | false =>
          cases declaredSoftBin result program == 1 with
          | true =>
              simp
              omega
          | false => simp

/-- The pass bins count the passing dies of the map and the falsely good results. -/
theorem countWith_softBin_eq_add (wafer : WaferDieMap) (results : List DieTestResult) :
    countWith program .defaults (·.softBin == 1) results =
      countWith program .defaults (·.passed) (wafer.kept results) +
        (falselyGood program wafer results).length := by
  rw [countWith_eq_add program .defaults results wafer, countWith_softBin (wafer.kept results),
    falselyGood, List.length_append, countWith, List.countP_eq_length_filter,
    countWith, List.countP_eq_length_filter (l := wafer.lost results)]
  omega

end

/-- The summary counters of a run with the default taxonomy agree, up to wrapping around,
exactly if the lost results and the falsely good ones count as nothing. In a run of
fewer dies than the counters can count there are then no such results: no die is
reported twice, and no failing die is declared to go to the pass bin. -/
theorem summariesAgree_iff (program : TestProgram) (metadata : RunMetadata) {wafer : WaferDieMap}
    (hfresh : wafer.Fresh) {results : List DieTestResult}
    (hsites : ∀ result ∈ results, wafer.Testable result.coord) :
    (SummariesAgree (recordRun program .defaults metadata wafer results).records ↔
        2 ^ 32 ∣ (wafer.lost results).length ∧
          2 ^ 32 ∣ (falselyGood program wafer results).length) ∧
      (results.length < 2 ^ 32 →
        (SummariesAgree (recordRun program .defaults metadata wafer results).records ↔
          (results.map (·.coord)).Nodup ∧
            ∀ result ∈ results, declaredSoftBin result program ≠ 1)) := by
  have hlength : results.length = (wafer.kept results).length + (wafer.lost results).length := by
    have hadd := @length_results results program .defaults wafer
    rwa [countWith_true, ← length_lost] at hadd
  have hagree : SummariesAgree (recordRun program .defaults metadata wafer results).records ↔
      2 ^ 32 ∣ (wafer.lost results).length ∧
        2 ^ 32 ∣ (falselyGood program wafer results).length := by
    -- under the default bins a hardware bin passes exactly for the software bin 1
    have hhard : countWith program .defaults (fun outcome =>
        (hardBinHbr .defaults outcome.hardBin 0).hbinPf == 0x50) results =
          countWith program .defaults (·.softBin == 1) results :=
      congrArg (List.countP · results) (funext fun result => isGood_defaults result program)
    rw [summariesAgree_recordRun_iff hfresh, hhard]
    simp only [sbinPf_defaults]
    rw [countWith_softBin_eq_add wafer, hlength, ofNat_add_eq_iff, ofNat_add_eq_iff, and_self_iff]
  refine ⟨hagree, fun hfew => ?_⟩
  have hfalsely := countWith_le program .defaults (·.softBin == 1) results
  rw [countWith_softBin_eq_add wafer] at hfalsely
  -- below 2^32 results a count vanishes to 32 bits only if it is 0
  have hnone (count : Nat) (hle : count ≤ results.length) : 2 ^ 32 ∣ count ↔ count = 0 :=
    ⟨fun hdvd => Nat.eq_zero_of_dvd_of_lt hdvd (by omega),
      fun hzero => hzero ▸ Nat.dvd_zero _⟩
  rw [hagree, hnone _ (by omega), hnone _ (by omega), List.length_eq_zero_iff,
    List.length_eq_zero_iff]
  have hlost : wafer.lost results = [] ↔ (results.map (·.coord)).Nodup := by
    rw [WaferDieMap.lost, WaferDieMap.supersededResults, offSites_eq_nil hsites,
      onSites_eq_self hsites, List.nil_append, superseded_eq_nil_iff]
  rw [← hlost]
  apply and_congr_right
  intro hnil
  have hkept : wafer.kept results = results := by
    rw [WaferDieMap.kept, onSites_eq_self hsites]
    exact latest_eq_self _ (hlost.mp hnil)
  rw [falselyGood, hnil, hkept, List.filter_nil, List.nil_append, List.filter_eq_nil_iff]
  simp

/-- A die that passes twice. -/
def retested : List DieTestResult :=
  [{ failedDie with measurements := [] }, { failedDie with measurements := [] }]

def retestedRun : WaferRun :=
  recordRun lenientProgram .defaults (.default 1700000900 1700000900) twoSites retested

theorem summariesAgree_iff_retested :
    (SummariesAgree retestedRun.records ↔
      2 ^ 32 ∣ (twoSites.lost retested).length ∧
        2 ^ 32 ∣ (falselyGood lenientProgram twoSites retested).length) ∧
    (retested.length < 2 ^ 32 →
      (SummariesAgree retestedRun.records ↔
        (retested.map (·.coord)).Nodup ∧
          ∀ result ∈ retested, declaredSoftBin result lenientProgram ≠ 1)) :=
  summariesAgree_iff lenientProgram _ fresh_twoSites (by decide +kernel)

/-- The bins count the die twice, the map counts it once. -/
theorem not_summariesAgree_retested :
    ¬ ∀ (program : TestProgram) (metadata : RunMetadata) (wafer : WaferDieMap)
      (results : List DieTestResult), wafer.Fresh →
        (∀ result ∈ results, wafer.Testable result.coord) →
          SummariesAgree (recordRun program .defaults metadata wafer results).records := by
  intro hall
  have hagree := hall lenientProgram (.default 1700000900 1700000900) twoSites retested
    fresh_twoSites (by decide +kernel)
  rw [summariesAgree_recordRun_iff fresh_twoSites] at hagree
  exact absurd hagree.1 (by decide +kernel)

end Test
