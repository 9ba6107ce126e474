import TptAte.Assembly.Verify

/-! # The verdict and the order of the records

The first record of a site is checked, and any other is a duplicate. Which record of a
site is checked depends on the order of the records; whether all is well, and which sites
are unknown, missing or placed more than once, does not.
-/

namespace Assembly

open Keyed

/-! ## Violations of one kind -/

section

variable {layout : InterposerLayout} {toleranceNm : Int64} {seen : List String}
  {earlier records : List PlacementRecord} {record : PlacementRecord}

/-- A site is found missing exactly if it is one of the layout that was not seen. -/
theorem mem_missingSites {violation : PlacementViolation} :
    violation ∈ missingSites layout seen ↔
      ∃ site ∈ layout.sites, site.siteId ∉ seen ∧ violation = .missingPlacement site.siteId := by
  rw [missingSites, List.mem_flatMap]
  apply exists_congr
  intro site
  apply and_congr_right
  intro _
  by_cases hmem : site.siteId ∈ seen <;> simp [hmem]

theorem exists_overlap_of_mem {violation : PlacementViolation}
    (hmem : violation ∈ overlaps layout records) :
    ∃ first second, violation = .overlap first second := by
  induction records with
  | nil => cases hmem
  | cons a records ih =>
      rw [overlaps, List.mem_append] at hmem
      rcases hmem with hmem | hmem
      · unfold overlapsWith at hmem
        split at hmem
        · cases hmem
        · obtain ⟨b, -, hmem⟩ := List.mem_flatMap.mp hmem
          split at hmem
          · cases hmem
          · split at hmem
            · exact ⟨_, _, List.mem_singleton.mp hmem⟩
            · cases hmem
      · exact ih hmem

/-- The checks of a record report nothing about its site. -/
theorem siteId_notMem_checkRecord {site : SiteSpec} (siteId : String) :
    .unknownSite siteId ∉ checkRecord layout toleranceNm record site ∧
      .duplicatePlacement siteId ∉ checkRecord layout toleranceNm record site ∧
      .missingPlacement siteId ∉ checkRecord layout toleranceNm record site := by
  unfold checkRecord
  cases layout.dieSpec record.chipletId <;> simp

variable {entry : List PlacementRecord × PlacementRecord} {siteId : String}

/-- A record is found to be for an unknown site exactly if the layout has no site of its id. -/
theorem unknownSite_mem_judge :
    .unknownSite siteId ∈ judge layout toleranceNm entry ↔
      entry.2.siteId = siteId ∧ layout.site siteId = none := by
  unfold judge
  cases hsite : layout.site entry.2.siteId with
  | none =>
      simp only [List.mem_singleton, PlacementViolation.unknownSite.injEq]
      constructor
      · rintro rfl
        exact ⟨rfl, hsite⟩
      · intro hunknown
        exact hunknown.1.symm
  | some site =>
      have hnone : ¬ (entry.2.siteId = siteId ∧ layout.site siteId = none) := by
        rintro ⟨rfl, hunknown⟩
        rw [hsite] at hunknown
        cases hunknown
      apply iff_of_false _ hnone
      dsimp only
      split
      · simp
      · exact (siteId_notMem_checkRecord siteId).1

/-- A record is found to be a duplicate exactly if a record in front of it has its site. -/
theorem duplicatePlacement_mem_judge :
    .duplicatePlacement siteId ∈ judge layout toleranceNm entry ↔
      entry.2.siteId = siteId ∧ (layout.site siteId).isSome = true ∧
        siteId ∈ entry.1.map (·.siteId) := by
  unfold judge
  cases hsite : layout.site entry.2.siteId with
  | none =>
      apply iff_of_false
      · simp
      · rintro ⟨rfl, hknown, -⟩
        rw [hsite] at hknown
        cases hknown
  | some site =>
      dsimp only
      by_cases hmem : entry.2.siteId ∈ entry.1.map (·.siteId)
      · rw [if_pos hmem, List.mem_singleton, PlacementViolation.duplicatePlacement.injEq]
        constructor
        · rintro rfl
          exact ⟨rfl, Option.isSome_of_eq_some hsite, hmem⟩
        · intro hduplicate
          exact hduplicate.1.symm
      · rw [if_neg hmem]
        apply iff_of_false (siteId_notMem_checkRecord siteId).2.1
        rintro ⟨rfl, -, hearlier⟩
        exact hmem hearlier

theorem missingPlacement_notMem_judge :
    .missingPlacement siteId ∉ judge layout toleranceNm entry := by
  unfold judge
  split
  · simp
  split
  · simp
  · exact (siteId_notMem_checkRecord siteId).2.2

end

/-! ## Sites that are reported -/

section

variable (layout : InterposerLayout) (toleranceNm : Int64) (records : List PlacementRecord)
  (siteId : String)

/-- A violation that is no overlap is found at a record or at a missing site. -/
theorem mem_violations_iff {violation : PlacementViolation}
    (hsite : ∀ first second, violation ≠ .overlap first second) :
    violation ∈ (verifyPlacements records layout toleranceNm).violations ↔
      (∃ entry ∈ withEarlier records, violation ∈ judge layout toleranceNm entry) ∨
        ∃ site ∈ layout.sites, site.siteId ∉ records.map (·.siteId) ∧
          violation = .missingPlacement site.siteId := by
  obtain ⟨seen, hseen, hviolations⟩ := violations_eq layout toleranceNm records
  have hoverlap : violation ∉ overlaps layout records := by
    intro hmem
    obtain ⟨first, second, heq⟩ := exists_overlap_of_mem hmem
    exact hsite first second heq
  rw [hviolations, List.mem_append, List.mem_append, List.mem_flatMap, mem_missingSites]
  rw [or_iff_left hoverlap]
  apply or_congr_right
  apply exists_congr
  intro site
  apply and_congr_right
  intro hmem
  rw [hseen.mem_iff hmem]

/-- The unknown sites are those of records that the layout does not have. -/
theorem unknownSite_mem_iff :
    .unknownSite siteId ∈ (verifyPlacements records layout toleranceNm).violations ↔
      layout.site siteId = none ∧ siteId ∈ records.map (·.siteId) := by
  rw [mem_violations_iff _ _ _ (by simp)]
  simp only [unknownSite_mem_judge, reduceCtorEq, and_false, exists_false, or_false]
  constructor
  · intro hunknown
    obtain ⟨entry, hentry, rfl, hnone⟩ := hunknown
    exact ⟨hnone, List.mem_map_of_mem (mem_of_mem_withEarlier hentry)⟩
  · intro hunknown
    obtain ⟨hnone, hmem⟩ := hunknown
    rw [← map_snd_withEarlier records, List.map_map] at hmem
    obtain ⟨entry, hentry, heq⟩ := List.mem_map.mp hmem
    exact ⟨entry, hentry, heq, hnone⟩

/-- The duplicates are the sites of the layout with more than one record. -/
theorem duplicatePlacement_mem_iff :
    .duplicatePlacement siteId ∈ (verifyPlacements records layout toleranceNm).violations ↔
      (layout.site siteId).isSome = true ∧ 2 ≤ (records.map (·.siteId)).count siteId := by
  rw [mem_violations_iff _ _ _ (by simp), two_le_count_iff, withEarlier_map]
  simp only [duplicatePlacement_mem_judge, reduceCtorEq, and_false, exists_false, or_false]
  constructor
  · intro hduplicate
    obtain ⟨entry, hentry, rfl, hknown, hearlier⟩ := hduplicate
    exact ⟨hknown, _, List.mem_map_of_mem hentry, hearlier⟩
  · intro hduplicate
    obtain ⟨hknown, earlier, hmapped, hearlier⟩ := hduplicate
    obtain ⟨entry, hentry, heq⟩ := List.mem_map.mp hmapped
    cases heq
    exact ⟨entry, hentry, rfl, hknown, hearlier⟩

/-- The missing sites are those of the layout without a record. -/
theorem missingPlacement_mem_iff :
    .missingPlacement siteId ∈ (verifyPlacements records layout toleranceNm).violations ↔
      siteId ∈ layout.sites.map (·.siteId) ∧ siteId ∉ records.map (·.siteId) := by
  rw [mem_violations_iff _ _ _ (by simp)]
  simp only [missingPlacement_notMem_judge, and_false, exists_false, false_or,
    PlacementViolation.missingPlacement.injEq]
  constructor
  · intro hmissing
    obtain ⟨site, hsite, hnone, rfl⟩ := hmissing
    exact ⟨List.mem_map_of_mem hsite, hnone⟩
  · intro hmissing
    obtain ⟨hmem, hnone⟩ := hmissing
    obtain ⟨site, hsite, rfl⟩ := List.mem_map.mp hmem
    exact ⟨site, hsite, hnone, rfl⟩

end

/-! ## Records in another order -/

section

variable {layout : InterposerLayout} {toleranceNm : Int64} {records records' : List PlacementRecord}

/-- Overlapping does not depend on which footprint comes first. -/
theorem Overlaps.symm {a b : PointNm × PointNm} (hoverlaps : Overlaps a b) : Overlaps b a := by
  obtain ⟨hx, hx', hy, hy'⟩ := hoverlaps
  exact ⟨hx', hx, hy', hy⟩

/-- The checks that records pass do not depend on their order. -/
theorem Checked.perm (hperm : records.Perm records')
    (hchecked : Checked records layout toleranceNm) : Checked records' layout toleranceNm where
  known record hrecord := hchecked.known record (hperm.mem_iff.mpr hrecord)
  distinct := (hperm.map _).nodup_iff.mp hchecked.distinct
  placed site hsite := by
    obtain ⟨record, hrecord, hid⟩ := hchecked.placed site hsite
    exact ⟨record, hperm.mem_iff.mp hrecord, hid⟩
  oriented record hrecord := hchecked.oriented record (hperm.mem_iff.mpr hrecord)
  onTarget record hrecord := hchecked.onTarget record (hperm.mem_iff.mpr hrecord)
  inBounds record hrecord := hchecked.inBounds record (hperm.mem_iff.mpr hrecord)
  apart := by
    apply hperm.pairwise hchecked.apart
    intro a b hapart bRect aRect hb ha hoverlaps
    exact hapart aRect bRect ha hb hoverlaps.symm

/-- Two reports that agree on whether all is well and on the sites that are unknown,
missing or placed more than once. -/
structure SameVerdict (report report' : PlacementReport) : Prop where
  isOk : report.isOk = report'.isOk
  unknown (siteId : String) :
    .unknownSite siteId ∈ report.violations ↔ .unknownSite siteId ∈ report'.violations
  missing (siteId : String) :
    .missingPlacement siteId ∈ report.violations ↔ .missingPlacement siteId ∈ report'.violations
  duplicate (siteId : String) :
    .duplicatePlacement siteId ∈ report.violations ↔
      .duplicatePlacement siteId ∈ report'.violations

/-- The verdict on some records does not depend on their order. -/
theorem sameVerdict_of_perm (hperm : records.Perm records') (layout : InterposerLayout)
    (toleranceNm : Int64) :
    SameVerdict (verifyPlacements records layout toleranceNm)
      (verifyPlacements records' layout toleranceNm) where
  isOk := by
    rw [Bool.eq_iff_iff, isOk_iff, isOk_iff]
    exact ⟨Checked.perm hperm, Checked.perm hperm.symm⟩
  unknown siteId := by
    rw [unknownSite_mem_iff, unknownSite_mem_iff, (hperm.map _).mem_iff]
  missing siteId := by
    rw [missingPlacement_mem_iff, missingPlacement_mem_iff, (hperm.map _).mem_iff]
  duplicate siteId := by
    rw [duplicatePlacement_mem_iff, duplicatePlacement_mem_iff, (hperm.map _).count_eq]

end

/-- A layout of one site. -/
def oneSite : InterposerLayout :=
  { extentNm := (10, 10)
    dies := [{ chipletId := "io", widthNm := 2, heightNm := 2 }]
    sites := [{ siteId := "s_io", chipletId := "io", position := ⟨0, 0⟩, orientation := .r0 }] }

def ioPlaced (placed : PointNm) : PlacementRecord :=
  { siteId := "s_io", chipletId := "io", technique := .flipChip, nominal := ⟨0, 0⟩, placed,
    orientation := .r0 }

/-- Two records for one site, of which only the one in front is checked. -/
theorem sameVerdict_of_perm_oneSite :
    SameVerdict (verifyPlacements [ioPlaced ⟨0, 0⟩, ioPlaced ⟨9, 9⟩] oneSite 5)
      (verifyPlacements [ioPlaced ⟨9, 9⟩, ioPlaced ⟨0, 0⟩] oneSite 5) :=
  sameVerdict_of_perm (.swap _ _ _) oneSite 5

end Assembly
