import TptAte.Assembly.Layout
import TptAte.Keyed.Earlier

/-! # Placement verification

Executed placements are checked against the reference layout: first record by
record, each judged by those in front of it, then for sites without a record, and last
pair by pair for overlaps.
-/

namespace Assembly

open Keyed

inductive AssemblyTechnique where
  | wireBond
  | flipChip
  | chipletPickPlace
  deriving DecidableEq, Repr

/-- One executed placement. `nominal` is copied from the plan, `placed` is what
the equipment reported. -/
structure PlacementRecord where
  siteId : String
  chipletId : String
  technique : AssemblyTechnique
  nominal : PointNm
  placed : PointNm
  orientation : Orientation
  deriving DecidableEq, Repr

inductive PlacementViolation where
  | unknownSite (siteId : String)
  | duplicatePlacement (siteId : String)
  | missingPlacement (siteId : String)
  | offTarget (siteId : String) (deviationNm toleranceNm : Int64)
  | outOfBounds (siteId : String) (placed : PointNm)
  | overlap (first second : String)
  | orientationMismatch (siteId : String)
  deriving DecidableEq, Repr

structure PlacementReport where
  violations : List PlacementViolation
  placedCount : Nat
  deriving DecidableEq, Repr

def PlacementReport.isOk (report : PlacementReport) : Bool := report.violations.isEmpty

/-- The corners of the rectangle that a placement occupies; `none` for a record
without a known footprint. -/
def placedRect (record : PlacementRecord) (layout : InterposerLayout) :
    Option (PointNm × PointNm) :=
  (layout.dieSpec record.chipletId).map fun spec =>
    (record.placed, ⟨record.placed.x + spec.widthNm, record.placed.y + spec.heightNm⟩)

def SticksOut (layout : InterposerLayout) (lo hi : PointNm) : Prop :=
  lo.x < 0 ∨ lo.y < 0 ∨ layout.extentNm.1 < hi.x ∨ layout.extentNm.2 < hi.y

instance (layout : InterposerLayout) (lo hi : PointNm) : Decidable (SticksOut layout lo hi) :=
  inferInstanceAs (Decidable (_ ∨ _))

def Overlaps (a b : PointNm × PointNm) : Prop :=
  a.1.x < b.2.x ∧ b.1.x < a.2.x ∧ a.1.y < b.2.y ∧ b.1.y < a.2.y

instance (a b : PointNm × PointNm) : Decidable (Overlaps a b) :=
  inferInstanceAs (Decidable (_ ∧ _))

def checkRecord (layout : InterposerLayout) (toleranceNm : Int64) (record : PlacementRecord)
    (site : SiteSpec) : List PlacementViolation :=
  let deviation := record.placed.manhattanDistance record.nominal
  (if record.orientation ≠ site.orientation then [.orientationMismatch record.siteId] else []) ++
  (if toleranceNm < deviation then [.offTarget record.siteId deviation toleranceNm] else []) ++
  match layout.dieSpec record.chipletId with
  | none => []
  | some spec =>
      if SticksOut layout record.placed
          ⟨record.placed.x + spec.widthNm, record.placed.y + spec.heightNm⟩ then
        [.outOfBounds record.siteId record.placed]
      else []

/-- The checks of all records in turn, with the sites seen so far. -/
def checkRecords (layout : InterposerLayout) (toleranceNm : Int64) :
    List String → List PlacementRecord → List PlacementViolation × List String
  | seen, [] => ([], seen)
  | seen, record :: records =>
      let (violations, seen) :=
        match layout.site record.siteId with
        | none => ([.unknownSite record.siteId], seen)
        | some site =>
            -- of several records for a site only the first is checked
            if record.siteId ∈ seen then ([.duplicatePlacement record.siteId], seen)
            else (checkRecord layout toleranceNm record site, record.siteId :: seen)
      let (rest, seen) := checkRecords layout toleranceNm seen records
      (violations ++ rest, seen)

def missingSites (layout : InterposerLayout) (seen : List String) : List PlacementViolation :=
  layout.sites.flatMap fun site =>
    if site.siteId ∈ seen then [] else [.missingPlacement site.siteId]

def overlapsWith (layout : InterposerLayout) (a : PlacementRecord)
    (records : List PlacementRecord) :
    List PlacementViolation :=
  match placedRect a layout with
  | none => []
  | some aRect =>
      records.flatMap fun b =>
        match placedRect b layout with
        | none => []
        | some bRect => if Overlaps aRect bRect then [.overlap a.siteId b.siteId] else []

def overlaps (layout : InterposerLayout) : List PlacementRecord → List PlacementViolation
  | [] => []
  | a :: records => overlapsWith layout a records ++ overlaps layout records

/-- Verify placement records against the reference layout. -/
def verifyPlacements (records : List PlacementRecord) (layout : InterposerLayout)
    (toleranceNm : Int64) : PlacementReport :=
  let (violations, seen) := checkRecords layout toleranceNm [] records
  { violations := violations ++ missingSites layout seen ++ overlaps layout records
    placedCount := records.length }

/-! ## Records and those in front of them -/

/-- What is found wrong with a record behind some others. -/
def judge (layout : InterposerLayout) (toleranceNm : Int64)
    (entry : List PlacementRecord × PlacementRecord) : List PlacementViolation :=
  match layout.site entry.2.siteId with
  | none => [.unknownSite entry.2.siteId]
  | some site =>
      if entry.2.siteId ∈ entry.1.map (·.siteId) then [.duplicatePlacement entry.2.siteId]
      else checkRecord layout toleranceNm entry.2 site

/-- The sites seen are those of the layout that the records in front are for. -/
def Seen (layout : InterposerLayout) (seen : List String) (earlier : List PlacementRecord) : Prop :=
  ∀ siteId, siteId ∈ seen ↔
    (layout.site siteId).isSome = true ∧ siteId ∈ earlier.map (·.siteId)

section

variable {layout : InterposerLayout} {toleranceNm : Int64} {seen : List String}
  {earlier records : List PlacementRecord} {record : PlacementRecord}

theorem seen_nil : Seen layout [] [] := by simp [Seen]

/-- A record for an unknown site changes nothing in what was seen. -/
theorem Seen.unknown (hseen : Seen layout seen earlier)
    (hsite : layout.site record.siteId = none) : Seen layout seen (earlier ++ [record]) := by
  intro siteId
  rw [hseen siteId, List.map_append, List.mem_append]
  apply and_congr_right
  intro hknown
  have hne : siteId ≠ record.siteId := by
    rintro rfl
    rw [hsite] at hknown
    cases hknown
  simp [hne]

/-- A second record for a site changes nothing in what was seen. -/
theorem Seen.duplicate (hseen : Seen layout seen earlier) (hmem : record.siteId ∈ seen) :
    Seen layout seen (earlier ++ [record]) := by
  intro siteId
  rw [hseen siteId, List.map_append, List.mem_append]
  apply and_congr_right
  intro _
  have hearlier := ((hseen record.siteId).mp hmem).2
  constructor
  · exact Or.inl
  · intro hcase
    rcases hcase with hfront | hlast
    · exact hfront
    · rw [List.map_singleton, List.mem_singleton] at hlast
      rwa [hlast]

/-- The first record for a site of the layout is seen from then on. -/
theorem Seen.first (hseen : Seen layout seen earlier)
    (hsite : (layout.site record.siteId).isSome = true) :
    Seen layout (record.siteId :: seen) (earlier ++ [record]) := by
  intro siteId
  rw [List.mem_cons, hseen siteId, List.map_append, List.mem_append, List.map_singleton,
    List.mem_singleton]
  constructor
  · intro hcase
    rcases hcase with rfl | ⟨hknown, hfront⟩
    · exact ⟨hsite, .inr rfl⟩
    · exact ⟨hknown, .inl hfront⟩
  · intro hcase
    obtain ⟨hknown, hfront | hlast⟩ := hcase
    · exact .inr ⟨hknown, hfront⟩
    · exact .inl hlast

theorem judge_cons (entry : List PlacementRecord × PlacementRecord) :
    judge layout toleranceNm (earlier ++ record :: entry.1, entry.2) =
      judge layout toleranceNm (earlier ++ [record] ++ entry.1, entry.2) := by
  rw [List.append_assoc]
  rfl

/-- The traversal of the records judges each by those in front of it. -/
theorem checkRecords_spec (hseen : Seen layout seen earlier) :
    (checkRecords layout toleranceNm seen records).1 =
        (withEarlier records).flatMap (fun entry =>
          judge layout toleranceNm (earlier ++ entry.1, entry.2)) ∧
      Seen layout (checkRecords layout toleranceNm seen records).2 (earlier ++ records) := by
  induction records generalizing seen earlier with
  | nil =>
      rw [List.append_nil]
      exact ⟨rfl, hseen⟩
  | cons record records ih =>
      have hnext : earlier ++ record :: records = earlier ++ [record] ++ records := by simp
      rw [withEarlier_cons, List.flatMap_cons, List.flatMap_map, List.append_nil, hnext]
      simp only [judge_cons]
      cases hsite : layout.site record.siteId with
      | none =>
          obtain ⟨hfst, hsnd⟩ := ih (hseen.unknown hsite)
          simp only [checkRecords, hsite, judge] at hfst hsnd ⊢
          exact ⟨congrArg _ hfst, hsnd⟩
      | some site =>
          by_cases hmem : record.siteId ∈ seen
          · obtain ⟨hfst, hsnd⟩ := ih (hseen.duplicate hmem)
            have hearlier := ((hseen record.siteId).mp hmem).2
            simp only [checkRecords, hsite, judge, if_pos hmem, if_pos hearlier] at hfst hsnd ⊢
            exact ⟨congrArg _ hfst, hsnd⟩
          · obtain ⟨hfst, hsnd⟩ := ih (hseen.first (Option.isSome_of_eq_some hsite))
            have hearlier : record.siteId ∉ earlier.map (·.siteId) := by
              intro hfront
              exact hmem ((hseen record.siteId).mpr ⟨Option.isSome_of_eq_some hsite, hfront⟩)
            simp only [checkRecords, hsite, judge, if_neg hmem, if_neg hearlier] at hfst hsnd ⊢
            exact ⟨congrArg _ hfst, hsnd⟩

/-- The violations of a verification: those of the records, then the missing sites, then
the overlaps. -/
theorem violations_eq (layout : InterposerLayout) (toleranceNm : Int64)
    (records : List PlacementRecord) :
    ∃ seen, Seen layout seen records ∧
      (verifyPlacements records layout toleranceNm).violations =
        (withEarlier records).flatMap (judge layout toleranceNm) ++ missingSites layout seen ++
          overlaps layout records := by
  obtain ⟨hfst, hsnd⟩ := @checkRecords_spec layout toleranceNm [] [] records seen_nil
  have hviolations : (verifyPlacements records layout toleranceNm).violations =
      (checkRecords layout toleranceNm [] records).1 ++
        missingSites layout (checkRecords layout toleranceNm [] records).2 ++
        overlaps layout records := rfl
  rw [hfst] at hviolations
  exact ⟨_, hsnd, hviolations⟩

/-- A site of the layout was seen exactly if some record is for it. -/
theorem Seen.mem_iff (hseen : Seen layout seen records) {site : SiteSpec}
    (hsite : site ∈ layout.sites) : site.siteId ∈ seen ↔ site.siteId ∈ records.map (·.siteId) := by
  rw [hseen]
  apply and_iff_right
  exact List.find?_isSome.mpr ⟨site, hsite, beq_self_eq_true _⟩

end

/-! ## What the verification checks -/

/-- The records pass every check that is made. -/
structure Checked (records : List PlacementRecord) (layout : InterposerLayout)
    (toleranceNm : Int64) : Prop where
  known : ∀ record ∈ records, ∃ site, layout.site record.siteId = some site
  distinct : (records.map (·.siteId)).Nodup
  placed : ∀ site ∈ layout.sites, ∃ record ∈ records, record.siteId = site.siteId
  oriented : ∀ record ∈ records, ∀ site, layout.site record.siteId = some site →
    record.orientation = site.orientation
  onTarget : ∀ record ∈ records,
    ¬ toleranceNm < record.placed.manhattanDistance record.nominal
  inBounds : ∀ record ∈ records, ∀ lo hi, placedRect record layout = some (lo, hi) →
    ¬ SticksOut layout lo hi
  apart : records.Pairwise fun a b => ∀ aRect bRect,
    placedRect a layout = some aRect → placedRect b layout = some bRect → ¬ Overlaps aRect bRect

section

variable {layout : InterposerLayout} {toleranceNm : Int64}

/-- A record has nothing wrong with it if it is turned and placed as it should be and its footprint
stays inside. -/
theorem checkRecord_eq_nil {record : PlacementRecord} {site : SiteSpec} :
    checkRecord layout toleranceNm record site = [] ↔
      record.orientation = site.orientation ∧
        ¬ toleranceNm < record.placed.manhattanDistance record.nominal ∧
        ∀ lo hi, placedRect record layout = some (lo, hi) → ¬ SticksOut layout lo hi := by
  unfold checkRecord placedRect
  cases layout.dieSpec record.chipletId <;> simp

/-- Nothing is found at a record exactly if it is the first one for a known site and passes its
checks. -/
theorem judge_eq_nil_iff {entry : List PlacementRecord × PlacementRecord} :
    judge layout toleranceNm entry = [] ↔
      entry.2.siteId ∉ entry.1.map (·.siteId) ∧
        ∃ site, layout.site entry.2.siteId = some site ∧
          checkRecord layout toleranceNm entry.2 site = [] := by
  unfold judge
  cases layout.site entry.2.siteId with
  | none => simp
  | some site =>
      dsimp only
      by_cases hmem : entry.2.siteId ∈ entry.1.map (·.siteId)
      · rw [if_pos hmem]
        simp [hmem]
      · rw [if_neg hmem]
        simp [hmem]

/-- The records that pass in turn: their sites are known and distinct, and the checks at
the sites succeed. -/
theorem judged_eq_nil_iff {records : List PlacementRecord} :
    (withEarlier records).flatMap (judge layout toleranceNm) = [] ↔
      (records.map (·.siteId)).Nodup ∧ ∀ record ∈ records,
        ∃ site, layout.site record.siteId = some site ∧
          checkRecord layout toleranceNm record site = [] := by
  have hrecords := @forall_mem_withEarlier PlacementRecord (fun record =>
    ∃ site, layout.site record.siteId = some site ∧
      checkRecord layout toleranceNm record site = []) records
  rw [List.flatMap_eq_nil_iff, nodup_iff_forall_withEarlier, withEarlier_map, List.forall_mem_map,
    ← hrecords]
  simp only [judge_eq_nil_iff]
  exact forall₂_and

/-- No site is missing exactly if all were seen. -/
theorem missingSites_eq_nil {seen : List String} :
    missingSites layout seen = [] ↔ ∀ site ∈ layout.sites, site.siteId ∈ seen := by
  simp [missingSites, List.flatMap_eq_nil_iff]

theorem overlapsWith_eq_nil {a : PlacementRecord} {records : List PlacementRecord} :
    overlapsWith layout a records = [] ↔ ∀ b ∈ records, ∀ aRect bRect,
      placedRect a layout = some aRect → placedRect b layout = some bRect →
        ¬ Overlaps aRect bRect := by
  unfold overlapsWith
  cases placedRect a layout with
  | none => simp
  | some aRect =>
      simp only [List.flatMap_eq_nil_iff, Option.some.injEq]
      apply forall₂_congr
      intro b _
      cases placedRect b layout <;> simp

/-- Nothing overlaps exactly if no two records in their order do. -/
theorem overlaps_eq_nil {records : List PlacementRecord} :
    overlaps layout records = [] ↔ records.Pairwise fun a b => ∀ aRect bRect,
      placedRect a layout = some aRect → placedRect b layout = some bRect →
        ¬ Overlaps aRect bRect := by
  induction records with
  | nil => simp [overlaps]
  | cons a records ih =>
      rw [overlaps, List.append_eq_nil_iff, overlapsWith_eq_nil, ih, List.pairwise_cons]

/-- The verification succeeds exactly if every check does. -/
theorem isOk_iff {records : List PlacementRecord} :
    (verifyPlacements records layout toleranceNm).isOk = true ↔
      Checked records layout toleranceNm := by
  obtain ⟨seen, hseen, hviolations⟩ := violations_eq layout toleranceNm records
  rw [PlacementReport.isOk, List.isEmpty_iff, hviolations, List.append_eq_nil_iff,
    List.append_eq_nil_iff, judged_eq_nil_iff, missingSites_eq_nil, overlaps_eq_nil]
  constructor
  · intro h
    obtain ⟨⟨⟨hdistinct, hrecords⟩, hsites⟩, hapart⟩ := h
    have hpass : ∀ record ∈ records, ∃ site, layout.site record.siteId = some site ∧ _ :=
      fun record hrecord => (hrecords record hrecord).imp fun site hsite =>
        ⟨hsite.1, checkRecord_eq_nil.mp hsite.2⟩
    refine ⟨fun record hrecord => (hpass record hrecord).imp fun site hsite => hsite.1, hdistinct,
      fun site hsite => ?_, fun record hrecord site hsite => ?_, fun record hrecord => ?_,
      fun record hrecord => ?_, hapart⟩
    · exact List.mem_map.mp ((hseen.mem_iff hsite).mp (hsites site hsite))
    · obtain ⟨site', hsite', horiented, -⟩ := hpass record hrecord
      rw [hsite] at hsite'
      cases hsite'
      exact horiented
    · obtain ⟨-, -, -, htarget, -⟩ := hpass record hrecord
      exact htarget
    · obtain ⟨-, -, -, -, hbounds⟩ := hpass record hrecord
      exact hbounds
  · intro hchecked
    refine ⟨⟨⟨hchecked.distinct, fun record hrecord => ?_⟩, fun site hsite => ?_⟩, hchecked.apart⟩
    · obtain ⟨site, hsite⟩ := hchecked.known record hrecord
      exact ⟨site, hsite, checkRecord_eq_nil.mpr ⟨hchecked.oriented record hrecord site hsite,
        hchecked.onTarget record hrecord, hchecked.inBounds record hrecord⟩⟩
    · exact (hseen.mem_iff hsite).mpr (List.mem_map.mpr (hchecked.placed site hsite))

end

end Assembly
