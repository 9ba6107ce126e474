import TptAte.Assembly.Sound
import TptAte.Assembly.Verdict

/-! # Exactness of the geometry checks

The comparisons of corners against what they stand for: sets of points of the plane. A
placed die covers a half-open rectangle, and the interposer is a closed one. The pairs of
records that are reported to overlap are those whose rectangles share a point, and the
records reported out of bounds are those that are checked and not covered by the
interposer.
-/

namespace Assembly

open Geometry Keyed

/-! ## Rectangles of the plane -/

/-- The points of the plane that a placed record covers. -/
def region (record : PlacementRecord) (layout : InterposerLayout) : Option (Set (ℝ × ℝ)) :=
  (footprint record layout).map fun box => (box.map ((↑) : ℤ → ℝ)).points

def interposer (layout : InterposerLayout) : Set (ℝ × ℝ) :=
  ((extent layout).map ((↑) : ℤ → ℝ)).closed

/-- Two records cover a common point. -/
def Meet (layout : InterposerLayout) (pair : PlacementRecord × PlacementRecord) : Prop :=
  ∃ aRegion ∈ region pair.1 layout, ∃ bRegion ∈ region pair.2 layout,
    (aRegion ∩ bRegion).Nonempty

def LiesOutside (layout : InterposerLayout) (record : PlacementRecord) : Prop :=
  ∃ covered ∈ region record layout, ¬ covered ⊆ interposer layout

/-- A record is the first one for a site of the layout. -/
def IsFirst (layout : InterposerLayout) (entry : List PlacementRecord × PlacementRecord) : Prop :=
  (layout.site entry.2.siteId).isSome = true ∧ entry.2.siteId ∉ entry.1.map (·.siteId)

def ProperDies (layout : InterposerLayout) : Prop :=
  ∀ spec ∈ layout.dies, 0 < spec.widthNm ∧ 0 < spec.heightNm

/-! ## What the code compares -/

/-- Two records with footprints whose corners interleave. -/
def Collide (layout : InterposerLayout) (pair : PlacementRecord × PlacementRecord) : Prop :=
  ∃ aRect ∈ placedRect pair.1 layout, ∃ bRect ∈ placedRect pair.2 layout, Overlaps aRect bRect

/-- A record with a footprint that sticks out of the interposer. -/
def Protrudes (layout : InterposerLayout) (record : PlacementRecord) : Prop :=
  ∃ rect ∈ placedRect record layout, SticksOut layout rect.1 rect.2

section

variable {records : List PlacementRecord} {layout : InterposerLayout}

/-- A die with an area has a footprint with an inside. -/
theorem proper_footprint (hproper : ProperDies layout) {record : PlacementRecord} {box : Box ℤ}
    (hbox : footprint record layout = some box) : box.Proper := by
  obtain ⟨spec, hspec, rfl⟩ := Option.map_eq_some_iff.mp hbox
  obtain ⟨hwidth, hheight⟩ := hproper spec (List.mem_of_find?_eq_some hspec)
  rw [Int64.lt_iff_toInt_lt, Int64.toInt_zero] at hwidth hheight
  exact ⟨lt_add_of_pos_right _ hwidth, lt_add_of_pos_right _ hheight⟩

/-- Without overflow the code has a rectangle for every footprint, and only for those. -/
theorem footprint_of_placedRect (hoverflow : NoOverflow records layout) {record : PlacementRecord}
    (hrecord : record ∈ records) {corners : PointNm × PointNm}
    (hcorners : placedRect record layout = some corners) :
    footprint record layout = some (exactBox corners) := by
  obtain ⟨spec, hspec, -⟩ := Option.map_eq_some_iff.mp hcorners
  have hbox : footprint record layout = some _ := Option.map_eq_some_iff.mpr ⟨spec, hspec, rfl⟩
  obtain ⟨corners', hcorners', heq⟩ := exists_placedRect hoverflow hrecord hbox
  rw [hcorners] at hcorners'
  cases hcorners'
  rw [hbox, heq]

/-- Without overflow the points of a record are those between the corners that the verification
computes. -/
theorem region_of_placedRect (hoverflow : NoOverflow records layout) {record : PlacementRecord}
    (hrecord : record ∈ records) :
    region record layout = (placedRect record layout).map fun corners =>
      ((exactBox corners).map ((↑) : ℤ → ℝ)).points := by
  cases hcorners : placedRect record layout with
  | none =>
      have hspec := Option.map_eq_none_iff.mp hcorners
      rw [region, footprint, hspec]
      rfl
  | some corners =>
      rw [region, footprint_of_placedRect hoverflow hrecord hcorners]
      rfl

variable (hproper : ProperDies layout) (hoverflow : NoOverflow records layout)

include hproper hoverflow

theorem proper_region {record : PlacementRecord} (hrecord : record ∈ records)
    {corners : PointNm × PointNm} (hcorners : placedRect record layout = some corners) :
    ((exactBox corners).map ((↑) : ℤ → ℝ)).Proper := by
  rw [Box.proper_map Int.cast_strictMono]
  exact proper_footprint hproper (footprint_of_placedRect hoverflow hrecord hcorners)

/-- The corners of two records interleave exactly if they cover a common point. -/
theorem collide_iff_meet {pair : PlacementRecord × PlacementRecord} (hfirst : pair.1 ∈ records)
    (hsecond : pair.2 ∈ records) : Collide layout pair ↔ Meet layout pair := by
  unfold Collide Meet
  rw [region_of_placedRect hoverflow hfirst, region_of_placedRect hoverflow hsecond]
  simp only [Option.mem_def, Option.map_eq_some_iff, exists_exists_and_eq_and]
  apply exists_congr
  intro aRect
  apply and_congr_right
  intro ha
  apply exists_congr
  intro bRect
  apply and_congr_right
  intro hb
  rw [Box.inter_points_nonempty_iff (proper_region hproper hoverflow hfirst ha)
    (proper_region hproper hoverflow hsecond hb), Box.interleaved_map Int.cast_strictMono,
    interleaved_exactBox]

/-- A record sticks out exactly if it covers a point off the interposer. -/
theorem protrudes_iff_liesOutside {record : PlacementRecord} (hrecord : record ∈ records) :
    Protrudes layout record ↔ LiesOutside layout record := by
  unfold Protrudes LiesOutside
  rw [region_of_placedRect hoverflow hrecord]
  simp only [Option.mem_def, Option.map_eq_some_iff, exists_exists_and_eq_and]
  apply exists_congr
  intro rect
  apply and_congr_right
  intro hrect
  rw [interposer, Box.points_subset_closed_iff (proper_region hproper hoverflow hrecord hrect),
    Box.within_map Int.cast_strictMono, within_exactBox_iff, not_not]

end

/-! ## What the verification reports -/

def overlap? : PlacementViolation → Option (String × String)
  | .overlap first second => some (first, second)
  | _ => none

def outOfBounds? : PlacementViolation → Option (String × PointNm)
  | .outOfBounds siteId placed => some (siteId, placed)
  | _ => none

section

open scoped Classical

variable {layout : InterposerLayout} {toleranceNm : Int64}

/-- Only a record with a rectangle overlaps another. -/
theorem collide_of_some {a b : PlacementRecord} {aRect bRect : PointNm × PointNm}
    (ha : placedRect a layout = some aRect) (hb : placedRect b layout = some bRect) :
    Collide layout (a, b) ↔ Overlaps aRect bRect := by
  simp [Collide, ha, hb]

/-- The overlaps reported for a record are those of the later records whose corners interleave with
its own. -/
theorem overlapsWith_eq (a : PlacementRecord) (records : List PlacementRecord) :
    (overlapsWith layout a records).filterMap overlap? =
      (records.filter fun b => Collide layout (a, b)).map fun b => (a.siteId, b.siteId) := by
  rw [← flatMap_ite_singleton]
  unfold overlapsWith
  cases ha : placedRect a layout with
  | none =>
      have hnone (b : PlacementRecord) : ¬ Collide layout (a, b) := by simp [Collide, ha]
      simp [hnone]
  | some aRect =>
      dsimp only
      rw [List.filterMap_flatMap]
      congr 1
      funext b
      cases hb : placedRect b layout with
      | none => simp [Collide, hb]
      | some bRect =>
          rw [if_congr (collide_of_some ha hb) rfl rfl]
          by_cases hoverlaps : Overlaps aRect bRect <;> simp [hoverlaps, overlap?]

/-- The overlaps are found pair by pair. -/
theorem overlaps_eq (records : List PlacementRecord) :
    (overlaps layout records).filterMap overlap? =
      ((orderedPairs records).filter (Collide layout ·)).map fun pair =>
        (pair.1.siteId, pair.2.siteId) := by
  induction records with
  | nil => rfl
  | cons a records ih =>
      rw [overlaps, List.filterMap_append, overlapsWith_eq, ih, orderedPairs_cons,
        List.filter_append, List.map_append, List.filter_map, List.map_map]
      rfl

/-- The checks at a site report the record out of bounds if it protrudes. -/
theorem checkRecord_outOfBounds (record : PlacementRecord) (site : SiteSpec) :
    (checkRecord layout toleranceNm record site).filterMap outOfBounds? =
      if Protrudes layout record then [(record.siteId, record.placed)] else [] := by
  unfold checkRecord Protrudes placedRect
  cases layout.dieSpec record.chipletId <;>
    simp [List.filterMap_append, apply_ite (List.filterMap outOfBounds?), List.filterMap_cons,
      outOfBounds?]

/-- A record is found out of bounds exactly if it is the first for its site and sticks out of the
interposer. -/
theorem judge_outOfBounds (entry : List PlacementRecord × PlacementRecord) :
    (judge layout toleranceNm entry).filterMap outOfBounds? =
      if IsFirst layout entry ∧ Protrudes layout entry.2 then
        [(entry.2.siteId, entry.2.placed)]
      else [] := by
  unfold judge IsFirst
  cases hsite : layout.site entry.2.siteId with
  | none => simp [List.filterMap_cons, outOfBounds?]
  | some site =>
      dsimp only
      by_cases hearlier : entry.2.siteId ∈ entry.1.map (·.siteId)
      · rw [if_pos hearlier]
        simp [List.filterMap_cons, outOfBounds?, hearlier]
      · rw [if_neg hearlier, checkRecord_outOfBounds]
        simp [hearlier]

/-- The check of a record at its site finds no overlap. -/
theorem overlap_notMem_judge {entry : List PlacementRecord × PlacementRecord}
    (first second : String) : .overlap first second ∉ judge layout toleranceNm entry := by
  unfold judge
  split
  · simp
  split
  · simp
  · unfold checkRecord
    cases layout.dieSpec entry.2.chipletId <;> simp

/-- Missing sites are no findings of another kind. -/
theorem filterMap_missingSites {α : Type} {pick : PlacementViolation → Option α}
    (hpick : ∀ siteId, pick (.missingPlacement siteId) = none) (seen : List String) :
    (missingSites layout seen).filterMap pick = [] := by
  apply List.filterMap_eq_nil_iff.mpr
  intro violation hmem
  obtain ⟨site, -, -, rfl⟩ := mem_missingSites.mp hmem
  exact hpick site.siteId

/-- The overlaps of a verification come from its last traversal. -/
theorem violations_overlap (layout : InterposerLayout) (toleranceNm : Int64)
    (records : List PlacementRecord) :
    (verifyPlacements records layout toleranceNm).violations.filterMap overlap? =
      (overlaps layout records).filterMap overlap? := by
  obtain ⟨seen, -, hviolations⟩ := violations_eq layout toleranceNm records
  have hjudged : ((withEarlier records).flatMap (judge layout toleranceNm)).filterMap overlap? =
      [] := by
    apply List.filterMap_eq_nil_iff.mpr
    intro violation hmem
    obtain ⟨entry, -, hjudge⟩ := List.mem_flatMap.mp hmem
    cases violation with
    | overlap first second => exact absurd hjudge (overlap_notMem_judge first second)
    | _ => rfl
  rw [hviolations, List.filterMap_append, List.filterMap_append, hjudged,
    filterMap_missingSites (fun _ => rfl), List.nil_append, List.nil_append]

/-- The records out of bounds come from its first traversal. -/
theorem violations_outOfBounds (layout : InterposerLayout) (toleranceNm : Int64)
    (records : List PlacementRecord) :
    (verifyPlacements records layout toleranceNm).violations.filterMap outOfBounds? =
      ((withEarlier records).filter fun entry =>
        IsFirst layout entry ∧ Protrudes layout entry.2).map fun entry =>
          (entry.2.siteId, entry.2.placed) := by
  obtain ⟨seen, -, hviolations⟩ := violations_eq layout toleranceNm records
  have hoverlaps : (overlaps layout records).filterMap outOfBounds? = [] := by
    apply List.filterMap_eq_nil_iff.mpr
    intro violation hmem
    obtain ⟨first, second, rfl⟩ := exists_overlap_of_mem hmem
    rfl
  rw [hviolations, List.filterMap_append, List.filterMap_append, hoverlaps,
    filterMap_missingSites (fun _ => rfl), List.append_nil, List.append_nil,
    List.filterMap_flatMap]
  simp only [judge_outOfBounds]
  exact flatMap_ite_singleton _ _ _

/-- The verification reports the pairs of records that cover a common point, and the
records that are the first for their site and not within the interposer. -/
structure GeometryExact (records : List PlacementRecord) (layout : InterposerLayout)
    (toleranceNm : Int64) : Prop where
  overlaps : (verifyPlacements records layout toleranceNm).violations.filterMap overlap? =
    ((orderedPairs records).filter fun pair => Meet layout pair).map fun pair =>
      (pair.1.siteId, pair.2.siteId)
  outOfBounds : (verifyPlacements records layout toleranceNm).violations.filterMap outOfBounds? =
    ((withEarlier records).filter fun entry =>
      IsFirst layout entry ∧ LiesOutside layout entry.2).map fun entry =>
        (entry.2.siteId, entry.2.placed)

/-- The overlaps and the records out of bounds that are reported are exactly those that the geometry
of the footprints has. -/
theorem geometryExact (records : List PlacementRecord) (layout : InterposerLayout)
    (toleranceNm : Int64) (hproper : ProperDies layout) (hoverflow : NoOverflow records layout) :
    GeometryExact records layout toleranceNm where
  overlaps := by
    rw [violations_overlap, overlaps_eq]
    apply congrArg
    apply List.filter_congr
    intro pair hpair
    obtain ⟨hfirst, hsecond⟩ := mem_of_mem_orderedPairs hpair
    exact decide_eq_decide.mpr (collide_iff_meet hproper hoverflow hfirst hsecond)
  outOfBounds := by
    rw [violations_outOfBounds]
    apply congrArg
    apply List.filter_congr
    intro entry hentry
    apply decide_eq_decide.mpr
    rw [protrudes_iff_liesOutside hproper hoverflow (mem_of_mem_withEarlier hentry)]

end

/-- Both placements are far from the greatest coordinate. -/
theorem noOverflow_ioPlaced :
    NoOverflow [ioPlaced ⟨9, 9⟩, ioPlaced ⟨8, 8⟩] oneSite := by
  intro record hrecord box hbox
  simp only [List.mem_cons, List.not_mem_nil, or_false] at hrecord
  rcases hrecord with rfl | rfl
  · obtain rfl : { lo := (9, 9), hi := (11, 11) } = box := Option.some.inj hbox
    decide
  · obtain rfl : { lo := (8, 8), hi := (10, 10) } = box := Option.some.inj hbox
    decide

/-- A die that sticks out of the interposer and another that it covers in part. -/
theorem geometryExact_ioPlaced :
    GeometryExact [ioPlaced ⟨9, 9⟩, ioPlaced ⟨8, 8⟩] oneSite 5 :=
  geometryExact _ _ _ (by unfold ProperDies; decide) noOverflow_ioPlaced

end Assembly
