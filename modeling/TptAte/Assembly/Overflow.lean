import TptAte.Assembly.Exact

/-! # Placement verification and overflow

The verification adds and subtracts coordinates as they come. Built without overflow
checks its arithmetic wraps around; built with them it stops. It says what it should of
the first record of each site exactly if no distance and no corner leaves the range of
64-bit words.
-/

namespace Assembly

open Arith Geometry Keyed

/-! ## The verification with overflow checks -/

def PointNm.manhattanDistanceChecked (point other : PointNm) : Option Int64 :=
  ((checkedSub point.x other.x).bind checkedAbs).bind fun x =>
    ((checkedSub point.y other.y).bind checkedAbs).bind fun y => checkedAdd x y

def upperCornerChecked (record : PlacementRecord) (spec : DieSpec) : Option PointNm :=
  (checkedAdd record.placed.x spec.widthNm).bind fun x =>
    (checkedAdd record.placed.y spec.heightNm).map fun y => ⟨x, y⟩

def placedRectChecked (record : PlacementRecord) (layout : InterposerLayout) :
    Option (Option (PointNm × PointNm)) :=
  match layout.dieSpec record.chipletId with
  | none => some none
  | some spec => (upperCornerChecked record spec).map fun hi => some (record.placed, hi)

def checkBoundsChecked (layout : InterposerLayout) (record : PlacementRecord) :
    Option (List PlacementViolation) :=
  match layout.dieSpec record.chipletId with
  | none => some []
  | some spec => (upperCornerChecked record spec).map fun hi =>
      if SticksOut layout record.placed hi then [.outOfBounds record.siteId record.placed] else []

def checkRecordChecked (layout : InterposerLayout) (toleranceNm : Int64)
    (record : PlacementRecord) (site : SiteSpec) : Option (List PlacementViolation) :=
  (record.placed.manhattanDistanceChecked record.nominal).bind fun deviation =>
    (checkBoundsChecked layout record).map fun bounds =>
      (if record.orientation ≠ site.orientation then [.orientationMismatch record.siteId]
        else []) ++
      (if toleranceNm < deviation then [.offTarget record.siteId deviation toleranceNm]
        else []) ++
      bounds

/-- What is found at one record, and the sites seen after it. -/
def visitChecked (layout : InterposerLayout) (toleranceNm : Int64) (seen : List String)
    (record : PlacementRecord) : Option (List PlacementViolation × List String) :=
  match layout.site record.siteId with
  | none => some ([.unknownSite record.siteId], seen)
  | some site =>
      if record.siteId ∈ seen then some ([.duplicatePlacement record.siteId], seen)
      else (checkRecordChecked layout toleranceNm record site).map (·, record.siteId :: seen)

def checkRecordsChecked (layout : InterposerLayout) (toleranceNm : Int64) :
    List String → List PlacementRecord → Option (List PlacementViolation × List String)
  | seen, [] => some ([], seen)
  | seen, record :: records =>
      (visitChecked layout toleranceNm seen record).bind fun (violations, seen) =>
        (checkRecordsChecked layout toleranceNm seen records).map fun (rest, seen) =>
          (violations ++ rest, seen)

def overlapsWithChecked (layout : InterposerLayout) (a : PlacementRecord)
    (records : List PlacementRecord) : Option (List PlacementViolation) :=
  (placedRectChecked a layout).bind fun
    | none => some []
    | some aRect => records |> flatMapChecked fun b =>
        (placedRectChecked b layout).map fun
          | none => []
          | some bRect => if Overlaps aRect bRect then [.overlap a.siteId b.siteId] else []

def overlapsChecked (layout : InterposerLayout) :
    List PlacementRecord → Option (List PlacementViolation)
  | [] => some []
  | a :: records => (overlapsWithChecked layout a records).bind fun found =>
      (overlapsChecked layout records).map (found ++ ·)

/-- Verify placement records, or stop where a sum, a difference or an absolute value
overflows. -/
def verifyPlacementsChecked (records : List PlacementRecord) (layout : InterposerLayout)
    (toleranceNm : Int64) : Option PlacementReport :=
  (checkRecordsChecked layout toleranceNm [] records).bind fun (violations, seen) =>
    (overlapsChecked layout records).map fun overlaps =>
      { violations := violations ++ missingSites layout seen ++ overlaps
        placedCount := records.length }

/-! ## When nothing overflows -/

def CornerFits (layout : InterposerLayout) (record : PlacementRecord) : Prop :=
  ∀ box, footprint record layout = some box → Fits box.hi.1 ∧ Fits box.hi.2

/-- The distance of a record from where it should be, and its upper corner, are
representable. -/
def RecordFits (layout : InterposerLayout) (record : PlacementRecord) : Prop :=
  record.placed.exactDistance record.nominal < 2 ^ 63 ∧ CornerFits layout record

/-- The distances that are checked and the corners of the footprints are representable. -/
structure Representable (records : List PlacementRecord) (layout : InterposerLayout) : Prop where
  distances : ∀ entry ∈ withEarlier records, IsFirst layout entry →
    entry.2.placed.exactDistance entry.2.nominal < 2 ^ 63
  corners : NoOverflow records layout

section

variable {layout : InterposerLayout} {toleranceNm : Int64}

theorem exactDistance_nonneg (point other : PointNm) : 0 ≤ point.exactDistance other :=
  add_nonneg (abs_nonneg _) (abs_nonneg _)

/-- A Manhattan distance bounds the difference on each axis. -/
theorem abs_lt_of_exactDistance_lt {point other : PointNm} {bound : ℤ}
    (h : point.exactDistance other < bound) :
    |point.x.toInt - other.x.toInt| < bound ∧ |point.y.toInt - other.y.toInt| < bound :=
  ⟨lt_of_le_of_lt (le_add_of_nonneg_right (abs_nonneg _)) h,
    lt_of_le_of_lt (le_add_of_nonneg_left (abs_nonneg _)) h⟩

/-- The distance in wrapping arithmetic is the exact one where that is representable. -/
theorem toInt_manhattanDistance {point other : PointNm}
    (h : point.exactDistance other < 2 ^ 63) :
    (point.manhattanDistance other).toInt = point.exactDistance other := by
  obtain ⟨hx, hy⟩ := abs_lt_of_exactDistance_lt h
  have hnonneg := exactDistance_nonneg point other
  have hsum : point.exactDistance other =
      (point.x - other.x).abs.toInt + (point.y - other.y).abs.toInt := by
    rw [toInt_abs_sub hx, toInt_abs_sub hy]
    rfl
  rw [hsum] at h hnonneg ⊢
  exact toInt_add_of_fits ⟨by omega, h⟩

/-- The distance overflows exactly where it is too large. -/
theorem computes_manhattanDistance (point other : PointNm) :
    Computes (point.exactDistance other < 2 ^ 63) (point.manhattanDistanceChecked other)
      (point.manhattanDistance other) := by
  have hx := computes_abs_sub point.x other.x
  have hy := computes_abs_sub point.y other.y
  apply (hx.bind (hy.bind (computes_checkedAdd _ _))).congr
  constructor
  · intro h
    obtain ⟨hxlt, hylt, hsum⟩ := h
    rw [toInt_abs_sub hxlt, toInt_abs_sub hylt] at hsum
    exact hsum.2
  · intro h
    obtain ⟨hxlt, hylt⟩ := abs_lt_of_exactDistance_lt h
    refine ⟨hxlt, hylt, ?_⟩
    rw [toInt_abs_sub hxlt, toInt_abs_sub hylt]
    exact ⟨le_trans (by decide) (exactDistance_nonneg point other), h⟩

theorem footprint_of_dieSpec {record : PlacementRecord} {spec : DieSpec}
    (hspec : layout.dieSpec record.chipletId = some spec) :
    footprint record layout = some { lo := (record.placed.x.toInt, record.placed.y.toInt)
                                     hi := (record.placed.x.toInt + spec.widthNm.toInt,
                                       record.placed.y.toInt + spec.heightNm.toInt) } := by
  rw [footprint, hspec]
  rfl

/-- A record without a footprint has no corner that could overflow. -/
theorem cornerFits_of_none {record : PlacementRecord}
    (hspec : layout.dieSpec record.chipletId = none) : CornerFits layout record := by
  intro box hbox
  rw [footprint, hspec] at hbox
  cases hbox

/-- The corner of a footprint is computed exactly if it is representable. -/
theorem computes_upperCorner {record : PlacementRecord} {spec : DieSpec}
    (hspec : layout.dieSpec record.chipletId = some spec) :
    Computes (CornerFits layout record) (upperCornerChecked record spec)
      ⟨record.placed.x + spec.widthNm, record.placed.y + spec.heightNm⟩ := by
  have hx := computes_checkedAdd record.placed.x spec.widthNm
  have hy := computes_checkedAdd record.placed.y spec.heightNm
  apply (hx.bind (hy.map fun y => (⟨_, y⟩ : PointNm))).congr
  unfold CornerFits
  rw [footprint_of_dieSpec hspec]
  simp

/-- The rectangle of a record is computed exactly if its corner is representable. -/
theorem computes_placedRect (record : PlacementRecord) :
    Computes (CornerFits layout record) (placedRectChecked record layout)
      (placedRect record layout) := by
  unfold placedRectChecked placedRect
  cases hspec : layout.dieSpec record.chipletId with
  | none => exact Computes.pure (cornerFits_of_none hspec) _
  | some spec => exact (computes_upperCorner hspec).map fun hi => some (record.placed, hi)

/-- The bounds check stops exactly where the corner of the record overflows. -/
theorem computes_checkBounds (record : PlacementRecord) :
    Computes (CornerFits layout record) (checkBoundsChecked layout record)
      (match layout.dieSpec record.chipletId with
        | none => []
        | some spec =>
            if SticksOut layout record.placed
                ⟨record.placed.x + spec.widthNm, record.placed.y + spec.heightNm⟩ then
              [.outOfBounds record.siteId record.placed]
            else []) := by
  unfold checkBoundsChecked
  cases hspec : layout.dieSpec record.chipletId with
  | none => exact Computes.pure (cornerFits_of_none hspec) _
  | some spec => exact (computes_upperCorner hspec).map _

/-- The checks of a record at its site overflow exactly where its distance or its corner
does. -/
theorem computes_checkRecord (record : PlacementRecord) (site : SiteSpec) :
    Computes (RecordFits layout record) (checkRecordChecked layout toleranceNm record site)
      (checkRecord layout toleranceNm record site) := by
  apply (computes_manhattanDistance record.placed record.nominal).bind
  exact (computes_checkBounds record).map _

variable {seen : List String} {earlier records : List PlacementRecord}

/-- A record is the first of its site exactly if its site has not been seen. -/
theorem isFirst_iff_notMem (hseen : Seen layout seen earlier) {record : PlacementRecord}
    (hsite : (layout.site record.siteId).isSome = true) :
    IsFirst layout (earlier, record) ↔ record.siteId ∉ seen := by
  rw [hseen record.siteId]
  simp [IsFirst, hsite]

/-- The scan stops exactly at a first record whose distance or corner overflows. -/
theorem computes_checkRecords (hseen : Seen layout seen earlier) :
    Computes (∀ entry ∈ withEarlier records,
        IsFirst layout (earlier ++ entry.1, entry.2) → RecordFits layout entry.2)
      (checkRecordsChecked layout toleranceNm seen records)
      (checkRecords layout toleranceNm seen records) := by
  -- by induction on the records, with the ids seen so far; only the first record of a site computes
  induction records generalizing seen earlier with
  | nil => exact Computes.pure (by simp [withEarlier]) _
  | cons record records ih =>
      have hcond : (∀ entry ∈ withEarlier (record :: records),
            IsFirst layout (earlier ++ entry.1, entry.2) → RecordFits layout entry.2) ↔
          (IsFirst layout (earlier, record) → RecordFits layout record) ∧
          ∀ entry ∈ withEarlier records,
            IsFirst layout (earlier ++ [record] ++ entry.1, entry.2) →
              RecordFits layout entry.2 := by
        rw [withEarlier_cons, List.forall_mem_cons, List.forall_mem_map, List.append_nil]
        simp only [List.append_assoc, List.singleton_append]
      refine Computes.congr ?_ hcond.symm
      unfold checkRecordsChecked checkRecords visitChecked
      cases hsite : layout.site record.siteId with
      | none =>
          have hhead : IsFirst layout (earlier, record) → RecordFits layout record := by
            intro hfirst
            rw [IsFirst, hsite] at hfirst
            cases hfirst.1
          exact (Computes.pure hhead _).bind ((ih (hseen.unknown hsite)).map _)
      | some site =>
          have hisSome := Option.isSome_of_eq_some hsite
          have hfirst := isFirst_iff_notMem hseen hisSome
          -- a duplicate is reported without a coordinate being computed
          by_cases hmem : record.siteId ∈ seen
          · have hhead : IsFirst layout (earlier, record) → RecordFits layout record := by
              intro h
              exact absurd hmem (hfirst.mp h)
            simp only [if_pos hmem]
            exact (Computes.pure hhead _).bind ((ih (hseen.duplicate hmem)).map _)
          · have hcheck := @computes_checkRecord layout toleranceNm record site
            have hvisit := (hcheck.map fun violations => (violations, record.siteId :: seen)).congr
              (imp_iff_right (hfirst.mpr hmem)).symm
            simp only [if_neg hmem]
            exact hvisit.bind ((ih (hseen.first hisSome)).map _)

/-- A record is compared with the others only if it has a footprint itself. -/
theorem computes_overlapsWith (a : PlacementRecord) :
    Computes (CornerFits layout a ∧
        ((placedRect a layout).isSome = true → ∀ b ∈ records, CornerFits layout b))
      (overlapsWithChecked layout a records) (overlapsWith layout a records) := by
  apply (computes_placedRect a).bind
  unfold overlapsWith
  cases placedRect a layout with
  | none => exact Computes.pure (by simp) _
  | some aRect =>
      apply (computes_flatMap (fun b => (computes_placedRect b).map _) records).congr
      simp

/-- The overlap check stops exactly if the corner of some record overflows. -/
theorem computes_overlaps :
    Computes (∀ record ∈ records, CornerFits layout record) (overlapsChecked layout records)
      (overlaps layout records) := by
  induction records with
  | nil => exact Computes.pure (by simp) _
  | cons a records ih =>
      apply ((computes_overlapsWith a).bind (ih.map _)).congr
      rw [List.forall_mem_cons]
      constructor
      · intro h
        exact ⟨h.1.1, h.2⟩
      · intro h
        exact ⟨⟨h.1, fun _ => h.2⟩, h.2⟩

/-- The verification goes through exactly where the distances and corners it computes
are representable, and then gives what it gives without overflow checks. -/
theorem computes_verifyPlacements (records : List PlacementRecord) (layout : InterposerLayout)
    (toleranceNm : Int64) :
    Computes (Representable records layout) (verifyPlacementsChecked records layout toleranceNm)
      (verifyPlacements records layout toleranceNm) := by
  have hrecords := @computes_checkRecords layout toleranceNm [] [] records seen_nil
  apply (hrecords.bind (computes_overlaps.map _)).congr
  constructor
  · intro h
    exact ⟨fun entry hentry hfirst => (h.1 entry hentry hfirst).1, h.2⟩
  · intro h
    refine ⟨fun entry hentry hfirst => ⟨h.distances entry hentry hfirst, ?_⟩, h.corners⟩
    exact h.corners entry.2 (mem_of_mem_withEarlier hentry)

end

/-! ## What is reported -/

/-- The first record of each site is reported where it is too far from where it should
be, and where it is not within the interposer. -/
structure Reported (records : List PlacementRecord) (layout : InterposerLayout)
    (toleranceNm : Int64) : Prop where
  offTarget : ∀ entry ∈ withEarlier records, IsFirst layout entry →
    toleranceNm.toInt < entry.2.placed.exactDistance entry.2.nominal →
      ∃ deviation, .offTarget entry.2.siteId deviation toleranceNm ∈
        (verifyPlacements records layout toleranceNm).violations
  outOfBounds : ∀ entry ∈ withEarlier records, IsFirst layout entry →
    ∀ box, footprint entry.2 layout = some box → ¬ box.Within (extent layout) →
      .outOfBounds entry.2.siteId entry.2.placed ∈
        (verifyPlacements records layout toleranceNm).violations

/-- Overflow neither hides what is to be reported nor stops a verification that checks
for it. -/
structure OverflowSafe (records : List PlacementRecord) (layout : InterposerLayout)
    (toleranceNm : Int64) : Prop where
  reported : Reported records layout toleranceNm
  goesThrough : (verifyPlacementsChecked records layout toleranceNm).isSome = true

/-- A footprint whose upper corner wraps around the range of 64-bit words. -/
def wrapped (box : Box ℤ) : Box ℤ :=
  { lo := box.lo, hi := (box.hi.1.bmod (2 ^ 64), box.hi.2.bmod (2 ^ 64)) }

section

variable {layout : InterposerLayout} {toleranceNm : Int64} {records : List PlacementRecord}
  {entry : List PlacementRecord × PlacementRecord}

/-- A record is found off target at the wrapped distance from its own nominal position. -/
theorem offTarget_mem_checkRecord {record : PlacementRecord} {site : SiteSpec} {siteId : String}
    {deviation : Int64} :
    .offTarget siteId deviation toleranceNm ∈ checkRecord layout toleranceNm record site ↔
      toleranceNm < record.placed.manhattanDistance record.nominal ∧
        siteId = record.siteId ∧ deviation = record.placed.manhattanDistance record.nominal := by
  unfold checkRecord
  cases layout.dieSpec record.chipletId <;> simp

/-- Only the first record of a site is found off target. -/
theorem offTarget_mem_judge {siteId : String} {deviation : Int64} :
    .offTarget siteId deviation toleranceNm ∈ judge layout toleranceNm entry ↔
      IsFirst layout entry ∧ toleranceNm < entry.2.placed.manhattanDistance entry.2.nominal ∧
        siteId = entry.2.siteId ∧
        deviation = entry.2.placed.manhattanDistance entry.2.nominal := by
  unfold judge IsFirst
  cases hsite : layout.site entry.2.siteId with
  | none => simp
  | some site =>
      dsimp only
      by_cases hmem : entry.2.siteId ∈ entry.1.map (·.siteId)
      · rw [if_pos hmem]
        simp [hmem]
      · rw [if_neg hmem, offTarget_mem_checkRecord]
        simp [hmem]

/-- The first record of a site is the one that is reported off its target. -/
theorem offTarget_mem_iff (hentry : entry ∈ withEarlier records) (hfirst : IsFirst layout entry) :
    (∃ deviation, .offTarget entry.2.siteId deviation toleranceNm ∈
        (verifyPlacements records layout toleranceNm).violations) ↔
      toleranceNm < entry.2.placed.manhattanDistance entry.2.nominal := by
  constructor
  · intro h
    obtain ⟨deviation, hmem⟩ := h
    rw [mem_violations_iff _ _ _ (by simp)] at hmem
    simp only [reduceCtorEq, and_false, exists_false, or_false] at hmem
    obtain ⟨entry', hentry', hjudge⟩ := hmem
    obtain ⟨hfirst', hlt, hsite, -⟩ := offTarget_mem_judge.mp hjudge
    rwa [eq_of_first hentry hentry' hfirst.2 hfirst'.2 hsite]
  · intro hlt
    refine ⟨entry.2.placed.manhattanDistance entry.2.nominal, ?_⟩
    rw [mem_violations_iff _ _ _ (by simp)]
    exact .inl ⟨entry, hentry, offTarget_mem_judge.mpr ⟨hfirst, hlt, rfl, rfl⟩⟩

theorem outOfBounds?_eq_some_iff {violation : PlacementViolation} {siteId : String}
    {placed : PointNm} :
    outOfBounds? violation = some (siteId, placed) ↔ violation = .outOfBounds siteId placed := by
  cases violation <;> simp [outOfBounds?]

/-- The first record of a site is the one that is reported out of bounds. -/
theorem outOfBounds_mem_iff (hentry : entry ∈ withEarlier records)
    (hfirst : IsFirst layout entry) :
    .outOfBounds entry.2.siteId entry.2.placed ∈
        (verifyPlacements records layout toleranceNm).violations ↔
      Protrudes layout entry.2 := by
  have hpick : .outOfBounds entry.2.siteId entry.2.placed ∈
        (verifyPlacements records layout toleranceNm).violations ↔
      (entry.2.siteId, entry.2.placed) ∈
        (verifyPlacements records layout toleranceNm).violations.filterMap outOfBounds? := by
    simp [List.mem_filterMap, outOfBounds?_eq_some_iff]
  rw [hpick, violations_outOfBounds, List.mem_map]
  constructor
  · intro h
    obtain ⟨entry', hmem, hsite⟩ := h
    simp only [List.mem_filter, decide_eq_true_eq] at hmem
    obtain ⟨hentry', hfirst', hprotrudes⟩ := hmem
    rwa [eq_of_first hentry hentry' hfirst.2 hfirst'.2 (congrArg Prod.fst hsite).symm]
  · intro hprotrudes
    refine ⟨entry, ?_, rfl⟩
    simp only [List.mem_filter, decide_eq_true_eq]
    exact ⟨hentry, hfirst, hprotrudes⟩

/-- The corners that the code compares are the footprint with its upper corner wrapped
around. -/
theorem exactBox_placedRect {record : PlacementRecord} :
    (placedRect record layout).map exactBox = (footprint record layout).map wrapped := by
  unfold placedRect footprint
  cases layout.dieSpec record.chipletId with
  | none => rfl
  | some spec => simp [exactBox, wrapped, Int64.toInt_add]

/-- A footprint sticks out exactly if it does with its upper corner wrapped around. -/
theorem protrudes_iff_wrapped {record : PlacementRecord} :
    Protrudes layout record ↔
      ∃ box, footprint record layout = some box ∧ ¬ (wrapped box).Within (extent layout) := by
  have hmap := @exactBox_placedRect layout record
  unfold Protrudes
  cases hrect : placedRect record layout with
  | none =>
      rw [hrect, Option.map_none, eq_comm, Option.map_eq_none_iff] at hmap
      simp [hmap]
  | some rect =>
      rw [hrect, Option.map_some, eq_comm, Option.map_eq_some_iff] at hmap
      obtain ⟨box, hbox, hwrapped⟩ := hmap
      simp [hbox, hwrapped, within_exactBox_iff]

/-- Each absolute difference wraps around on its own, and then their sum does. -/
theorem toInt_manhattanDistance_eq (point other : PointNm) :
    (point.manhattanDistance other).toInt =
      (circular (point.x.toInt - other.x.toInt) +
        circular (point.y.toInt - other.y.toInt)).bmod (2 ^ 64) := by
  unfold PointNm.manhattanDistance
  rw [Int64.toInt_add, toInt_abs, toInt_abs, Int64.toInt_sub, Int64.toInt_sub,
    abs_bmod (abs_sub_lt _ _), abs_bmod (abs_sub_lt _ _), Int.bmod_add_bmod, Int.add_bmod_bmod]

/-- Without overflow checks a deviation is found to be above the tolerance exactly if the
distance around the range of words is, and is representable. -/
theorem lt_manhattanDistance_iff {point other : PointNm} (htolerance : 0 ≤ toleranceNm) :
    toleranceNm < point.manhattanDistance other ↔
      toleranceNm.toInt < circular (point.x.toInt - other.x.toInt) +
          circular (point.y.toInt - other.y.toInt) ∧
        circular (point.x.toInt - other.x.toInt) +
          circular (point.y.toInt - other.y.toInt) < 2 ^ 63 := by
  rw [Int64.lt_iff_toInt_lt, toInt_manhattanDistance_eq]
  apply lt_bmod_add_iff
  · rwa [Int64.le_iff_toInt_le, Int64.toInt_zero] at htolerance
  · exact circular_range (abs_sub_lt _ _)
  · exact circular_range (abs_sub_lt _ _)

end

/-! ## What overflow hides -/

/-- What is to be reported of a record shows in spite of overflow: a distance above the
tolerance is above it around the range of words too and representable, and a footprint
that is not within the interposer does not wrap around into it. -/
def Shows (layout : InterposerLayout) (toleranceNm : Int64) (record : PlacementRecord) : Prop :=
  (toleranceNm.toInt < record.placed.exactDistance record.nominal →
    toleranceNm.toInt < circular (record.placed.x.toInt - record.nominal.x.toInt) +
        circular (record.placed.y.toInt - record.nominal.y.toInt) ∧
      circular (record.placed.x.toInt - record.nominal.x.toInt) +
        circular (record.placed.y.toInt - record.nominal.y.toInt) < 2 ^ 63) ∧
  ∀ box, footprint record layout = some box → ¬ box.Within (extent layout) →
    ¬ (wrapped box).Within (extent layout)

section

variable {records : List PlacementRecord} {layout : InterposerLayout} {toleranceNm : Int64}

/-- Everything is reported exactly if the wrapped distances and corners of the first records show
it. -/
theorem reported_iff (htolerance : 0 ≤ toleranceNm) :
    Reported records layout toleranceNm ↔
      ∀ entry ∈ withEarlier records, IsFirst layout entry → Shows layout toleranceNm entry.2 := by
  constructor
  · intro h entry hentry hfirst
    constructor
    · intro hfar
      rw [← lt_manhattanDistance_iff htolerance, ← offTarget_mem_iff hentry hfirst]
      exact h.offTarget entry hentry hfirst hfar
    · intro box hbox hout
      have hmem := h.outOfBounds entry hentry hfirst box hbox hout
      rw [outOfBounds_mem_iff hentry hfirst, protrudes_iff_wrapped] at hmem
      obtain ⟨box', hbox', hwrapped⟩ := hmem
      rw [hbox] at hbox'
      cases hbox'
      exact hwrapped
  · intro h
    constructor
    · intro entry hentry hfirst hfar
      rw [offTarget_mem_iff hentry hfirst, lt_manhattanDistance_iff htolerance]
      exact (h entry hentry hfirst).1 hfar
    · intro entry hentry hfirst box hbox hout
      rw [outOfBounds_mem_iff hentry hfirst, protrudes_iff_wrapped]
      exact ⟨box, hbox, (h entry hentry hfirst).2 box hbox hout⟩

/-- Without overflow everything that is to be reported is. -/
theorem reported_of_representable (h : Representable records layout) :
    Reported records layout toleranceNm where
  offTarget entry hentry hfirst hfar := by
    rw [offTarget_mem_iff hentry hfirst, Int64.lt_iff_toInt_lt,
      toInt_manhattanDistance (h.distances entry hentry hfirst)]
    exact hfar
  outOfBounds entry hentry hfirst box hbox hout := by
    obtain ⟨corners, hcorners, rfl⟩ :=
      exists_placedRect h.corners (mem_of_mem_withEarlier hentry) hbox
    rw [outOfBounds_mem_iff hentry hfirst]
    exact ⟨corners, hcorners, not_not.mp (mt within_exactBox_iff.mpr hout)⟩

/-- Overflow never matters exactly if the distances and corners are representable; what it
hides is told record by record. -/
theorem overflowSafe_iff (records : List PlacementRecord) (layout : InterposerLayout)
    (toleranceNm : Int64) (htolerance : 0 ≤ toleranceNm) :
    (OverflowSafe records layout toleranceNm ↔ Representable records layout) ∧
      (Reported records layout toleranceNm ↔
        ∀ entry ∈ withEarlier records, IsFirst layout entry →
          Shows layout toleranceNm entry.2) := by
  have hcomputes := computes_verifyPlacements records layout toleranceNm
  refine ⟨⟨fun h => ?_, fun h => ?_⟩, reported_iff htolerance⟩
  · exact hcomputes.isSome_iff.mp h.goesThrough
  · exact ⟨reported_of_representable h, hcomputes.isSome_iff.mpr h⟩

end

/-- A core at the far end of the range from where it should be. -/
def farCore : PlacementRecord :=
  { siteId := "s_core", chipletId := "core", technique := .chipletPickPlace,
    nominal := ⟨Int64.minValue, 0⟩, placed := ⟨Int64.maxValue, 0⟩, orientation := .r0 }

/-- The two conditions at a core near the greatest coordinate. -/
theorem overflowSafe_iff_farCore :
    (OverflowSafe [farCore] coreLayout 50 ↔ Representable [farCore] coreLayout) ∧
      (Reported [farCore] coreLayout 50 ↔
        ∀ entry ∈ withEarlier [farCore], IsFirst coreLayout entry →
          Shows coreLayout 50 entry.2) :=
  overflowSafe_iff _ _ _ (by decide)

/-- The verification finds nothing wrong with a core that is almost `2 ^ 64` nanometres
away and off the interposer. With overflow checks it stops there. -/
theorem not_overflowSafe_farCore :
    (verifyPlacements [farCore] coreLayout 50).isOk = true ∧
      verifyPlacementsChecked [farCore] coreLayout 50 = none ∧
      (0 : Int64) ≤ 50 ∧ ¬ OverflowSafe [farCore] coreLayout 50 := by
  have hfirst : IsFirst coreLayout ([], farCore) := by
    constructor <;> decide
  have hnone : (verifyPlacements [farCore] coreLayout 50).violations = [] := by decide +kernel
  refine ⟨by decide +kernel, by decide +kernel, by decide, ?_⟩
  intro hsafe
  obtain ⟨deviation, hmem⟩ :=
    hsafe.reported.offTarget ([], farCore) List.mem_cons_self hfirst (by decide)
  rw [hnone] at hmem
  cases hmem

end Assembly
