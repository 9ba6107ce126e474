import TptAte.Assembly.Overflow
import TptAte.Assembly.Unmatched

/-! # Runs that validate

The plan of a layout places a die at each of its sites. The equipment's jitter moves each
die within a window, so a die covers points of a larger box, which the jitter sweeps. All
runs validate exactly if the swept boxes lie on the interposer and apart from one another.
-/

namespace Assembly

open Arith Geometry Secs Wire Duplex

/-! ## Plans and what jitter makes of them -/

/-- The plan that places a die at each site of a layout. -/
def planFor (layout : InterposerLayout) : PlacementPlan where
  commands := layout.sites.map fun site =>
    { siteId := site.siteId
      chipletId := site.chipletId
      target := site.position
      orientation := site.orientation }

/-- The record of a site whose die was placed with an offset. -/
def recordFor (technique : AssemblyTechnique) (offset : Nat → PointNm → PointNm)
    (entry : SiteSpec × Nat) : PlacementRecord where
  siteId := entry.1.siteId
  chipletId := entry.1.chipletId
  technique
  nominal := entry.1.position
  placed := reportedAt entry.1.position (offset entry.2 entry.1.position)
  orientation := entry.1.orientation

/-- A layout whose commands and reports can be sent: ids that fit into an item, positions that
fit into an unsigned four-byte item with any jitter, and dies with an area. -/
structure Addressable (layout : InterposerLayout) : Prop where
  siteIds : ∀ site ∈ layout.sites, (asBytes site.siteId).length ≤ maxLength
  x : ∀ site ∈ layout.sites, 0 ≤ site.position.x.toInt ∧ site.position.x.toInt + 15 < 2 ^ 32
  y : ∀ site ∈ layout.sites, 0 ≤ site.position.y.toInt ∧ site.position.y.toInt + 15 < 2 ^ 32
  width : ∀ spec ∈ layout.dies, 0 < spec.widthNm.toInt ∧ spec.widthNm.toInt < 2 ^ 62
  height : ∀ spec ∈ layout.dies, 0 < spec.heightNm.toInt ∧ spec.heightNm.toInt < 2 ^ 62

/-- The box that the jitter sweeps with the die of a site; a die that is placed beyond the lower
edges is reported on them. -/
def swept (layout : InterposerLayout) (site : SiteSpec) : Option (Box ℤ) :=
  (layout.dieSpec site.chipletId).map fun spec =>
    { lo := (max 0 (site.position.x.toInt - 15), max 0 (site.position.y.toInt - 15))
      hi := (site.position.x.toInt + 15 + spec.widthNm.toInt,
        site.position.y.toInt + 15 + spec.heightNm.toInt) }

/-- The sites have ids of their own, and the jitter sweeps boxes that lie on the interposer and
share no point. -/
structure Clear (layout : InterposerLayout) : Prop where
  distinct : (layout.sites.map (·.siteId)).Nodup
  inside : ∀ site ∈ layout.sites, ∀ box, swept layout site = some box → box.Within (extent layout)
  apart : layout.sites.Pairwise fun a b => ∀ aBox bBox, swept layout a = some aBox →
    swept layout b = some bBox → Disjoint aBox.points bBox.points

/-! ## Coordinates -/

/-- A coordinate as the host gets it, if it is below the range of an unsigned item. -/
theorem toInt_receivedCoordinate {value : Int64} (hvalue : value.toInt < 2 ^ 32) :
    (receivedCoordinate value).toInt = max 0 value.toInt := by
  rcases le_or_gt 0 value.toInt with hnonneg | hneg
  · rw [(receivedCoordinate_eq_iff value).mpr ⟨hnonneg, hvalue⟩, max_eq_right hnonneg]
  · have hle : value ≤ 0 := Int64.le_iff_toInt_le.mpr hneg.le
    have hmax : max value 0 = 0 := if_pos hle
    rw [receivedCoordinate, AssemblyEquipment.sentCoordinate, hmax, max_eq_left hneg.le]
    rfl

/-- A sum with a jitter does not overflow. -/
theorem toInt_received_add {value offset : Int64}
    (hvalue : 0 ≤ value.toInt ∧ value.toInt + 15 < 2 ^ 32)
    (hoffset : -15 ≤ offset.toInt ∧ offset.toInt ≤ 15) :
    (receivedCoordinate (value + offset)).toInt = max 0 (value.toInt + offset.toInt) := by
  have hsum : (value + offset).toInt = value.toInt + offset.toInt :=
    toInt_add_of_fits ⟨by omega, by omega⟩
  rw [toInt_receivedCoordinate (by omega), hsum]

/-- No jitter takes a position of an addressable layout out of the range of a word. -/
theorem inRange_of_addressable {layout : InterposerLayout} (hlayout : Addressable layout)
    {site : SiteSpec} (hsite : site ∈ layout.sites) : InRange site.position := by
  have hx := hlayout.x site hsite
  have hy := hlayout.y site hsite
  exact ⟨by omega, by omega, by omega, by omega⟩

/-- Two dies can be moved so that they interleave on an axis if the intervals that they sweep
interleave. -/
theorem exists_offsets {a b width width' : ℤ} (ha : 0 ≤ a) (hb : 0 ≤ b) (hwidth : 0 < width)
    (hwidth' : 0 < width') (hab : max 0 (a - 15) < b + 15 + width')
    (hba : max 0 (b - 15) < a + 15 + width) :
    ∃ da db, (-15 ≤ da ∧ da ≤ 15) ∧ (-15 ≤ db ∧ db ≤ 15) ∧
      max 0 (a + da) < max 0 (b + db) + width' ∧ max 0 (b + db) < max 0 (a + da) + width := by
  rcases le_or_gt b a with hle | hlt
  · by_cases hnear : a - b ≤ 30
    -- both are moved to the same point, or towards one another
    · exact ⟨max (a - 15) b - a, max (a - 15) b - b, by omega, by omega, by omega, by omega⟩
    · exact ⟨-15, 15, by omega, by omega, by omega, by omega⟩
  · by_cases hnear : b - a ≤ 30
    · exact ⟨max (b - 15) a - a, max (b - 15) a - b, by omega, by omega, by omega, by omega⟩
    · exact ⟨15, -15, by omega, by omega, by omega, by omega⟩

/-- The box that the jitter sweeps has an inside. -/
theorem proper_swept {layout : InterposerLayout} (hlayout : Addressable layout) {site : SiteSpec}
    (hsite : site ∈ layout.sites) {box : Box ℤ} (hbox : swept layout site = some box) :
    box.Proper := by
  obtain ⟨spec, hspec, rfl⟩ := Option.map_eq_some_iff.mp hbox
  have hx := hlayout.x _ hsite
  have hy := hlayout.y _ hsite
  have hwidth := hlayout.width spec (List.mem_of_find?_eq_some hspec)
  have hheight := hlayout.height spec (List.mem_of_find?_eq_some hspec)
  exact ⟨by dsimp only; omega, by dsimp only; omega⟩

/-- Each site has a record. -/
theorem siteIds_recordFor (technique : AssemblyTechnique) (offset : Nat → PointNm → PointNm)
    (layout : InterposerLayout) :
    (layout.sites.zipIdx.map (recordFor technique offset)).map (·.siteId) =
      layout.sites.map (·.siteId) := by
  conv_rhs => rw [← List.zipIdx_map_fst 0 layout.sites]
  rw [List.map_map, List.map_map]
  rfl

/-! ## What the verification finds -/

section Verification

variable {layout : InterposerLayout} (hlayout : Addressable layout) {technique : AssemblyTechnique}
  {offset : Nat → PointNm → PointNm} (hoffset : ∀ index target, Jitter (offset index target))

/-- The box that the record of a site covers. -/
theorem footprint_recordFor (entry : SiteSpec × Nat) :
    footprint (recordFor technique offset entry) layout =
      (layout.dieSpec entry.1.chipletId).map fun spec =>
        { lo := ((recordFor technique offset entry).placed.x.toInt,
            (recordFor technique offset entry).placed.y.toInt)
          hi := ((recordFor technique offset entry).placed.x.toInt + spec.widthNm.toInt,
            (recordFor technique offset entry).placed.y.toInt + spec.heightNm.toInt) } := rfl

include hlayout hoffset

/-- Where the record of a site says that its die is. -/
theorem placed_recordFor {entry : SiteSpec × Nat} (hsite : entry.1 ∈ layout.sites) :
    (recordFor technique offset entry).placed.x.toInt = max 0 (entry.1.position.x.toInt +
        (offset entry.2 entry.1.position).x.toInt) ∧
      (recordFor technique offset entry).placed.y.toInt = max 0 (entry.1.position.y.toInt +
        (offset entry.2 entry.1.position).y.toInt) := by
  obtain ⟨hxlow, hxhigh, hylow, hyhigh⟩ := hoffset entry.2 entry.1.position
  exact ⟨toInt_received_add (hlayout.x _ hsite) ⟨hxlow, hxhigh⟩,
    toInt_received_add (hlayout.y _ hsite) ⟨hylow, hyhigh⟩⟩

/-- The jitter keeps the box of a record within the box that it sweeps. -/
theorem within_swept {entry : SiteSpec × Nat} (hsite : entry.1 ∈ layout.sites) {box : Box ℤ}
    (hbox : footprint (recordFor technique offset entry) layout = some box) :
    ∃ box', swept layout entry.1 = some box' ∧ box.Within box' := by
  obtain ⟨spec, hspec, rfl⟩ :=
    Option.map_eq_some_iff.mp ((footprint_recordFor entry).symm.trans hbox)
  obtain ⟨hx, hy⟩ := @placed_recordFor _ hlayout technique _ hoffset _ hsite
  obtain ⟨hxlow, hxhigh, hylow, hyhigh⟩ := hoffset entry.2 entry.1.position
  have hpositionx := hlayout.x _ hsite
  have hpositiony := hlayout.y _ hsite
  refine ⟨_, Option.map_eq_some_iff.mpr ⟨spec, hspec, rfl⟩, ?_⟩
  rw [hx, hy]
  exact ⟨⟨by dsimp only; omega, by dsimp only; omega⟩, by dsimp only; omega, by dsimp only; omega⟩

/-- The footprints of the reported positions do not overflow. -/
theorem noOverflow_recordFor : NoOverflow (layout.sites.zipIdx.map (recordFor technique offset))
    layout := by
  rw [NoOverflow, List.forall_mem_map]
  intro entry hentry box hbox
  have hsite : entry.1 ∈ layout.sites := List.fst_mem_of_mem_zipIdx hentry
  obtain ⟨spec, hspec, rfl⟩ :=
    Option.map_eq_some_iff.mp ((footprint_recordFor entry).symm.trans hbox)
  obtain ⟨hx, hy⟩ := @placed_recordFor _ hlayout technique _ hoffset _ hsite
  obtain ⟨hxlow, hxhigh, hylow, hyhigh⟩ := hoffset entry.2 entry.1.position
  have hpositionx := hlayout.x _ hsite
  have hpositiony := hlayout.y _ hsite
  have hwidth := hlayout.width spec (List.mem_of_find?_eq_some hspec)
  have hheight := hlayout.height spec (List.mem_of_find?_eq_some hspec)
  rw [hx, hy]
  exact ⟨⟨by dsimp only; omega, by dsimp only; omega⟩, by dsimp only; omega, by dsimp only; omega⟩

/-- A record is at most the jitter of both axes off its target. -/
theorem onTarget_recordFor {toleranceNm : Int64} (htolerance : 30 ≤ toleranceNm.toInt)
    {entry : SiteSpec × Nat} (hsite : entry.1 ∈ layout.sites) :
    ¬ toleranceNm < (recordFor technique offset entry).placed.manhattanDistance
      (recordFor technique offset entry).nominal := by
  obtain ⟨hx, hy⟩ := @placed_recordFor _ hlayout technique _ hoffset _ hsite
  obtain ⟨hxlow, hxhigh, hylow, hyhigh⟩ := hoffset entry.2 entry.1.position
  have hpositionx := hlayout.x _ hsite
  have hpositiony := hlayout.y _ hsite
  have hdistance : (recordFor technique offset entry).placed.exactDistance
      (recordFor technique offset entry).nominal ≤ 30 := by
    have hxnear : |(recordFor technique offset entry).placed.x.toInt -
        entry.1.position.x.toInt| ≤ 15 := by
      rw [hx, abs_le]
      exact ⟨by omega, by omega⟩
    have hynear : |(recordFor technique offset entry).placed.y.toInt -
        entry.1.position.y.toInt| ≤ 15 := by
      rw [hy, abs_le]
      exact ⟨by omega, by omega⟩
    exact add_le_add hxnear hynear
  rw [Int64.lt_iff_toInt_lt, toInt_manhattanDistance (by omega)]
  omega

/-- What is left of the checks where the records are those of the sites. -/
theorem checked_recordFor_iff {toleranceNm : Int64} (htolerance : 30 ≤ toleranceNm.toInt) :
    Checked (layout.sites.zipIdx.map (recordFor technique offset)) layout toleranceNm ↔
      (layout.sites.map (·.siteId)).Nodup ∧
        (∀ entry ∈ layout.sites.zipIdx, ∀ box,
          footprint (recordFor technique offset entry) layout = some box →
            box.Within (extent layout)) ∧
        layout.sites.zipIdx.Pairwise fun a b => ∀ aBox bBox,
          footprint (recordFor technique offset a) layout = some aBox →
            footprint (recordFor technique offset b) layout = some bBox →
              ¬ aBox.Interleaved bBox := by
  have hoverflow := @noOverflow_recordFor _ hlayout technique _ hoffset
  have hids := siteIds_recordFor technique offset layout
  have hmem {entry : SiteSpec × Nat} (hentry : entry ∈ layout.sites.zipIdx) :
      recordFor technique offset entry ∈ layout.sites.zipIdx.map (recordFor technique offset) :=
    List.mem_map_of_mem hentry
  constructor
  -- each check that passes says what it checks of the exact footprints
  · intro hchecked
    refine ⟨hids ▸ hchecked.distinct, fun entry hentry box hbox => ?_, ?_⟩
    · obtain ⟨corners, hcorners, rfl⟩ := exists_placedRect hoverflow (hmem hentry) hbox
      exact within_exactBox_iff.mpr (hchecked.inBounds _ (hmem hentry) _ _ hcorners)
    · apply (List.pairwise_map.mp hchecked.apart).imp_of_mem
      intro a b ha hb hapart aBox bBox haBox hbBox
      obtain ⟨aCorners, haCorners, rfl⟩ := exists_placedRect hoverflow (hmem ha) haBox
      obtain ⟨bCorners, hbCorners, rfl⟩ := exists_placedRect hoverflow (hmem hb) hbBox
      rw [interleaved_exactBox]
      exact hapart _ _ haCorners hbCorners
  -- the checks on ids, techniques and targets pass of themselves: each record was made for its site
  · rintro ⟨hdistinct, hinside, hapart⟩
    refine ⟨?_, hids ▸ hdistinct, fun site hsite => ?_, ?_, ?_, ?_, ?_⟩
    · rw [List.forall_mem_map]
      intro entry hentry
      exact ⟨_, InterposerLayout.site_of_mem hdistinct (List.fst_mem_of_mem_zipIdx hentry)⟩
    · obtain ⟨record, hrecord, hid⟩ := List.mem_map.mp (hids ▸ List.mem_map_of_mem hsite :
        site.siteId ∈ (layout.sites.zipIdx.map (recordFor technique offset)).map (·.siteId))
      exact ⟨record, hrecord, hid⟩
    · rw [List.forall_mem_map]
      intro entry hentry site hfound
      have hsite := InterposerLayout.site_of_mem hdistinct (List.fst_mem_of_mem_zipIdx hentry)
      cases hsite.symm.trans hfound
      rfl
    · rw [List.forall_mem_map]
      intro entry hentry
      have hsite : entry.1 ∈ layout.sites := List.fst_mem_of_mem_zipIdx hentry
      exact @onTarget_recordFor _ hlayout technique _ hoffset _ htolerance _ hsite
    · rw [List.forall_mem_map]
      intro entry hentry lo hi hcorners
      have hwithin := hinside entry hentry _
        (footprint_of_placedRect hoverflow (hmem hentry) hcorners)
      exact (@within_exactBox_iff layout (lo, hi)).mp hwithin
    · rw [List.pairwise_map]
      apply hapart.imp_of_mem
      intro a b ha hb hapart aRect bRect haRect hbRect
      rw [← interleaved_exactBox]
      exact hapart _ _ (footprint_of_placedRect hoverflow (hmem ha) haRect)
        (footprint_of_placedRect hoverflow (hmem hb) hbRect)

/-- In a clear layout every jitter leaves records that pass all checks. -/
theorem checked_of_clear {toleranceNm : Int64} (htolerance : 30 ≤ toleranceNm.toInt)
    (hclear : Clear layout) :
    Checked (layout.sites.zipIdx.map (recordFor technique offset)) layout toleranceNm := by
  rw [checked_recordFor_iff hlayout hoffset htolerance]
  refine ⟨hclear.distinct, fun entry hentry box hbox => ?_, ?_⟩
  · have hsite : entry.1 ∈ layout.sites := List.fst_mem_of_mem_zipIdx hentry
    obtain ⟨box', hbox', hwithin⟩ := within_swept hlayout hoffset hsite hbox
    exact hwithin.trans (hclear.inside _ hsite _ hbox')
  · have hapart : layout.sites.zipIdx.Pairwise fun a b => ∀ aBox bBox,
        swept layout a.1 = some aBox → swept layout b.1 = some bBox →
          Disjoint aBox.points bBox.points := by
      have hpairs := hclear.apart
      rw [← List.zipIdx_map_fst 0 layout.sites, List.pairwise_map] at hpairs
      exact hpairs
    apply hapart.imp_of_mem
    intro a b ha hb hdisjoint aBox bBox haBox hbBox hinterleaved
    have haSite : a.1 ∈ layout.sites := List.fst_mem_of_mem_zipIdx ha
    have hbSite : b.1 ∈ layout.sites := List.fst_mem_of_mem_zipIdx hb
    obtain ⟨aBox', haBox', haWithin⟩ := within_swept hlayout hoffset haSite haBox
    obtain ⟨bBox', hbBox', hbWithin⟩ := within_swept hlayout hoffset hbSite hbBox
    have hdisjoint' := hdisjoint _ _ haBox' hbBox'
    rw [Box.disjoint_points_iff (proper_swept hlayout haSite haBox')
      (proper_swept hlayout hbSite hbBox')] at hdisjoint'
    exact hdisjoint' (hinterleaved.mono haWithin hbWithin)

end Verification

/-! ## Every jitter -/

section EveryJitter

variable {layout : InterposerLayout} (hlayout : Addressable layout) {technique : AssemblyTechnique}
  {toleranceNm : Int64} (htolerance : 30 ≤ toleranceNm.toInt)

/-- An offset in whole nanometres. -/
def nudge (dx dy : ℤ) : PointNm := ⟨Int64.ofInt dx, Int64.ofInt dy⟩

theorem toInt_ofInt_of_jitter {d : ℤ} (hd : -15 ≤ d ∧ d ≤ 15) : (Int64.ofInt d).toInt = d :=
  Int64.toInt_ofInt_of_le (by omega) (by omega)

theorem jitter_nudge {dx dy : ℤ} (hdx : -15 ≤ dx ∧ dx ≤ 15) (hdy : -15 ≤ dy ∧ dy ≤ 15) :
    Jitter (nudge dx dy) := by
  rw [Jitter, nudge, toInt_ofInt_of_jitter hdx, toInt_ofInt_of_jitter hdy]
  exact ⟨hdx.1, hdx.2, hdy.1, hdy.2⟩

include hlayout

/-- The box that a record covers, from the offset with which its die was placed. -/
theorem footprint_nudge {dx dy : ℤ} (hdx : -15 ≤ dx ∧ dx ≤ 15) (hdy : -15 ≤ dy ∧ dy ≤ 15)
    {offset : Nat → PointNm → PointNm} (hoffset : ∀ index target, Jitter (offset index target))
    {entry : SiteSpec × Nat} (hsite : entry.1 ∈ layout.sites)
    (hentry : offset entry.2 entry.1.position = nudge dx dy) {spec : DieSpec}
    (hspec : layout.dieSpec entry.1.chipletId = some spec) :
    footprint (recordFor technique offset entry) layout = some
      { lo := (max 0 (entry.1.position.x.toInt + dx), max 0 (entry.1.position.y.toInt + dy))
        hi := (max 0 (entry.1.position.x.toInt + dx) + spec.widthNm.toInt,
          max 0 (entry.1.position.y.toInt + dy) + spec.heightNm.toInt) } := by
  obtain ⟨hx, hy⟩ := @placed_recordFor _ hlayout technique _ hoffset _ hsite
  rw [hentry, nudge, toInt_ofInt_of_jitter hdx] at hx
  rw [hentry, nudge, toInt_ofInt_of_jitter hdy] at hy
  rw [footprint_recordFor, hspec, hx, hy]
  rfl

include htolerance

/-- The largest jitter takes a die to the upper edges of the box that it sweeps. -/
theorem inside_of_checked (hchecked : ∀ offset : Nat → PointNm → PointNm,
      (∀ index target, Jitter (offset index target)) →
        Checked (layout.sites.zipIdx.map (recordFor technique offset)) layout toleranceNm)
    {site : SiteSpec} (hsite : site ∈ layout.sites) {box : Box ℤ}
    (hbox : swept layout site = some box) : box.Within (extent layout) := by
  have hlargest : (-15 : ℤ) ≤ 15 ∧ (15 : ℤ) ≤ 15 := by decide
  have hoffset (_ : Nat) (_ : PointNm) : Jitter (nudge 15 15) := jitter_nudge hlargest hlargest
  obtain ⟨spec, hspec, rfl⟩ := Option.map_eq_some_iff.mp hbox
  obtain ⟨i, hi, rfl⟩ := List.getElem_of_mem hsite
  have hentry : (layout.sites[i], i) ∈ layout.sites.zipIdx :=
    List.mk_mem_zipIdx_iff_getElem?.mpr (List.getElem?_eq_getElem hi)
  obtain ⟨-, hinside, -⟩ :=
    (@checked_recordFor_iff _ hlayout technique _ hoffset _ htolerance).mp (hchecked _ hoffset)
  have hbox' := @footprint_nudge _ hlayout technique _ _ hlargest hlargest _ hoffset
    (layout.sites[i], i) hsite rfl _ hspec
  obtain ⟨⟨-, hx⟩, -, hy⟩ := hinside _ hentry _ hbox'
  have hpositionx := hlayout.x _ hsite
  have hpositiony := hlayout.y _ hsite
  dsimp only at hx hy
  rw [max_eq_right (by omega)] at hx hy
  exact ⟨⟨le_max_left _ _, hx⟩, le_max_left _ _, hy⟩

/-- Where the boxes that two dies sweep meet, some jitter makes the dies overlap. -/
theorem not_interleaved_of_checked (hchecked : ∀ offset : Nat → PointNm → PointNm,
      (∀ index target, Jitter (offset index target)) →
        Checked (layout.sites.zipIdx.map (recordFor technique offset)) layout toleranceNm)
    {i j : Nat} (hi : i < layout.sites.length) (hj : j < layout.sites.length) (hlt : i < j)
    {aBox bBox : Box ℤ} (haBox : swept layout layout.sites[i] = some aBox)
    (hbBox : swept layout layout.sites[j] = some bBox) : ¬ aBox.Interleaved bBox := by
  intro hinterleaved
  obtain ⟨aSpec, haSpec, rfl⟩ := Option.map_eq_some_iff.mp haBox
  obtain ⟨bSpec, hbSpec, rfl⟩ := Option.map_eq_some_iff.mp hbBox
  have haSite : layout.sites[i] ∈ layout.sites := List.getElem_mem hi
  have hbSite : layout.sites[j] ∈ layout.sites := List.getElem_mem hj
  have haDie := List.mem_of_find?_eq_some haSpec
  have hbDie := List.mem_of_find?_eq_some hbSpec
  obtain ⟨⟨hx, hx'⟩, hy, hy'⟩ := hinterleaved
  obtain ⟨dax, dbx, hdax, hdbx, hleft, hright⟩ := exists_offsets (hlayout.x _ haSite).1
    (hlayout.x _ hbSite).1 (hlayout.width _ haDie).1 (hlayout.width _ hbDie).1 hx hx'
  obtain ⟨day, dby, hday, hdby, hlower, hupper⟩ := exists_offsets (hlayout.y _ haSite).1
    (hlayout.y _ hbSite).1 (hlayout.height _ haDie).1 (hlayout.height _ hbDie).1 hy hy'
  -- one offset for each of the two dies
  have hoffset (index : Nat) (_ : PointNm) :
      Jitter (if index = i then nudge dax day else nudge dbx dby) := by
    split
    · exact jitter_nudge hdax hday
    · exact jitter_nudge hdbx hdby
  obtain ⟨-, -, hapart⟩ :=
    (@checked_recordFor_iff _ hlayout technique _ hoffset _ htolerance).mp (hchecked _ hoffset)
  have hapart' := List.pairwise_iff_getElem.mp hapart i j (by simpa) (by simpa) hlt
  simp only [List.getElem_zipIdx, Nat.zero_add] at hapart'
  have haBox' := @footprint_nudge _ hlayout technique _ _ hdax hday _ hoffset
    (layout.sites[i], i) haSite (if_pos rfl) _ haSpec
  have hbBox' := @footprint_nudge _ hlayout technique _ _ hdbx hdby _ hoffset
    (layout.sites[j], j) hbSite (if_neg hlt.ne') _ hbSpec
  exact hapart' _ _ haBox' hbBox' ⟨⟨hleft, hright⟩, hlower, hupper⟩

/-- The records of a layout pass every check under every jitter exactly if the layout is clear. -/
theorem checked_iff_clear : (∀ offset : Nat → PointNm → PointNm,
      (∀ index target, Jitter (offset index target)) →
        Checked (layout.sites.zipIdx.map (recordFor technique offset)) layout toleranceNm) ↔
      Clear layout := by
  constructor
  · intro hchecked
    have hnone (_ : Nat) (_ : PointNm) : Jitter (nudge 0 0) :=
      jitter_nudge (by decide) (by decide)
    refine ⟨?_, fun site hsite box hbox => ?_, ?_⟩
    · exact ((@checked_recordFor_iff _ hlayout technique _ hnone _ htolerance).mp
        (hchecked _ hnone)).1
    · exact inside_of_checked hlayout htolerance hchecked hsite hbox
    · rw [List.pairwise_iff_getElem]
      intro i j hi hj hlt aBox bBox haBox hbBox
      rw [Box.disjoint_points_iff (proper_swept hlayout (List.getElem_mem hi) haBox)
        (proper_swept hlayout (List.getElem_mem hj) hbBox)]
      exact not_interleaved_of_checked hlayout htolerance hchecked hi hj hlt haBox hbBox
  · intro hclear offset hoffset
    exact checked_of_clear hlayout hoffset htolerance hclear

end EveryJitter

/-! ## Whole runs -/

section Runs

variable {layout : InterposerLayout} {technique : AssemblyTechnique} {sessionId sessionId' : UInt16}
  {seed : UInt64} {offset : Nat → PointNm → PointNm} {toleranceNm : Int64}

/-- The records of the plan are those of the layout's sites with their offsets. -/
theorem recordsAt_map (technique : AssemblyTechnique) (offset : Nat → PointNm → PointNm)
    (sites : List SiteSpec) (index : Nat) :
    recordsAt technique (fun index target => reportedAt target (offset index target)) index
        (sites.map fun site => ⟨site.siteId, site.chipletId, site.position, site.orientation⟩) =
      (sites.zipIdx index).map (recordFor technique offset) := by
  induction sites generalizing index with
  | nil => rfl
  | cons site sites ih =>
      rw [List.map_cons, recordsAt, List.zipIdx_cons, List.map_cons, ih]
      rfl

/-- In every run over the transport the host gets the records of the sites. -/
theorem delivers_recordFor (hlayout : Addressable layout)
    (hoffset : ∀ index target, Jitter (offset index target)) :
    Comm.Delivers (hostParty technique (planFor layout) sessionId)
      (equipmentParty technique seed offset (planFor layout).commands sessionId')
      (.ok (.ok (layout.sites.zipIdx.map (recordFor technique offset)))) (.ok ()) := by
  have hsites : ∀ command ∈ (planFor layout).commands,
      (asBytes command.siteId).length ≤ maxLength :=
    List.forall_mem_map.mpr hlayout.siteIds
  have htargets : ∀ command ∈ (planFor layout).commands, InRange command.target :=
    List.forall_mem_map.mpr fun site hsite => inRange_of_addressable hlayout hsite
  have hplaces : ∀ entry ∈ (planFor layout).commands.zipIdx,
      (AssemblyEquipment.placedAt entry.1.target (offset entry.2 entry.1.target)).isSome := by
    intro entry hentry
    rw [placedAt_eq (htargets _ (List.fst_mem_of_mem_zipIdx hentry)) (hoffset _ _)]
    rfl
  obtain ⟨after, after', hplaced⟩ := @meets_placeAll
    (Control.new sessionId).advanced.selected.advanced.advanced (Control.new sessionId').selected
    technique seed offset (planFor layout).commands 0 hsites hplaces rfl rfl
  rw [← recordsAt_map]
  apply Program.Meets.delivers
  rw [assemble, AssemblyTechnique.place_eq, executePlan]
  exact (meets_connect _ _ technique seed).bind hplaced

/-- All runs over the transport, under every jitter, end with records that validate, exactly if
the boxes that the jitter sweeps lie on the interposer and apart from one another. -/
theorem validates_iff_clear (hlayout : Addressable layout)
    (htolerance : 30 ≤ toleranceNm.toInt) :
    (∀ offset : Nat → PointNm → PointNm, (∀ index target, Jitter (offset index target)) →
      ∃ records, Comm.Delivers (hostParty technique (planFor layout) sessionId)
          (equipmentParty technique seed offset (planFor layout).commands sessionId')
          (.ok (.ok records)) (.ok ()) ∧
        (verifyPlacements records layout toleranceNm).isOk = true) ↔
      Clear layout := by
  rw [← @checked_iff_clear _ hlayout technique _ htolerance]
  refine forall₂_congr fun offset hoffset => ?_
  have hdelivers := @delivers_recordFor _ technique sessionId sessionId' seed _ hlayout hoffset
  rw [← isOk_iff]
  constructor
  · rintro ⟨records, hrecords, hisOk⟩
    obtain ⟨connection, hreaches, hrest⟩ := hrecords.terminates.exists_still
    have hsame := (hrecords.returns connection ⟨hreaches, hrest⟩).1.symm.trans
      (hdelivers.returns connection ⟨hreaches, hrest⟩).1
    cases hsame
    exact hisOk
  · exact fun hisOk => ⟨_, hdelivers, hisOk⟩

/-- A layout of three chiplets. -/
def interposerLayout : InterposerLayout :=
  { extentNm := (12000, 10000)
    dies := [{ chipletId := "core", widthNm := 2500, heightNm := 2500 },
      { chipletId := "io", widthNm := 1500, heightNm := 3000 },
      { chipletId := "hbm", widthNm := 3000, heightNm := 2000 }]
    sites := [{ siteId := "s_core", chipletId := "core", position := ⟨1000, 4000⟩,
                orientation := .r0 },
      { siteId := "s_io", chipletId := "io", position := ⟨4500, 3500⟩, orientation := .r0 },
      { siteId := "s_hbm", chipletId := "hbm", position := ⟨7500, 4000⟩, orientation := .r0 }] }

/-- The positions and the sides of the three chiplets are a few micrometres. -/
theorem addressable_interposerLayout : Addressable interposerLayout where
  siteIds := by decide
  x := by decide
  y := by decide
  width := by decide
  height := by decide

/-- The three chiplets lie apart from one another, also with their jitter. -/
theorem clear_interposerLayout : Clear interposerLayout := by
  have hinside : ∀ site ∈ interposerLayout.sites, ∀ box ∈ swept interposerLayout site,
      box.Within (extent interposerLayout) := by
    decide
  have happart : interposerLayout.sites.Pairwise fun a b =>
      ∀ aBox ∈ swept interposerLayout a, ∀ bBox ∈ swept interposerLayout b,
        ¬ aBox.Interleaved bBox := by
    decide
  refine ⟨by decide, hinside, happart.imp ?_⟩
  intro a b hab aBox bBox haBox hbBox
  exact Box.disjoint_of_not_interleaved (hab aBox haBox bBox hbBox)

/-- The jitter at its greatest on one axis and at its least on the other. -/
theorem validates_iff_clear_interposerLayout : ∃ records,
    Comm.Delivers (hostParty .flipChip (planFor interposerLayout) 0)
        (equipmentParty .flipChip 0xBEEF (fun _ _ => nudge 15 (-15))
          (planFor interposerLayout).commands 0) (.ok (.ok records)) (.ok ()) ∧
      (verifyPlacements records interposerLayout 60).isOk = true :=
  (@validates_iff_clear _ .flipChip 0 0 0xBEEF 60 addressable_interposerLayout
    (by decide)).mpr clear_interposerLayout _ fun _ _ =>
      jitter_nudge ⟨by decide, by decide⟩ ⟨by decide, by decide⟩

end Runs

end Assembly
