import TptAte.Arith.Checked
import TptAte.Assembly.Verify
import TptAte.Geometry.Box

/-! # Soundness of placement verification

What a verified package should be, in exact geometry over the layout alone, and
when the verification says so truthfully. It compares positions with the nominal
position that a record carries and never reads which chiplet a site is for, so
only records that agree with the layout in both are verified.
-/

namespace Assembly

open Arith Geometry

/-- Manhattan distance without overflow. -/
def PointNm.exactDistance (point other : PointNm) : ℤ :=
  |point.x.toInt - other.x.toInt| + |point.y.toInt - other.y.toInt|

/-- The placed footprint of a record, without overflow. -/
def footprint (record : PlacementRecord) (layout : InterposerLayout) : Option (Box ℤ) :=
  (layout.dieSpec record.chipletId).map fun spec =>
    { lo := (record.placed.x.toInt, record.placed.y.toInt)
      hi := (record.placed.x.toInt + spec.widthNm.toInt,
        record.placed.y.toInt + spec.heightNm.toInt) }

def extent (layout : InterposerLayout) : Box ℤ :=
  { lo := (0, 0), hi := (layout.extentNm.1.toInt, layout.extentNm.2.toInt) }

/-- The records are a correct assembly of the layout. -/
structure Sound (records : List PlacementRecord) (layout : InterposerLayout)
    (toleranceNm : Int64) : Prop where
  placedOnce : ∀ site ∈ layout.sites, (records.map (·.siteId)).count site.siteId = 1
  known : ∀ record ∈ records, ∃ site ∈ layout.sites, site.siteId = record.siteId
  rightChiplet : ∀ record ∈ records, ∀ site ∈ layout.sites, site.siteId = record.siteId →
    record.chipletId = site.chipletId
  oriented : ∀ record ∈ records, ∀ site ∈ layout.sites, site.siteId = record.siteId →
    record.orientation = site.orientation
  onTarget : ∀ record ∈ records, ∀ site ∈ layout.sites, site.siteId = record.siteId →
    record.placed.exactDistance site.position ≤ toleranceNm.toInt
  inside : ∀ record ∈ records, ∃ box, footprint record layout = some box ∧
    box.Within (extent layout)
  apart : records.Pairwise fun a b => ∀ aBox bBox, footprint a layout = some aBox →
    footprint b layout = some bBox → Disjoint aBox.points bBox.points

/-- Each record agrees with the layout where the verification does not look: it
has its site's chiplet and a known footprint, and it is near its site. -/
def Genuine (records : List PlacementRecord) (layout : InterposerLayout) (toleranceNm : Int64) :
    Prop :=
  ∀ record ∈ records, ∀ site, layout.site record.siteId = some site →
    record.chipletId = site.chipletId ∧ (layout.dieSpec record.chipletId).isSome ∧
      record.placed.exactDistance site.position ≤ toleranceNm.toInt

def NoOverflow (records : List PlacementRecord) (layout : InterposerLayout) : Prop :=
  ∀ record ∈ records, ∀ box, footprint record layout = some box →
    (-2 ^ 63 ≤ box.hi.1 ∧ box.hi.1 < 2 ^ 63) ∧ (-2 ^ 63 ≤ box.hi.2 ∧ box.hi.2 < 2 ^ 63)

/-- A pair of corners in exact numbers. -/
def exactBox (corners : PointNm × PointNm) : Box ℤ :=
  { lo := (corners.1.x.toInt, corners.1.y.toInt), hi := (corners.2.x.toInt, corners.2.y.toInt) }

section

variable {records : List PlacementRecord} {layout : InterposerLayout} {toleranceNm : Int64}

/-- Without overflow the code's rectangle is the footprint. -/
theorem exists_placedRect (hoverflow : NoOverflow records layout) {record : PlacementRecord}
    (hrecord : record ∈ records) {box : Box ℤ} (hbox : footprint record layout = some box) :
    ∃ corners, placedRect record layout = some corners ∧ exactBox corners = box := by
  obtain ⟨hx, hy⟩ := hoverflow record hrecord box hbox
  unfold footprint at hbox
  unfold placedRect
  cases hspec : layout.dieSpec record.chipletId with
  | none => simp [hspec] at hbox
  | some spec =>
      rw [hspec] at hbox
      cases hbox
      refine ⟨_, rfl, ?_⟩
      simp only [exactBox, toInt_add_of_fits hx, toInt_add_of_fits hy]

/-- The verification compares corners just as boxes lie within one another. -/
theorem within_exactBox_iff {corners : PointNm × PointNm} :
    (exactBox corners).Within (extent layout) ↔ ¬ SticksOut layout corners.1 corners.2 := by
  simp only [SticksOut, Box.Within, exactBox, extent, Int64.lt_iff_toInt_lt, Int64.toInt_zero,
    not_or, not_lt]
  rw [and_and_and_comm, and_assoc]

/-- The verification's overlap is that of the boxes with the same corners. -/
theorem interleaved_exactBox {a b : PointNm × PointNm} :
    (exactBox a).Interleaved (exactBox b) ↔ Overlaps a b := by
  simp only [Box.Interleaved, exactBox, Overlaps, Int64.lt_iff_toInt_lt]
  exact and_assoc

/-- Records that pass every check and agree with the layout are sound. -/
theorem sound_of_checked (hsites : (layout.sites.map (·.siteId)).Nodup)
    (hoverflow : NoOverflow records layout) (hchecked : Checked records layout toleranceNm)
    (hgenuine : Genuine records layout toleranceNm) : Sound records layout toleranceNm := by
  have hsite : ∀ record ∈ records, ∀ site ∈ layout.sites, site.siteId = record.siteId →
      layout.site record.siteId = some site := fun record _ site hmem hid =>
    hid ▸ InterposerLayout.site_of_mem hsites hmem
  -- the checks find records by their site; with distinct ids that site is the layout's
  refine ⟨fun site hmem => ?_, fun record hrecord => ?_, fun record hrecord site hmem hid => ?_,
    fun record hrecord site hmem hid => ?_, fun record hrecord site hmem hid => ?_,
    fun record hrecord => ?_, ?_⟩
  · obtain ⟨record, hrecord, hid⟩ := hchecked.placed site hmem
    exact List.count_eq_one_of_mem hchecked.distinct (List.mem_map.mpr ⟨record, hrecord, hid⟩)
  · obtain ⟨site, hfound⟩ := hchecked.known record hrecord
    exact ⟨site, InterposerLayout.mem_of_site hfound⟩
  · exact (hgenuine record hrecord site (hsite record hrecord site hmem hid)).1
  · exact hchecked.oriented record hrecord site (hsite record hrecord site hmem hid)
  · exact (hgenuine record hrecord site (hsite record hrecord site hmem hid)).2.2
  · obtain ⟨site, hfound⟩ := hchecked.known record hrecord
    obtain ⟨spec, hspec⟩ := Option.isSome_iff_exists.mp (hgenuine record hrecord site hfound).2.1
    obtain ⟨box, hbox⟩ : ∃ box, footprint record layout = some box :=
      ⟨_, by rw [footprint, hspec]; rfl⟩
    obtain ⟨corners, hcorners, rfl⟩ := exists_placedRect hoverflow hrecord hbox
    exact ⟨_, hbox, within_exactBox_iff.mpr (hchecked.inBounds record hrecord _ _ hcorners)⟩
  · apply hchecked.apart.imp_of_mem
    intro a b ha hb hapart aBox bBox haBox hbBox
    obtain ⟨aCorners, haCorners, rfl⟩ := exists_placedRect hoverflow ha haBox
    obtain ⟨bCorners, hbCorners, rfl⟩ := exists_placedRect hoverflow hb hbBox
    apply Box.disjoint_of_not_interleaved
    intro hinterleaved
    exact hapart _ _ haCorners hbCorners (interleaved_exactBox.mp hinterleaved)

/-- A correct assembly agrees with the layout also where the verification does not look. -/
theorem genuine_of_sound (hsound : Sound records layout toleranceNm) :
    Genuine records layout toleranceNm := by
  intro record hrecord site hfound
  obtain ⟨hmem, hid⟩ := InterposerLayout.mem_of_site hfound
  refine ⟨hsound.rightChiplet record hrecord site hmem hid, ?_,
    hsound.onTarget record hrecord site hmem hid⟩
  obtain ⟨box, hbox, -⟩ := hsound.inside record hrecord
  unfold footprint at hbox
  cases hspec : layout.dieSpec record.chipletId with
  | none => simp [hspec] at hbox
  | some spec => rfl

/-- A good verification means a sound assembly exactly if the records fail a
check or agree with the layout where the verification does not look. -/
theorem sound_of_isOk_iff (hsites : (layout.sites.map (·.siteId)).Nodup)
    (hoverflow : NoOverflow records layout) :
    ((verifyPlacements records layout toleranceNm).isOk = true →
        Sound records layout toleranceNm) ↔
      (Checked records layout toleranceNm → Genuine records layout toleranceNm) := by
  rw [isOk_iff]
  constructor
  · exact fun hsound hchecked => genuine_of_sound (hsound hchecked)
  · exact fun hgenuine hchecked => sound_of_checked hsites hoverflow hchecked (hgenuine hchecked)

end

/-- A layout of one site. -/
def coreLayout : InterposerLayout :=
  { extentNm := (10000, 8000)
    dies := [{ chipletId := "core", widthNm := 2000, heightNm := 2000 }]
    sites := [{ siteId := "s_core", chipletId := "core", position := ⟨1000, 1000⟩,
                orientation := .r0 }] }

/-- A core placed far from its site, where its record says it should be. -/
def strayCore : PlacementRecord :=
  { siteId := "s_core", chipletId := "core", technique := .chipletPickPlace,
    nominal := ⟨5000, 5000⟩, placed := ⟨5000, 5000⟩, orientation := .r0 }

theorem noOverflow_strayCore : NoOverflow [strayCore] coreLayout := by
  intro record hrecord box hbox
  obtain rfl := List.mem_singleton.mp hrecord
  obtain rfl : { lo := (5000, 5000), hi := (7000, 7000) } = box := Option.some.inj hbox
  decide

/-- The verdict on the stray core is right exactly if passing makes its record genuine. -/
theorem sound_of_isOk_iff_strayCore :
    ((verifyPlacements [strayCore] coreLayout 50).isOk = true → Sound [strayCore] coreLayout 50) ↔
      (Checked [strayCore] coreLayout 50 → Genuine [strayCore] coreLayout 50) :=
  sound_of_isOk_iff (by decide) noOverflow_strayCore

/-- Not every good verification means a sound assembly. -/
theorem not_sound_strayCore :
    ¬ ∀ (records : List PlacementRecord) (layout : InterposerLayout) (toleranceNm : Int64),
      (layout.sites.map (·.siteId)).Nodup → NoOverflow records layout →
        (verifyPlacements records layout toleranceNm).isOk = true →
          Sound records layout toleranceNm := by
  intro hall
  have hsound := hall [strayCore] coreLayout 50 (by decide) noOverflow_strayCore (by decide +kernel)
  have htarget := hsound.onTarget strayCore List.mem_cons_self _ List.mem_cons_self rfl
  exact absurd htarget (by decide)

end Assembly
