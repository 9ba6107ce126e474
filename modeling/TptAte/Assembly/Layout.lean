import Mathlib.Data.List.Basic
import Mathlib.Data.List.Nodup

/-! # Placement reference

The interposer layout that executed placements are verified against: integer
nanometres, positions are bottom-left corners, upper edges are exclusive.
-/

namespace Assembly

structure PointNm where
  x : Int64
  y : Int64
  deriving DecidableEq, Repr

/-- Manhattan distance to another point, in wrapping arithmetic. -/
def PointNm.manhattanDistance (point other : PointNm) : Int64 :=
  (point.x - other.x).abs + (point.y - other.y).abs

inductive Orientation where
  | r0
  | mx
  | my
  | r180
  deriving DecidableEq, Repr

structure DieSpec where
  chipletId : String
  widthNm : Int64
  heightNm : Int64
  deriving DecidableEq, Repr

structure SiteSpec where
  siteId : String
  chipletId : String
  position : PointNm
  orientation : Orientation
  deriving DecidableEq, Repr

structure InterposerLayout where
  extentNm : Int64 × Int64
  dies : List DieSpec
  sites : List SiteSpec
  deriving DecidableEq, Repr

namespace InterposerLayout

def dieSpec (layout : InterposerLayout) (chipletId : String) : Option DieSpec :=
  layout.dies.find? (·.chipletId == chipletId)

def site (layout : InterposerLayout) (siteId : String) : Option SiteSpec :=
  layout.sites.find? (·.siteId == siteId)

/-- The site that is found by its id is one of the layout and has that id. -/
theorem mem_of_site {layout : InterposerLayout} {siteId : String} {site : SiteSpec}
    (hsite : layout.site siteId = some site) : site ∈ layout.sites ∧ site.siteId = siteId :=
  ⟨List.mem_of_find?_eq_some hsite, by simpa using List.find?_some hsite⟩

/-- With distinct ids a site is found by its id. -/
theorem site_of_mem {layout : InterposerLayout} (hsites : (layout.sites.map (·.siteId)).Nodup)
    {site : SiteSpec} (hmem : site ∈ layout.sites) : layout.site site.siteId = some site := by
  cases hfind : layout.site site.siteId with
  | none =>
      have hnone := List.find?_eq_none.mp hfind site hmem
      simp at hnone
  | some other =>
      obtain ⟨hother, hid⟩ := mem_of_site hfind
      rw [List.inj_on_of_nodup_map hsites hother hmem hid]

end InterposerLayout

end Assembly
