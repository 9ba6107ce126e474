import Mathlib

/-! # Half-open boxes

Axis-aligned boxes of a plane over a linear order, without their upper edges,
and the comparisons of corners that tell whether two of them share a point and
whether one lies within another.
-/

namespace Geometry

variable {α : Type*}

/-- A box between two corners. -/
structure Box (α : Type*) where
  lo : α × α
  hi : α × α

namespace Box

/-- The points of a box; the upper edges are not part of it. -/
def points [Preorder α] (box : Box α) : Set (α × α) :=
  Set.Ico box.lo.1 box.hi.1 ×ˢ Set.Ico box.lo.2 box.hi.2

def Within [Preorder α] (inner outer : Box α) : Prop :=
  (outer.lo.1 ≤ inner.lo.1 ∧ inner.hi.1 ≤ outer.hi.1) ∧
    (outer.lo.2 ≤ inner.lo.2 ∧ inner.hi.2 ≤ outer.hi.2)

/-- The corners of two boxes interleave on both axes. -/
def Interleaved [Preorder α] (a b : Box α) : Prop :=
  (a.lo.1 < b.hi.1 ∧ b.lo.1 < a.hi.1) ∧ (a.lo.2 < b.hi.2 ∧ b.lo.2 < a.hi.2)

instance [Preorder α] [DecidableLE α] (inner outer : Box α) : Decidable (inner.Within outer) :=
  inferInstanceAs (Decidable (_ ∧ _))

instance [Preorder α] [DecidableLT α] (a b : Box α) : Decidable (a.Interleaved b) :=
  inferInstanceAs (Decidable (_ ∧ _))

/-- Boxes with a point in common interleave. -/
theorem interleaved_of_mem [Preorder α] {a b : Box α} {point : α × α} (ha : point ∈ a.points)
    (hb : point ∈ b.points) : a.Interleaved b := by
  obtain ⟨⟨hax, hax'⟩, hay, hay'⟩ := ha
  obtain ⟨⟨hbx, hbx'⟩, hby, hby'⟩ := hb
  exact ⟨⟨hax.trans_lt hbx', hbx.trans_lt hax'⟩, hay.trans_lt hby', hby.trans_lt hay'⟩

/-- Boxes whose corners do not interleave share no point. -/
theorem disjoint_of_not_interleaved [Preorder α] {a b : Box α} (h : ¬ a.Interleaved b) :
    Disjoint a.points b.points :=
  Set.disjoint_left.mpr fun _ ha hb => h (interleaved_of_mem ha hb)

/-- Interleaving corners interleave in larger boxes too. -/
theorem Interleaved.mono [Preorder α] {a b a' b' : Box α} (h : a.Interleaved b)
    (ha : a.Within a') (hb : b.Within b') : a'.Interleaved b' := by
  obtain ⟨⟨hx, hx'⟩, hy, hy'⟩ := h
  obtain ⟨⟨halox, hahix⟩, haloy, hahiy⟩ := ha
  obtain ⟨⟨hblox, hbhix⟩, hbloy, hbhiy⟩ := hb
  exact ⟨⟨halox.trans_lt (hx.trans_le hbhix), hblox.trans_lt (hx'.trans_le hahix)⟩,
    haloy.trans_lt (hy.trans_le hbhiy), hbloy.trans_lt (hy'.trans_le hahiy)⟩

/-- A box within a box within a third is within the third. -/
theorem Within.trans [Preorder α] {a b c : Box α} (h : a.Within b) (h' : b.Within c) :
    a.Within c :=
  ⟨⟨h'.1.1.trans h.1.1, h.1.2.trans h'.1.2⟩, h'.2.1.trans h.2.1, h.2.2.trans h'.2.2⟩

/-! ## Boxes with an inside -/

/-- The points of a box with all its edges. -/
def closed [Preorder α] (box : Box α) : Set (α × α) :=
  Set.Icc box.lo.1 box.hi.1 ×ˢ Set.Icc box.lo.2 box.hi.2

/-- The box has an inside. -/
def Proper [Preorder α] (box : Box α) : Prop := box.lo.1 < box.hi.1 ∧ box.lo.2 < box.hi.2

/-- Boxes share a point exactly if their corners interleave. -/
theorem inter_points_nonempty_iff [LinearOrder α] {a b : Box α} (ha : a.Proper) (hb : b.Proper) :
    (a.points ∩ b.points).Nonempty ↔ a.Interleaved b := by
  obtain ⟨hax, hay⟩ := ha
  obtain ⟨hbx, hby⟩ := hb
  simp only [points, Set.prod_inter_prod, Set.prod_nonempty_iff, Set.Ico_inter_Ico,
    Set.nonempty_Ico, max_lt_iff, lt_min_iff, hax, hay, hbx, hby, true_and, and_true, Interleaved]
  exact and_congr and_comm and_comm

/-- Proper boxes have no point in common exactly if they do not interleave. -/
theorem disjoint_points_iff [LinearOrder α] {a b : Box α} (ha : a.Proper) (hb : b.Proper) :
    Disjoint a.points b.points ↔ ¬ a.Interleaved b := by
  rw [← inter_points_nonempty_iff ha hb, Set.not_nonempty_iff_eq_empty,
    Set.disjoint_iff_inter_eq_empty]

/-- A half-open interval lies in a closed one exactly if its bounds do. -/
theorem ico_subset_icc_iff [LinearOrder α] [DenselyOrdered α] {a b c d : α} (hab : a < b) :
    Set.Ico a b ⊆ Set.Icc c d ↔ c ≤ a ∧ b ≤ d := by
  constructor
  · intro hsubset
    have ha := hsubset (Set.left_mem_Ico.mpr hab)
    refine ⟨ha.1, le_of_forall_lt_imp_le_of_dense fun x hx => ?_⟩
    rcases le_or_gt a x with hle | hlt
    · exact (hsubset ⟨hle, hx⟩).2
    · exact hlt.le.trans ha.2
  · intro hbounds x hx
    exact ⟨hbounds.1.trans hx.1, hx.2.le.trans hbounds.2⟩

/-- Where there is a point between any two, the points of a box tell where its corners
are. -/
theorem points_subset_closed_iff [LinearOrder α] [DenselyOrdered α] {inner outer : Box α}
    (hinner : inner.Proper) : inner.points ⊆ outer.closed ↔ inner.Within outer := by
  obtain ⟨hx, hy⟩ := hinner
  rw [points, closed, Set.prod_subset_prod_iff, ico_subset_icc_iff hx, ico_subset_icc_iff hy,
    Set.Ico_eq_empty_iff, Set.Ico_eq_empty_iff, or_iff_left]
  · exact Iff.rfl
  · intro hempty
    exact hempty.elim (· hx) (· hy)

/-! ## Boxes in another order -/

variable {β : Type*}

def map (f : α → β) (box : Box α) : Box β :=
  { lo := (f box.lo.1, f box.lo.2), hi := (f box.hi.1, f box.hi.2) }

section

variable [LinearOrder α] [Preorder β] {f : α → β} (hf : StrictMono f)

include hf

/-- Widening the coordinates changes nothing about which boxes interleave. -/
theorem interleaved_map {a b : Box α} : (a.map f).Interleaved (b.map f) ↔ a.Interleaved b := by
  simp only [Interleaved, map, hf.lt_iff_lt]

/-- Widening the coordinates changes nothing about which boxes lie within which. -/
theorem within_map {a b : Box α} : (a.map f).Within (b.map f) ↔ a.Within b := by
  simp only [Within, map, hf.le_iff_le]

/-- Widening the coordinates keeps the boxes proper. -/
theorem proper_map {a : Box α} : (a.map f).Proper ↔ a.Proper := by
  simp only [Proper, map, hf.lt_iff_lt]

end

end Box

end Geometry
