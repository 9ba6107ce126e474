import Mathlib.Algebra.BigOperators.Group.List.Lemmas
import Mathlib.Data.UInt
import Mathlib.Tactic.Linarith

/-! # Counters by key

A map of 32-bit counters in which each key is counted as often as it comes. The
counters wrap around, and so do their sums.
-/

namespace Keyed

variable {κ : Type} [DecidableEq κ] [Ord κ] [Std.TransOrd κ] [Std.LawfulEqOrd κ]

omit [DecidableEq κ] [Std.LawfulEqOrd κ] in
/-- Each key of a map is listed once. -/
theorem nodup_toList {υ : Type} (map : Std.ExtTreeMap κ υ) : map.toList.Nodup := by
  apply List.Nodup.of_map Prod.fst
  rw [Std.ExtTreeMap.map_fst_toList_eq_keys]
  exact Std.ExtTreeMap.nodup_keys

/-- Count a key once more. -/
def bump (counts : Std.ExtTreeMap κ UInt32) (key : κ) : Std.ExtTreeMap κ UInt32 :=
  counts.alter key fun count => some (count.getD 0 + 1)

def countAll (keys : List κ) : Std.ExtTreeMap κ UInt32 := keys.foldl bump ∅

/-- A bump counts one more under its own key and leaves the other counts. -/
theorem getElem?_bump (counts : Std.ExtTreeMap κ UInt32) (key key' : κ) :
    (bump counts key)[key']? =
      if key = key' then some (counts[key']?.getD 0 + 1) else counts[key']? := by
  rw [bump, Std.ExtTreeMap.getElem?_alter]
  by_cases h : key = key'
  · subst h
    simp
  · simp [h]

/-- Many bumps add to each key as often as it occurs among them. -/
theorem getElem?_foldl_bump (keys : List κ) (counts : Std.ExtTreeMap κ UInt32) (key : κ) :
    (keys.foldl bump counts)[key]? =
      if key ∈ keys then some (counts[key]?.getD 0 + UInt32.ofNat (keys.count key))
      else counts[key]? := by
  induction keys generalizing counts with
  | nil => simp
  | cons head keys ih =>
      rw [List.foldl_cons, ih, getElem?_bump]
      by_cases hhead : head = key
      · subst hhead
        by_cases hmem : head ∈ keys
        · simp [hmem, UInt32.ofNat_add, add_comm, add_left_comm, add_assoc]
        · simp [hmem, List.count_eq_zero_of_not_mem hmem]
      · have hne : ¬ key = head := fun h => hhead h.symm
        simp [hhead, hne]

/-- Counting from nothing gives each key that occurs its number of occurrences, as 32 bits hold it.
-/
theorem getElem?_countAll (keys : List κ) (key : κ) :
    (countAll keys)[key]? =
      if key ∈ keys then some (UInt32.ofNat (keys.count key)) else none := by
  rw [countAll, getElem?_foldl_bump]
  simp

/-- A counter that is not there counts nothing. -/
theorem getD_countAll (keys : List κ) (key : κ) :
    (countAll keys)[key]?.getD 0 = UInt32.ofNat (keys.count key) := by
  rw [getElem?_countAll]
  split
  next => rfl
  next hmem => rw [List.count_eq_zero_of_not_mem hmem]; rfl

/-- The order in which the keys come does not matter. -/
theorem countAll_eq_of_perm {keys keys' : List κ} (hperm : keys.Perm keys') :
    countAll keys = countAll keys' := by
  apply Std.ExtTreeMap.ext_getElem?
  intro key
  rw [getElem?_countAll, getElem?_countAll, hperm.count_eq]
  simp only [hperm.mem_iff]

/-- Each key that comes is listed once, with its counter. -/
theorem toList_countAll_perm (keys : List κ) :
    (countAll keys).toList.Perm
      (keys.dedup.map fun key => (key, UInt32.ofNat (keys.count key))) := by
  rw [List.perm_ext_iff_of_nodup (nodup_toList _)]
  · rintro ⟨key, count⟩
    rw [Std.ExtTreeMap.mem_toList_iff_getElem?_eq_some, getElem?_countAll]
    simp [eq_comm]
  · apply keys.nodup_dedup.map
    intro key key' h
    exact congrArg Prod.fst h

/-- A sum may be reduced to 32 bits before or after it is taken. -/
theorem ofNat_sum (counts : List Nat) :
    UInt32.ofNat counts.sum = (counts.map UInt32.ofNat).sum := by
  induction counts with
  | nil => rfl
  | cons count counts ih => rw [List.sum_cons, UInt32.ofNat_add, ih, List.map_cons, List.sum_cons]

/-- The counters of the keys with a property add up to the number of such keys. -/
theorem sum_filter_countAll (p : κ → Bool) (keys : List κ) :
    (((countAll keys).toList.filter fun entry => p entry.1).map (·.2)).sum =
      UInt32.ofNat (keys.countP p) := by
  have hperm := (((toList_countAll_perm keys).filter fun entry => p entry.1).map (·.2)).sum_eq
  rw [hperm, List.filter_map, List.map_map, ← List.sum_map_count_dedup_filter_eq_countP, ofNat_sum,
    List.map_map]
  rfl

/-- The same in numbers, as long as no counter wraps around. -/
theorem sum_toNat_filter_countAll (p : κ → Bool) {keys : List κ} (hlength : keys.length < 2 ^ 32) :
    (((countAll keys).toList.filter fun entry => p entry.1).map (·.2.toNat)).sum =
      keys.countP p := by
  have hperm :=
    (((toList_countAll_perm keys).filter fun entry => p entry.1).map (·.2.toNat)).sum_eq
  have hcount (key : κ) : (UInt32.ofNat (keys.count key)).toNat = keys.count key :=
    UInt32.toNat_ofNat_of_lt' (Nat.lt_of_le_of_lt List.count_le_length hlength)
  rw [hperm, List.filter_map, List.map_map, ← List.sum_map_count_dedup_filter_eq_countP]
  congr 1
  apply List.map_congr_left
  intro key _
  exact hcount key

/-- Up to 2^32 keys nothing wraps, and the counts add up to the number of keys. -/
theorem sum_toNat_countAll {keys : List κ} (hlength : keys.length < 2 ^ 32) :
    ((countAll keys).toList.map (·.2.toNat)).sum = keys.length := by
  have hsum := sum_toNat_filter_countAll (fun _ => true) hlength
  rwa [List.filter_true, List.countP_true] at hsum

end Keyed
