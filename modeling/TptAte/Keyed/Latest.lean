import Mathlib.Data.List.Perm.Basic
import Mathlib.Data.List.Nodup
import Mathlib.Data.List.Dedup

/-! # The latest of each key

Elements that carry keys come one after the other, and each takes the place of the
earlier ones of its key. What remains are the latest of their keys; the others are
superseded.
-/

namespace Keyed

variable {α κ : Type} [DecidableEq κ] (key : α → κ)

/-- The elements behind which no other of their key comes. -/
def latest : List α → List α
  | [] => []
  | a :: rest => if key a ∈ rest.map key then latest rest else a :: latest rest

/-- The elements behind which another of their key comes. -/
def superseded : List α → List α
  | [] => []
  | a :: rest => if key a ∈ rest.map key then a :: superseded rest else superseded rest

/-- Each element is of one kind or the other. -/
theorem countP_eq_add (p : α → Bool) (l : List α) :
    l.countP p = (latest key l).countP p + (superseded key l).countP p := by
  induction l with
  | nil => rfl
  | cons a rest ih =>
      rw [latest, superseded]
      by_cases hlater : key a ∈ rest.map key
      · rw [if_pos hlater, if_pos hlater, List.countP_cons, List.countP_cons, ih]
        omega
      · rw [if_neg hlater, if_neg hlater, List.countP_cons, List.countP_cons, ih]
        omega

/-- Every item is either the latest under its key or superseded. -/
theorem length_eq_add (l : List α) :
    l.length = (latest key l).length + (superseded key l).length := by
  simpa using countP_eq_add key (fun _ => true) l

/-- The latest items stand in the order of the list. -/
theorem latest_sublist (l : List α) : (latest key l).Sublist l := by
  induction l with
  | nil => exact .slnil
  | cons a rest ih =>
      rw [latest]
      split
      · exact ih.cons a
      · exact ih.cons_cons a

/-- Every key has a latest element. -/
theorem mem_map_latest (k : κ) (l : List α) : k ∈ (latest key l).map key ↔ k ∈ l.map key := by
  induction l with
  | nil => rfl
  | cons a rest ih =>
      rw [latest, List.map_cons, List.mem_cons]
      split
      next hlater =>
        rw [ih]
        constructor
        · exact Or.inr
        · rintro (rfl | hrest)
          · exact hlater
          · exact hrest
      next => rw [List.map_cons, List.mem_cons, ih]

/-- No key has two latest items. -/
theorem nodup_map_latest (l : List α) : ((latest key l).map key).Nodup := by
  induction l with
  | nil => exact List.nodup_nil
  | cons a rest ih =>
      rw [latest]
      split
      · exact ih
      next hlast =>
        rw [List.map_cons, List.nodup_cons, mem_map_latest]
        exact ⟨hlast, ih⟩

/-- Nothing is superseded exactly if no key occurs twice. -/
theorem superseded_eq_nil_iff (l : List α) : superseded key l = [] ↔ (l.map key).Nodup := by
  induction l with
  | nil => simp [superseded]
  | cons a rest ih =>
      rw [superseded, List.map_cons, List.nodup_cons]
      split <;> simp_all

/-- Where no key comes twice, every item is the latest of its key. -/
theorem latest_eq_self {l : List α} (hnodup : (l.map key).Nodup) : latest key l = l := by
  have hlength := length_eq_add key l
  rw [(superseded_eq_nil_iff key l).mpr hnodup] at hlength
  exact (latest_sublist key l).eq_of_length hlength.symm

/-- The latest element of a key is the last one that has it. -/
theorem getLast?_filter_key_iff {l : List α} {k : κ} {a : α} :
    (l.filter (key · = k)).getLast? = some a ↔ a ∈ latest key l ∧ key a = k := by
  -- by induction on the list: the first item is the last of its key unless the key comes later
  induction l with
  | nil => simp [latest]
  | cons b rest ih =>
      rw [latest, List.filter_cons]
      by_cases hkey : key b = k
      · rw [if_pos (decide_eq_true hkey), List.getLast?_cons]
        by_cases hlater : key b ∈ rest.map key
        · obtain ⟨c, hc, hck⟩ := List.mem_map.mp hlater
          have hmem : c ∈ rest.filter (key · = k) :=
            List.mem_filter.mpr ⟨hc, decide_eq_true (hck.trans hkey)⟩
          rw [if_pos hlater, ← ih, List.getLast?_eq_some_getLast (List.ne_nil_of_mem hmem)]
          rfl
        · have hnil : rest.filter (key · = k) = [] := by
            apply List.filter_eq_nil_iff.mpr
            intro c hc hck
            exact hlater (List.mem_map.mpr ⟨c, hc, (of_decide_eq_true hck).trans hkey.symm⟩)
          rw [if_neg hlater, hnil, List.mem_cons]
          constructor
          · intro hlast
            cases hlast
            exact ⟨.inl rfl, hkey⟩
          · intro hcase
            rcases hcase with ⟨rfl | hmem, hk⟩
            · rfl
            · exact absurd (ih.mpr ⟨hmem, hk⟩) (by simp [hnil])
      · rw [if_neg (by simpa using hkey), ih]
        apply and_congr_left
        intro hk
        have hne : a ≠ b := by
          rintro rfl
          exact hkey hk
        split
        · exact Iff.rfl
        · rw [List.mem_cons, or_iff_right hne]
end Keyed
