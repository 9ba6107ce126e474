import Mathlib.Data.List.Infix
import Mathlib.Data.List.Count

/-! # Elements and those in front of them

A traversal that remembers what it has gone through judges each element by those in
front of it; a traversal of pairs goes from each element through those behind it.
-/

namespace Keyed

variable {α : Type*}

/-- Each element of a list with those in front of it. -/
def withEarlier (l : List α) : List (List α × α) := l.inits.zip l

theorem withEarlier_cons (a : α) (l : List α) :
    withEarlier (a :: l) =
      ([], a) :: (withEarlier l).map fun entry => (a :: entry.1, entry.2) := by
  rw [withEarlier, List.inits_cons, List.zip_cons_cons, List.zip_map_left]
  rfl

theorem withEarlier_map {β : Type*} (f : α → β) (l : List α) :
    withEarlier (l.map f) = (withEarlier l).map fun entry => (entry.1.map f, f entry.2) := by
  rw [withEarlier, List.map_inits, List.zip_map]
  rfl

/-- An entry is a way to cut the list in front of an item. -/
theorem mem_withEarlier {l earlier : List α} {a : α} :
    (earlier, a) ∈ withEarlier l ↔ ∃ later, l = earlier ++ a :: later := by
  induction l generalizing earlier with
  | nil => simp [withEarlier]
  | cons b l ih =>
      rw [withEarlier_cons, List.mem_cons]
      cases earlier with
      | nil => simp [eq_comm]
      | cons c earlier =>
          simp only [Prod.mk.injEq, List.cons_ne_nil, false_and, false_or, List.mem_map,
            Prod.exists, List.cons_append, List.cons.injEq]
          constructor
          · intro hentry
            obtain ⟨front, a', hmem, ⟨rfl, rfl⟩, rfl⟩ := hentry
            obtain ⟨later, hlater⟩ := ih.mp hmem
            exact ⟨later, rfl, hlater⟩
          · intro hsplit
            obtain ⟨later, rfl, hlater⟩ := hsplit
            exact ⟨earlier, a, ih.mpr ⟨later, hlater⟩, ⟨rfl, rfl⟩, rfl⟩

theorem map_snd_withEarlier (l : List α) : (withEarlier l).map (·.2) = l := by
  induction l with
  | nil => rfl
  | cons a l ih =>
      rw [withEarlier_cons, List.map_cons, List.map_map]
      exact congrArg (a :: ·) ih

theorem mem_of_mem_withEarlier {l : List α} {entry : List α × α} (hentry : entry ∈ withEarlier l) :
    entry.2 ∈ l := by
  rw [← map_snd_withEarlier l]
  exact List.mem_map_of_mem hentry

/-- All entries are about items with a property exactly if all items have it. -/
theorem forall_mem_withEarlier {P : α → Prop} {l : List α} :
    (∀ entry ∈ withEarlier l, P entry.2) ↔ ∀ a ∈ l, P a := by
  have hmap := @List.forall_mem_map _ _ Prod.snd (withEarlier l) P
  rw [map_snd_withEarlier] at hmap
  exact hmap.symm

/-- No two elements are each the first with their key. -/
theorem eq_of_first {β : Type*} {key : α → β} {l : List α} {entry entry' : List α × α}
    (hentry : entry ∈ withEarlier l) (hentry' : entry' ∈ withEarlier l)
    (hfirst : key entry.2 ∉ entry.1.map key) (hfirst' : key entry'.2 ∉ entry'.1.map key)
    (hkey : key entry.2 = key entry'.2) : entry = entry' := by
  induction l generalizing entry entry' with
  | nil => cases hentry
  | cons a l ih =>
      rw [withEarlier_cons, List.mem_cons, List.mem_map] at hentry hentry'
      rcases hentry with rfl | ⟨front, hfront, rfl⟩
      · rcases hentry' with rfl | ⟨front', hfront', rfl⟩
        · rfl
        · exact absurd (List.mem_cons.mpr (.inl hkey.symm)) hfirst'
      · rcases hentry' with rfl | ⟨front', hfront', rfl⟩
        · exact absurd (List.mem_cons.mpr (.inl hkey)) hfirst
        · have hsame := ih hfront hfront' (fun h => hfirst (List.mem_cons_of_mem _ h))
            (fun h => hfirst' (List.mem_cons_of_mem _ h)) hkey
          rw [hsame]

/-- An element comes twice exactly if one of its occurrences has another in front. -/
theorem two_le_count_iff [DecidableEq α] {l : List α} {a : α} :
    2 ≤ l.count a ↔ ∃ earlier, (earlier, a) ∈ withEarlier l ∧ a ∈ earlier := by
  constructor
  · intro hcount
    induction l with
    | nil => simp at hcount
    | cons b l ih =>
        by_cases hhead : b = a
        · subst hhead
          rw [List.count_cons_self] at hcount
          have hmem : b ∈ l := List.count_pos_iff.mp (Nat.le_of_succ_le_succ hcount)
          obtain ⟨earlier, later, hsplit⟩ := List.mem_iff_append.mp hmem
          exact ⟨b :: earlier, mem_withEarlier.mpr ⟨later, by rw [hsplit]; rfl⟩,
            List.mem_cons_self⟩
        · rw [List.count_cons_of_ne hhead] at hcount
          obtain ⟨earlier, hentry, hmem⟩ := ih hcount
          obtain ⟨later, hsplit⟩ := mem_withEarlier.mp hentry
          exact ⟨b :: earlier, mem_withEarlier.mpr ⟨later, by rw [hsplit]; rfl⟩,
            List.mem_cons_of_mem _ hmem⟩
  · intro htwice
    obtain ⟨earlier, hentry, hmem⟩ := htwice
    obtain ⟨later, rfl⟩ := mem_withEarlier.mp hentry
    have hfront := List.count_pos_iff.mpr hmem
    rw [List.count_append, List.count_cons_self]
    omega

/-- A list has no duplicates exactly if no item is among those before it. -/
theorem nodup_iff_forall_withEarlier [DecidableEq α] {l : List α} :
    l.Nodup ↔ ∀ entry ∈ withEarlier l, entry.2 ∉ entry.1 := by
  rw [List.nodup_iff_count]
  constructor
  · intro hcount entry hentry hmem
    have htwice := two_le_count_iff.mpr ⟨entry.1, hentry, hmem⟩
    have hle := hcount entry.2
    omega
  · intro hnew a
    apply Nat.le_of_not_lt
    intro htwice
    obtain ⟨earlier, hentry, hmem⟩ := two_le_count_iff.mp htwice
    exact hnew _ hentry hmem

/-- Each pair of elements, the one in front first, in the order of the first and then
of the second. -/
def orderedPairs (l : List α) : List (α × α) :=
  l.tails.flatMap fun
    | [] => []
    | a :: later => later.map (a, ·)

theorem orderedPairs_cons (a : α) (l : List α) :
    orderedPairs (a :: l) = l.map (a, ·) ++ orderedPairs l := by
  rw [orderedPairs, List.tails_cons, List.flatMap_cons]
  rfl

theorem mem_of_mem_orderedPairs {l : List α} {pair : α × α} (hpair : pair ∈ orderedPairs l) :
    pair.1 ∈ l ∧ pair.2 ∈ l := by
  induction l with
  | nil => cases hpair
  | cons a l ih =>
      rw [orderedPairs_cons, List.mem_append] at hpair
      rcases hpair with hpair | hpair
      · obtain ⟨b, hb, rfl⟩ := List.mem_map.mp hpair
        exact ⟨List.mem_cons_self, List.mem_cons_of_mem _ hb⟩
      · obtain ⟨hfirst, hsecond⟩ := ih hpair
        exact ⟨List.mem_cons_of_mem _ hfirst, List.mem_cons_of_mem _ hsecond⟩

/-- A traversal that gives one result where a condition holds. -/
theorem flatMap_ite_singleton {β : Type*} (p : α → Prop) [DecidablePred p] (f : α → β)
    (l : List α) :
    (l.flatMap fun a => if p a then [f a] else []) = (l.filter (p ·)).map f := by
  induction l with
  | nil => rfl
  | cons a l ih =>
      rw [List.flatMap_cons, ih, List.filter_cons]
      by_cases hp : p a <;> simp [hp]

end Keyed
