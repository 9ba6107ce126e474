import Mathlib.Data.List.Count
import Mathlib.Data.UInt
import Mathlib.Tactic.Linarith

/-! # Verdicts by key

Each run goes through the same keys and gives a verdict on each. A log that keeps every
verdict and counters of the first verdict of each run agree on a key exactly if it is
gone through once, and the counters have not wrapped around.
-/

namespace Keyed

variable {κ : Type} [DecidableEq κ]

/-- The first verdict of a run on a key. -/
def verdictOn (key : κ) (run : List (κ × Bool)) : Option Bool :=
  (run.find? (·.1 == key)).map (·.2)

def verdictsOn (key : κ) (run : List (κ × Bool)) : Nat := run.countP (·.1 == key)

def failuresOn (key : κ) (run : List (κ × Bool)) : Nat :=
  run.countP fun item => item.1 == key && !item.2

section

variable (key : κ)

theorem verdictOn_cons (item : κ × Bool) (run : List (κ × Bool)) :
    verdictOn key (item :: run) = if item.1 == key then some item.2 else verdictOn key run := by
  unfold verdictOn
  rw [List.find?_cons]
  cases item.1 == key <;> rfl

theorem verdictsOn_cons (item : κ × Bool) (run : List (κ × Bool)) :
    verdictsOn key (item :: run) = verdictsOn key run + if item.1 == key then 1 else 0 :=
  List.countP_cons

theorem failuresOn_cons (item : κ × Bool) (run : List (κ × Bool)) :
    failuresOn key (item :: run) =
      failuresOn key run + if item.1 == key && !item.2 then 1 else 0 :=
  List.countP_cons

/-- The verdicts of two runs add up. -/
theorem verdictsOn_append (run run' : List (κ × Bool)) :
    verdictsOn key (run ++ run') = verdictsOn key run + verdictsOn key run' :=
  List.countP_append

/-- The failures of two runs add up. -/
theorem failuresOn_append (run run' : List (κ × Bool)) :
    failuresOn key (run ++ run') = failuresOn key run + failuresOn key run' :=
  List.countP_append

/-- A key has as many verdicts as occurrences. -/
theorem verdictsOn_eq (run : List (κ × Bool)) :
    verdictsOn key run = (run.map (·.1)).count key := by
  rw [verdictsOn, List.count, List.countP_map]
  rfl

/-- Every failure is a verdict. -/
theorem failuresOn_le (run : List (κ × Bool)) : failuresOn key run ≤ verdictsOn key run := by
  apply List.countP_mono_left
  intro item _ hfailed
  exact (Bool.and_eq_true_iff.mp hfailed).1

theorem isSome_verdictOn {run : List (κ × Bool)} (hmem : key ∈ run.map (·.1)) :
    (verdictOn key run).isSome = true := by
  obtain ⟨item, hitem, heq⟩ := List.mem_map.mp hmem
  rw [verdictOn, Option.isSome_map, List.find?_isSome]
  exact ⟨item, hitem, by simp [heq]⟩

/-- Where a key comes once, the first verdict on it is the only one. -/
theorem failuresOn_of_once {run : List (κ × Bool)} (honce : verdictsOn key run = 1) :
    failuresOn key run = if verdictOn key run = some false then 1 else 0 := by
  induction run with
  | nil => cases honce
  | cons item run ih =>
      rw [verdictsOn_cons] at honce
      rw [failuresOn_cons, verdictOn_cons]
      cases hkey : item.1 == key with
      | true =>
          rw [hkey, if_pos rfl] at honce
          have hrest : failuresOn key run = 0 := by
            have hle := failuresOn_le key run
            omega
          rw [hrest]
          cases item.2 <;> rfl
      | false =>
          rw [hkey] at honce
          exact ih honce

/-! ## Runs -/

variable {keys : List κ} {runs : List (List (κ × Bool))}

/-- Runs over the same keys give a key its occurrences once for each run. -/
theorem verdictsOn_flatten (hkeys : ∀ run ∈ runs, run.map (·.1) = keys) :
    verdictsOn key runs.flatten = runs.length * keys.count key := by
  induction runs with
  | nil => simp [verdictsOn]
  | cons run runs ih =>
      have hrest := ih fun other hother => hkeys other (List.mem_cons_of_mem _ hother)
      rw [List.flatten_cons, verdictsOn_append, hrest, verdictsOn_eq, hkeys run List.mem_cons_self,
        List.length_cons, Nat.succ_mul, add_comm]

/-- Runs over the same keys all give a verdict on a key among them. -/
theorem countP_verdictOn (hkeys : ∀ run ∈ runs, run.map (·.1) = keys) (hmem : key ∈ keys) :
    runs.countP (fun run => (verdictOn key run).isSome) = runs.length := by
  rw [List.countP_eq_length]
  intro run hrun
  apply isSome_verdictOn
  rw [hkeys run hrun]
  exact hmem

/-- Where each run gives one verdict on a key, the failures are the runs that failed it. -/
theorem failuresOn_flatten (honce : ∀ run ∈ runs, verdictsOn key run = 1) :
    failuresOn key runs.flatten = runs.countP fun run => verdictOn key run == some false := by
  induction runs with
  | nil => rfl
  | cons run runs ih =>
      have hrest := ih fun other hother => honce other (List.mem_cons_of_mem _ hother)
      rw [List.flatten_cons, failuresOn_append, hrest,
        failuresOn_of_once key (honce run List.mem_cons_self), List.countP_cons, add_comm]
      simp

/-- The counters of a key agree with the log. -/
def CountersAgree (runs : List (List (κ × Bool))) : Prop :=
  (UInt32.ofNat (runs.countP fun run => (verdictOn key run).isSome)).toNat =
      verdictsOn key runs.flatten ∧
    (UInt32.ofNat (runs.countP fun run => verdictOn key run == some false)).toNat =
      failuresOn key runs.flatten

/-- The two ways to count agree exactly if the key comes once and the runs fit 32 bits, or there are
none. -/
theorem countersAgree_iff (hkeys : ∀ run ∈ runs, run.map (·.1) = keys) (hmem : key ∈ keys) :
    CountersAgree key runs ↔ runs = [] ∨ (keys.count key = 1 ∧ runs.length < 2 ^ 32) := by
  have hcount : 1 ≤ keys.count key := List.count_pos_iff.mpr hmem
  unfold CountersAgree
  rw [countP_verdictOn key hkeys hmem, verdictsOn_flatten key hkeys, UInt32.toNat_ofNat']
  constructor
  · intro hagree
    rcases Nat.eq_zero_or_pos runs.length with hnil | hpos
    · exact .inl (List.length_eq_zero_iff.mp hnil)
    · -- the log counts at least one verdict of each run
      have hle := Nat.mod_le runs.length (2 ^ 32)
      have hlt := Nat.mod_lt runs.length (show 2 ^ 32 > 0 by decide)
      have hmul : runs.length * keys.count key ≤ runs.length := hagree.1 ▸ hle
      have hone : keys.count key = 1 := by
        apply le_antisymm _ hcount
        exact Nat.le_of_mul_le_mul_left (by rwa [Nat.mul_one]) hpos
      rw [hone, Nat.mul_one] at hagree
      exact .inr ⟨hone, hagree.1 ▸ hlt⟩
  · intro hcase
    rcases hcase with rfl | ⟨hone, hlength⟩
    · simp [failuresOn]
    · have honce : ∀ run ∈ runs, verdictsOn key run = 1 := by
        intro run hrun
        rw [verdictsOn_eq, hkeys run hrun, hone]
      have hle : runs.countP (fun run => verdictOn key run == some false) ≤ runs.length :=
        List.countP_le_length
      rw [hone, Nat.mul_one, failuresOn_flatten key honce]
      refine ⟨Nat.mod_eq_of_lt hlength, UInt32.toNat_ofNat_of_lt' ?_⟩
      exact lt_of_le_of_lt hle hlength

end

/-- The counters of all keys agree with the log. -/
theorem forall_countersAgree_iff {keys : List κ} {runs : List (List (κ × Bool))}
    (hkeys : ∀ run ∈ runs, run.map (·.1) = keys) :
    (∀ key ∈ keys, CountersAgree key runs) ↔
      runs = [] ∨ (keys.Nodup ∧ (runs.length < 2 ^ 32 ∨ keys = [])) := by
  constructor
  · intro hall
    by_cases hruns : runs = []
    · exact .inl hruns
    · have hkey : ∀ key ∈ keys, keys.count key = 1 ∧ runs.length < 2 ^ 32 := by
        intro key hmem
        exact ((countersAgree_iff key hkeys hmem).mp (hall key hmem)).resolve_left hruns
      refine .inr ⟨List.nodup_iff_count_eq_one.mpr fun key hmem => (hkey key hmem).1, ?_⟩
      cases keys with
      | nil => exact .inr rfl
      | cons key keys => exact .inl (hkey key List.mem_cons_self).2
  · intro hcase key hmem
    rw [countersAgree_iff key hkeys hmem]
    rcases hcase with hnil | ⟨hnodup, hlength | rfl⟩
    · exact .inl hnil
    · exact .inr ⟨List.count_eq_one_of_mem hnodup hmem, hlength⟩
    · cases hmem

end Keyed
