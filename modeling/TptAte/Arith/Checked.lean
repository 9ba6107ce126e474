import Mathlib.Algebra.Order.Group.Int
import Mathlib.Algebra.Order.Group.Unbundled.Abs
import Mathlib.Algebra.Order.Ring.Int

/-! # Checked arithmetic

A computation on machine integers either wraps around or stops where a result does not
fit. The two agree under a condition, which a checked computation is put together with
step by step.
-/

namespace Arith

universe u v

variable {α : Type u} {β : Type v}

/-- A checked computation gives the value of an unchecked one where a condition holds,
and stops where it does not. -/
structure Computes (cond : Prop) (checked : Option α) (value : α) : Prop where
  gives : cond → checked = some value
  stops : ¬ cond → checked = none

namespace Computes

variable {cond cond' : Prop} {checked : Option α} {value : α}

/-- Nothing goes wrong in a value. -/
theorem pure (h : cond) (value : α) : Computes cond (some value) value where
  gives _ := rfl
  stops hnot := absurd h hnot

/-- Two computations one after the other go through if both conditions hold. -/
theorem bind {next : α → Option β} {result : β} (hfirst : Computes cond checked value)
    (hnext : Computes cond' (next value) result) :
    Computes (cond ∧ cond') (checked.bind next) result where
  gives h := by rw [hfirst.gives h.1, Option.bind_some, hnext.gives h.2]
  stops h := by
    by_cases hcond : cond
    · rw [hfirst.gives hcond, Option.bind_some]
      exact hnext.stops fun hcond' => h ⟨hcond, hcond'⟩
    · rw [hfirst.stops hcond, Option.bind_none]

theorem map (hfirst : Computes cond checked value) (f : α → β) :
    Computes cond (checked.map f) (f value) where
  gives h := by rw [hfirst.gives h, Option.map_some]
  stops h := by rw [hfirst.stops h, Option.map_none]

theorem congr (h : Computes cond checked value) (hcond : cond ↔ cond') :
    Computes cond' checked value where
  gives h' := h.gives (hcond.mpr h')
  stops h' := h.stops (mt hcond.mp h')

/-- The computation goes through exactly if the condition holds. -/
theorem isSome_iff (h : Computes cond checked value) : checked.isSome = true ↔ cond := by
  by_cases hcond : cond
  · simp [h.gives hcond, hcond]
  · simp [h.stops hcond, hcond]

end Computes

/-- Go through a list and gather what each element gives, unless one of them stops. -/
def flatMapChecked (f : α → Option (List β)) : List α → Option (List β)
  | [] => some []
  | a :: rest => (f a).bind fun found => (flatMapChecked f rest).map (found ++ ·)

/-- A list is gone through to its end if the condition holds of each of its elements. -/
theorem computes_flatMap {cond : α → Prop} {f : α → Option (List β)} {g : α → List β}
    (h : ∀ a, Computes (cond a) (f a) (g a)) (l : List α) :
    Computes (∀ a ∈ l, cond a) (flatMapChecked f l) (l.flatMap g) := by
  induction l with
  | nil => exact Computes.pure (by simp) []
  | cons a rest ih =>
      rw [List.flatMap_cons]
      exact ((h a).bind (ih.map _)).congr List.forall_mem_cons.symm

/-! ## Words of 64 bits -/

/-- A number is the value of a signed 64-bit word. -/
def Fits (n : ℤ) : Prop := -2 ^ 63 ≤ n ∧ n < 2 ^ 63

instance (n : ℤ) : Decidable (Fits n) := inferInstanceAs (Decidable (_ ∧ _))

theorem fits_toInt (a : Int64) : Fits a.toInt := ⟨a.le_toInt, a.toInt_lt⟩

/-- Nothing wraps around where the exact result fits. -/
theorem bmod_of_fits {n : ℤ} (hn : Fits n) : n.bmod (2 ^ 64) = n := by
  obtain ⟨hlow, hhigh⟩ := hn
  exact Int.bmod_eq_of_le (by omega) (by omega)

/-- The result of an operation, unless the exact one does not fit. -/
def unlessOverflow (exact : ℤ) (wrapped : Int64) : Option Int64 :=
  if Fits exact then some wrapped else none

def checkedAdd (a b : Int64) : Option Int64 := unlessOverflow (a.toInt + b.toInt) (a + b)

def checkedSub (a b : Int64) : Option Int64 := unlessOverflow (a.toInt - b.toInt) (a - b)

def checkedAbs (a : Int64) : Option Int64 := unlessOverflow |a.toInt| a.abs

/-- An operation stops exactly where its exact result does not fit. -/
theorem computes_unlessOverflow (exact : ℤ) (wrapped : Int64) :
    Computes (Fits exact) (unlessOverflow exact wrapped) wrapped where
  gives h := if_pos h
  stops h := if_neg h

/-- Only the least word has no absolute value that fits. -/
theorem toInt_abs (a : Int64) : a.abs.toInt = |a.toInt|.bmod (2 ^ 64) := by
  have habs : a.abs.toInt = a.toBitVec.abs.toInt := rfl
  have hvalue : a.toInt = a.toBitVec.toInt := rfl
  rw [habs, BitVec.toInt_abs_eq_natAbs]
  by_cases hleast : a.toBitVec = BitVec.intMin 64
  · rw [if_pos hleast, hvalue, hleast]
    decide
  · rw [if_neg hleast, Int.abs_eq_natAbs, ← hvalue]
    have hne : a.toInt ≠ -2 ^ 63 := by
      intro heq
      exact hleast (BitVec.eq_of_toInt_eq (by rw [← hvalue, heq]; decide))
    have hlow := a.le_toInt
    have hhigh := a.toInt_lt
    exact (bmod_of_fits ⟨by omega, by omega⟩).symm

/-- A sum that fits is exact. -/
theorem toInt_add_of_fits {a b : Int64} (h : Fits (a.toInt + b.toInt)) :
    (a + b).toInt = a.toInt + b.toInt := by
  rw [Int64.toInt_add]
  exact bmod_of_fits h

/-- A difference that fits is exact. -/
theorem toInt_sub_of_fits {a b : Int64} (h : Fits (a.toInt - b.toInt)) :
    (a - b).toInt = a.toInt - b.toInt := by
  rw [Int64.toInt_sub]
  exact bmod_of_fits h

theorem fits_of_abs_lt {n : ℤ} (hn : |n| < 2 ^ 63) : Fits n :=
  ⟨(abs_lt.mp hn).1.le, (abs_lt.mp hn).2⟩

/-- An absolute value fits exactly if it is below the greatest one. -/
theorem fits_abs_iff {n : ℤ} : Fits |n| ↔ |n| < 2 ^ 63 :=
  and_iff_right (le_trans (by decide) (abs_nonneg n))

/-- The absolute value of a difference is exact while it is in range. -/
theorem toInt_abs_sub {a b : Int64} (h : |a.toInt - b.toInt| < 2 ^ 63) :
    (a - b).abs.toInt = |a.toInt - b.toInt| := by
  rw [toInt_abs, toInt_sub_of_fits (fits_of_abs_lt h)]
  exact bmod_of_fits (fits_abs_iff.mpr h)

/-- A checked addition stops exactly where the sum does not fit. -/
theorem computes_checkedAdd (a b : Int64) :
    Computes (Fits (a.toInt + b.toInt)) (checkedAdd a b) (a + b) :=
  computes_unlessOverflow _ _

/-- The absolute value of a difference stops exactly where it is too large. -/
theorem computes_abs_sub (a b : Int64) :
    Computes (|a.toInt - b.toInt| < 2 ^ 63) ((checkedSub a b).bind checkedAbs) (a - b).abs := by
  have hsub := computes_unlessOverflow (a.toInt - b.toInt) (a - b)
  apply (hsub.bind (computes_unlessOverflow |(a - b).toInt| (a - b).abs)).congr
  constructor
  · intro h
    obtain ⟨hdiff, habs⟩ := h
    rw [toInt_sub_of_fits hdiff] at habs
    exact habs.2
  · intro h
    have hdiff := fits_of_abs_lt h
    rw [toInt_sub_of_fits hdiff]
    exact ⟨hdiff, fits_abs_iff.mpr h⟩

/-! ## Distances that wrap around -/

/-- The distance of two numbers on the circle of 64-bit words. -/
def circular (n : ℤ) : ℤ := min |n| (2 ^ 64 - |n|)

/-- What an absolute difference becomes when it wraps around. -/
theorem abs_bmod {n : ℤ} (hn : |n| < 2 ^ 64) : |n.bmod (2 ^ 64)| = circular n := by
  unfold circular
  rw [Int.bmod_def]
  simp only [abs_eq_max_neg] at hn ⊢
  split <;> omega

/-- Two words differ by less than the number of all words. -/
theorem abs_sub_lt (a b : Int64) : |a.toInt - b.toInt| < 2 ^ 64 := by
  have ha := fits_toInt a
  have hb := fits_toInt b
  unfold Fits at ha hb
  rw [abs_lt]
  omega

theorem circular_range {n : ℤ} (hn : |n| < 2 ^ 64) : 0 ≤ circular n ∧ circular n ≤ 2 ^ 63 := by
  have hnonneg := abs_nonneg n
  unfold circular
  omega

/-- A sum of two distances that wraps around is found to be above a bound exactly if it
is, and fits. -/
theorem lt_bmod_add_iff {bound m n : ℤ} (hbound : 0 ≤ bound) (hm : 0 ≤ m ∧ m ≤ 2 ^ 63)
    (hn : 0 ≤ n ∧ n ≤ 2 ^ 63) :
    bound < (m + n).bmod (2 ^ 64) ↔ bound < m + n ∧ m + n < 2 ^ 63 := by
  rw [Int.bmod_def]
  split <;> omega

end Arith
