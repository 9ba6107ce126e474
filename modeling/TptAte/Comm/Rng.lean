import TptAte.Bits.XorShift
import Mathlib.Data.UInt

/-! # Pseudorandom numbers

The xorshift64* generator that makes simulated equipment reproducible from a seed.
-/

namespace Comm

structure Rng where
  state : UInt64
  deriving DecidableEq, Repr

namespace Rng

/-- Seed the generator; a zero seed is remapped. -/
def new (seed : UInt64) : Rng := ⟨if seed = 0 then 0x9E3779B97F4A7C15 else seed⟩

/-- One FNV-1a round. -/
def mix (hash part : UInt64) : UInt64 := (hash ^^^ part) * 0x00000100000001B3

def fromParts (parts : List UInt64) : Rng := new (parts.foldl mix 0xCBF29CE484222325)

def shifted (state : UInt64) : UInt64 :=
  let x := state ^^^ (state >>> 12)
  let x := x ^^^ (x <<< 25)
  x ^^^ (x >>> 27)

def nextU64 (rng : Rng) : UInt64 × Rng :=
  let state := shifted rng.state
  (state * 0x2545F4914F6CDD1D, ⟨state⟩)

/-- Uniform float in `[0, 1)`, from the top 24 bits of a draw. -/
def nextF32 (rng : Rng) : Float32 × Rng :=
  let (value, rng) := rng.nextU64
  ((value >>> 40).toFloat32 / (16777216 : UInt64).toFloat32, rng)

def uniform (rng : Rng) (lo hi : Float32) : Float32 × Rng :=
  let (value, rng) := rng.nextF32
  (lo + (hi - lo) * value, rng)

/-- No seed leaves the generator in the zero state. -/
theorem new_ne_zero (seed : UInt64) : (new seed).state ≠ 0 := by
  unfold new
  split
  · decide
  next hseed => exact hseed

/-- The folded seed is never the state 0, which the shifts would keep for ever. -/
theorem fromParts_ne_zero (parts : List UInt64) : (fromParts parts).state ≠ 0 :=
  new_ne_zero _

/-! ## The states and values of a run -/

/-- The values of some draws, and the generator behind them. -/
def draws : Nat → Rng → List UInt64 × Rng
  | 0, rng => ([], rng)
  | count + 1, rng =>
      let (value, next) := rng.nextU64
      let (values, last) := draws count next
      (value :: values, last)

/-- The words of the generator are those of its bits. -/
def ofWord : BitVec 64 ≃ UInt64 where
  toFun := UInt64.ofBitVec
  invFun := UInt64.toBitVec
  left_inv _ := rfl
  right_inv _ := rfl

/-- The step of the generator is three xor-shifts, one after the other. -/
theorem shifted_eq :
    shifted = ofWord ∘ Bits.xorShiftRight 27 ∘ Bits.xorShiftLeft 25 ∘ Bits.xorShiftRight 12 ∘
      ofWord.symm := by
  funext state
  rfl

/-- Each state comes from exactly one state. -/
theorem bijective_shifted : Function.Bijective shifted := by
  rw [shifted_eq]
  apply ofWord.bijective.comp
  apply (Bits.bijective_xorShiftRight (by decide)).comp
  apply (Bits.bijective_xorShiftLeft (by decide)).comp
  apply (Bits.bijective_xorShiftRight (by decide)).comp
  exact ofWord.symm.bijective

theorem shifted_zero : shifted 0 = 0 := by decide

/-- Only the zero state leads to the zero state. -/
theorem shifted_ne_zero {state : UInt64} (hstate : state ≠ 0) : shifted state ≠ 0 := by
  intro hzero
  rw [← shifted_zero] at hzero
  exact hstate (bijective_shifted.injective hzero)

/-- A product with an odd word is zero only if the other word is. -/
theorem mul_odd_ne_zero {state factor : UInt64} (hodd : factor.toNat % 2 = 1)
    (hstate : state ≠ 0) : state * factor ≠ 0 := by
  intro hzero
  apply hstate
  apply UInt64.toBitVec_inj.mp
  apply Bits.eq_zero_of_mul_odd hodd
  rw [← UInt64.toBitVec_mul, hzero]
  rfl

/-- A draw from a generator that has not degenerated gives a value and leaves a state
that are not zero. -/
theorem nextU64_ne_zero {rng : Rng} (hstate : rng.state ≠ 0) :
    rng.nextU64.1 ≠ 0 ∧ rng.nextU64.2.state ≠ 0 := by
  have hshifted := shifted_ne_zero hstate
  exact ⟨mul_odd_ne_zero (by decide) hshifted, hshifted⟩

/-- Neither a state nor a value of the generator is ever zero. -/
structure NeverDegenerates (rng : Rng) : Prop where
  state (count : Nat) : (rng.draws count).2.state ≠ 0
  values (count : Nat) : ∀ value ∈ (rng.draws count).1, value ≠ 0

/-- What one draw keeps, every run keeps. -/
theorem draws_ne_zero (count : Nat) {rng : Rng} (hstate : rng.state ≠ 0) :
    (∀ value ∈ (rng.draws count).1, value ≠ 0) ∧ (rng.draws count).2.state ≠ 0 := by
  induction count generalizing rng with
  | zero => exact ⟨by simp [draws], hstate⟩
  | succ count ih =>
      obtain ⟨hvalue, hnext⟩ := nextU64_ne_zero hstate
      obtain ⟨hvalues, hlast⟩ := ih hnext
      exact ⟨List.forall_mem_cons.mpr ⟨hvalue, hvalues⟩, hlast⟩

/-- Each xor-shift is a bijection, so that a state other than 0 never becomes 0. -/
theorem neverDegenerates_of_ne_zero {rng : Rng} (hstate : rng.state ≠ 0) :
    rng.NeverDegenerates where
  state count := (draws_ne_zero count hstate).2
  values count := (draws_ne_zero count hstate).1

/-- No seeded generator degenerates: the update of the state is a bijection that fixes
zero, the factor of a value is odd, and no seed is the zero state. -/
theorem seeded_neverDegenerates :
    (Function.Bijective shifted ∧ shifted 0 = 0 ∧
        ∃ factor : UInt64, factor.toNat % 2 = 1 ∧
          ∀ rng : Rng, rng.nextU64 = (shifted rng.state * factor, ⟨shifted rng.state⟩)) ∧
      (∀ seed : UInt64, (new seed).NeverDegenerates) ∧
      ∀ parts : List UInt64, (fromParts parts).NeverDegenerates := by
  refine ⟨⟨bijective_shifted, shifted_zero, _, ?_, fun _ => rfl⟩, ?_, ?_⟩
  · decide
  · intro seed
    exact neverDegenerates_of_ne_zero (new_ne_zero seed)
  · intro parts
    exact neverDegenerates_of_ne_zero (fromParts_ne_zero parts)

end Rng

end Comm
