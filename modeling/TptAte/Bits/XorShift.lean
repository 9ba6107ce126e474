import Mathlib.Data.Finite.Defs
import Mathlib.Data.Nat.Prime.Basic
import Mathlib.Data.Fintype.EquivFin
import Mathlib.Logic.Function.Iterate

/-! # Bijections of words

A map of words that respects `xor` and vanishes when it is repeated often enough loses
nothing when its value is added to its argument. Both shifts are such maps. Neither does
multiplication by an odd word lose anything.
-/

namespace Bits

variable {w : Nat}

/-! ## Maps that vanish -/

/-- A map of words that respects `xor` and leaves nothing when it is repeated. -/
structure Vanishes (f : BitVec w → BitVec w) : Prop where
  xor (x y : BitVec w) : f (x ^^^ y) = f x ^^^ f y
  iterate : ∃ count, ∀ x, f^[count] x = 0#w

namespace Vanishes

variable {f : BitVec w → BitVec w}

/-- Only zero is left as it is. -/
theorem eq_zero_of_fixed (hf : Vanishes f) {x : BitVec w} (hfixed : f x = x) : x = 0#w := by
  obtain ⟨count, hcount⟩ := hf.iterate
  rw [← hcount x]
  exact (Function.iterate_fixed hfixed count).symm

/-- A word can be told from what is left of it, as the map vanishes when it is repeated. -/
theorem injective_xor (hf : Vanishes f) : Function.Injective fun x => x ^^^ f x := by
  intro x y heq
  -- the difference of two words with the same value is left as it is
  have hfixed : f (x ^^^ y) = x ^^^ y := by
    have hzero : (x ^^^ f x) ^^^ (y ^^^ f y) = 0#w := BitVec.xor_eq_zero_iff.mpr heq
    rw [hf.xor, ← BitVec.xor_eq_zero_iff, ← hzero]
    ac_rfl
  exact BitVec.xor_eq_zero_iff.mp (hf.eq_zero_of_fixed hfixed)

/-- Over finitely many words it also reaches each of them. -/
theorem bijective_xor (hf : Vanishes f) : Function.Bijective fun x => x ^^^ f x :=
  have : Finite (BitVec w) := Finite.of_injective BitVec.toFin fun _ _ => BitVec.eq_of_toFin_eq
  Finite.injective_iff_bijective.mp hf.injective_xor

end Vanishes

/-! ## Shifts -/

/-- Shifts add up. -/
theorem iterate_shiftRight (shift count : Nat) (x : BitVec w) :
    (fun word : BitVec w => word >>> shift)^[count] x = x >>> (shift * count) := by
  induction count with
  | zero => simp
  | succ count ih => rw [Function.iterate_succ_apply', ih, Nat.mul_succ, BitVec.shiftRight_add]

theorem iterate_shiftLeft (shift count : Nat) (x : BitVec w) :
    (fun word : BitVec w => word <<< shift)^[count] x = x <<< (shift * count) := by
  induction count with
  | zero => simp
  | succ count ih => rw [Function.iterate_succ_apply', ih, Nat.mul_succ, BitVec.shiftLeft_add]

/-- A word and itself shifted to the right. -/
def xorShiftRight (shift : Nat) (x : BitVec w) : BitVec w := x ^^^ (x >>> shift)

/-- A word and itself shifted to the left. -/
def xorShiftLeft (shift : Nat) (x : BitVec w) : BitVec w := x ^^^ (x <<< shift)

variable {shift : Nat} (hshift : 0 < shift)

include hshift

/-- Shifting often enough leaves no bit. -/
theorem vanishes_shiftRight : Vanishes fun x : BitVec w => x >>> shift where
  xor x y := BitVec.ushiftRight_xor_distrib x y shift
  iterate := by
    refine ⟨w, fun x => ?_⟩
    rw [iterate_shiftRight]
    exact BitVec.ushiftRight_eq_zero (Nat.le_mul_of_pos_left w hshift)

theorem vanishes_shiftLeft : Vanishes fun x : BitVec w => x <<< shift where
  xor x y := BitVec.shiftLeft_xor_distrib x y shift
  iterate := by
    refine ⟨w, fun x => ?_⟩
    rw [iterate_shiftLeft]
    exact BitVec.shiftLeft_eq_zero (Nat.le_mul_of_pos_left w hshift)

/-- No two words are shifted and combined to the same one. -/
theorem bijective_xorShiftRight : Function.Bijective (@xorShiftRight w shift) :=
  (vanishes_shiftRight hshift).bijective_xor

theorem bijective_xorShiftLeft : Function.Bijective (@xorShiftLeft w shift) :=
  (vanishes_shiftLeft hshift).bijective_xor

omit hshift

/-! ## Odd factors -/

/-- A product with an odd word is zero only if the other word is. -/
theorem eq_zero_of_mul_odd {x factor : BitVec w} (hodd : factor.toNat % 2 = 1)
    (hzero : x * factor = 0#w) : x = 0#w := by
  have hdvd : 2 ^ w ∣ x.toNat * factor.toNat := by
    have hmod := congrArg BitVec.toNat hzero
    rw [BitVec.toNat_mul, BitVec.toNat_ofNat, Nat.zero_mod] at hmod
    exact Nat.dvd_of_mod_eq_zero hmod
  have hcoprime : Nat.Coprime (2 ^ w) factor.toNat :=
    (Nat.coprime_two_left.mpr (Nat.odd_iff.mpr hodd)).pow_left w
  apply BitVec.eq_of_toNat_eq
  rw [BitVec.toNat_ofNat, Nat.zero_mod]
  exact Nat.eq_zero_of_dvd_of_lt (hcoprime.dvd_of_dvd_mul_right hdvd) x.isLt

end Bits
