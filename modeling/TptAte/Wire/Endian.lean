import Mathlib.Data.List.Basic
import Mathlib.Tactic.Ring

/-! # Byte strings and byte orders

Numbers of a fixed byte width and their two byte orders. The big-endian bytes
of a number are its little-endian bytes reversed, so every law is proved once
for the little-endian digits.
-/

namespace Wire

/-- A byte string, in the order the bytes travel. -/
abbrev Bytes := List UInt8

inductive Endian where
  | little
  | big
  deriving DecidableEq, Repr

/-- The low `width` base-256 digits of a number, low digit first. -/
def leBytes : Nat → Nat → Bytes
  | 0, _ => []
  | width + 1, n => UInt8.ofNat n :: leBytes width (n / 256)

/-- The number whose base-256 digits are given, low digit first. -/
def leValue : Bytes → Nat
  | [] => 0
  | byte :: rest => byte.toNat + 256 * leValue rest

@[simp] theorem length_leBytes (width n : Nat) : (leBytes width n).length = width := by
  induction width generalizing n with
  | zero => rfl
  | succ width ih => simp [leBytes, ih]

theorem leValue_append (low high : Bytes) :
    leValue (low ++ high) = leValue low + 256 ^ low.length * leValue high := by
  induction low with
  | nil => simp [leValue]
  | cons byte rest ih =>
      simp only [List.cons_append, leValue, ih, List.length_cons, Nat.pow_succ]
      ring

theorem leValue_lt (bytes : Bytes) : leValue bytes < 256 ^ bytes.length := by
  induction bytes with
  | nil => simp [leValue]
  | cons byte rest ih =>
      have hbyte : byte.toNat < 256 := byte.toNat_lt
      simp only [leValue, List.length_cons, Nat.pow_succ]
      omega

/-- A number that fits is read back from its bytes. -/
theorem leValue_leBytes (width n : Nat) (hn : n < 256 ^ width) :
    leValue (leBytes width n) = n := by
  induction width generalizing n with
  | zero => simp only [Nat.pow_zero] at hn; simp [leBytes, leValue]; omega
  | succ width ih =>
      have hrest : n / 256 < 256 ^ width := by
        rw [Nat.pow_succ] at hn
        exact Nat.div_lt_of_lt_mul (by omega)
      simp only [leBytes, leValue, ih _ hrest, UInt8.toNat_ofNat']
      omega

/-- Bytes are written again from the number they spell. -/
theorem leBytes_leValue (bytes : Bytes) : leBytes bytes.length (leValue bytes) = bytes := by
  induction bytes with
  | nil => rfl
  | cons byte rest ih =>
      have hbyte : byte.toNat < 256 := byte.toNat_lt
      have hdiv : (byte.toNat + 256 * leValue rest) / 256 = leValue rest := by omega
      have hlow : UInt8.ofNat (byte.toNat + 256 * leValue rest) = byte := by
        apply UInt8.toNat_inj.mp
        rw [UInt8.toNat_ofNat']
        omega
      simp only [leValue, List.length_cons, leBytes, hdiv, hlow, ih]

namespace Endian

def bytes : Endian → Nat → Nat → Bytes
  | .little, width, n => leBytes width n
  | .big, width, n => (leBytes width n).reverse

/-- The number stored in a byte string in a byte order. -/
def value : Endian → Bytes → Nat
  | .little, bytes => leValue bytes
  | .big, bytes => leValue bytes.reverse

@[simp] theorem length_bytes (order : Endian) (width n : Nat) :
    (order.bytes width n).length = width := by
  cases order <;> simp [bytes]

theorem value_lt (order : Endian) (bytes : Bytes) : order.value bytes < 256 ^ bytes.length := by
  cases order with
  | little => exact leValue_lt bytes
  | big => simpa [value] using leValue_lt bytes.reverse

/-- A number that fits is read back in either order. -/
theorem value_bytes (order : Endian) (width n : Nat) (hn : n < 256 ^ width) :
    order.value (order.bytes width n) = n := by
  cases order with
  | little => exact leValue_leBytes width n hn
  | big => simp [value, bytes, leValue_leBytes width n hn]

/-- Bytes are written again in the order they were read in. -/
theorem bytes_value (order : Endian) (bytes : Bytes) :
    order.bytes bytes.length (order.value bytes) = bytes := by
  cases order with
  | little => exact leBytes_leValue bytes
  | big =>
      have hrev := leBytes_leValue bytes.reverse
      rw [List.length_reverse] at hrev
      simp [Endian.bytes, value, hrev]

/-- The bytes of a number in one order are those in the other order exactly
when they read the same from both ends. -/
theorem little_bytes_value_iff (order : Endian) (bytes : Bytes) :
    Endian.little.bytes bytes.length (order.value bytes) = bytes ↔
      order = .little ∨ bytes.reverse = bytes := by
  cases order with
  | little => simp [bytes_value]
  | big =>
      have hrev := leBytes_leValue bytes.reverse
      rw [List.length_reverse] at hrev
      simp [Endian.bytes, value, hrev]

/-- Both orders agree modulo 255, where every digit has weight one. -/
theorem leValue_mod_255 (bytes : Bytes) :
    leValue bytes % 255 = (bytes.map UInt8.toNat).sum % 255 := by
  induction bytes with
  | nil => rfl
  | cons byte rest ih =>
      simp only [leValue, List.map_cons, List.sum_cons]
      omega

/-- Modulo 255 the order of the bytes does not matter. -/
theorem value_mod_255 (order : Endian) (bytes : Bytes) :
    order.value bytes % 255 = leValue bytes % 255 := by
  cases order with
  | little => rfl
  | big =>
      rw [value, leValue_mod_255, leValue_mod_255, List.map_reverse, List.sum_reverse]

theorem leBytes_zero (width : Nat) : leBytes width 0 = List.replicate width 0 := by
  induction width with
  | zero => rfl
  | succ width ih => simp [leBytes, ih, List.replicate_succ]

theorem leValue_replicate_zero (width : Nat) : leValue (List.replicate width 0) = 0 := by
  induction width with
  | zero => rfl
  | succ width ih => simp [leValue, ih, List.replicate_succ]

theorem value_replicate_zero (order : Endian) (width : Nat) :
    order.value (List.replicate width 0) = 0 := by
  cases order <;> simp [value, leValue_replicate_zero]

end Endian

theorem pow_256_pos (width : Nat) : 0 < 256 ^ width := Nat.pow_pos (by decide)

theorem pow_256_mod_255 (width : Nat) : 256 ^ width % 255 = 1 := by
  rw [Nat.pow_mod]
  simp

end Wire
