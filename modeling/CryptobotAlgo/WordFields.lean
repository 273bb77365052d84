import Mathlib.Algebra.Group.Nat.Defs
import Mathlib.Data.Nat.Notation
import Mathlib.Tactic.Common

/-!
# Fields of a word

A word of 64 bits is put together from fields by shifts and disjunctions, and taken apart by shifts
and masks.  On numbers the one is a sum and the other a remainder.
-/

namespace CryptobotAlgo

/-- A field above the lowest `k` bits. -/
theorem toNat_shiftLeft_or {hi lo : UInt64} {k : UInt64} (hk : k.toNat < 64)
    (hhi : hi.toNat * 2 ^ k.toNat < 2 ^ 64) (hlo : lo.toNat < 2 ^ k.toNat) :
    (hi <<< k ||| lo).toNat = hi.toNat * 2 ^ k.toNat + lo.toNat := by
  rw [UInt64.toNat_or, UInt64.toNat_shiftLeft, Nat.mod_eq_of_lt hk, Nat.shiftLeft_eq,
    Nat.mod_eq_of_lt hhi, ← Nat.shiftLeft_eq, ← Nat.shiftLeft_add_eq_or_of_lt hlo,
    Nat.shiftLeft_eq]

/-- The `w` bits above the lowest `k`. -/
theorem toNat_shiftRight_and {word k mask : UInt64} {w : ℕ} (hk : k.toNat < 64)
    (hmask : mask.toNat = 2 ^ w - 1) :
    (word >>> k &&& mask).toNat = word.toNat / 2 ^ k.toNat % 2 ^ w := by
  rw [UInt64.toNat_and, UInt64.toNat_shiftRight, Nat.mod_eq_of_lt hk, hmask,
    Nat.and_two_pow_sub_one_eq_mod, Nat.shiftRight_eq_div_pow]

end CryptobotAlgo
