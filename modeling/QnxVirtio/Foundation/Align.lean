import Mathlib.Algebra.Order.Floor.Div

/-!
# Alignment

The least multiple of an alignment from a number on, and the mask that computes it
in machine words when the alignment is a power of two.
-/

namespace QnxVirtio
namespace Foundation

def alignUp (n p : Nat) : Nat :=
  p * (n ⌈/⌉ p)

theorem le_alignUp {p : Nat} (hp : 0 < p) (n : Nat) : n <= alignUp n p :=
  (ceilDiv_le_iff_le_mul hp).mp (Nat.le_refl _)

theorem dvd_alignUp (n p : Nat) : p ∣ alignUp n p :=
  Nat.dvd_mul_right p _

theorem alignUp_le {n p m : Nat} (hp : 0 < p) (hdvd : p ∣ m) (hle : n <= m) :
    alignUp n p <= m := by
  rcases hdvd with ⟨k, rfl⟩
  exact Nat.mul_le_mul_left p ((ceilDiv_le_iff_le_mul hp).mpr hle)

theorem alignUp_mono {n m p : Nat} (hp : 0 < p) (hle : n <= m) :
    alignUp n p <= alignUp m p :=
  alignUp_le hp (dvd_alignUp m p) (Nat.le_trans hle (le_alignUp hp m))

theorem alignUp_lt_add {p : Nat} (hp : 0 < p) (n : Nat) : alignUp n p < n + p := by
  have hle : alignUp n p <= (n + p - 1) / p * p :=
    Nat.le_of_eq (Nat.mul_comm _ _)
  have hdiv : (n + p - 1) / p * p <= n + p - 1 := Nat.div_mul_le_self _ _
  omega

theorem alignUp_pos {n p : Nat} (hp : 0 < p) (hn : 0 < n) : 0 < alignUp n p :=
  Nat.lt_of_lt_of_le hn (le_alignUp hp n)

theorem alignUp_eq_self_of_le {n p : Nat} (hn : 0 < n) (hle : n <= p) :
    alignUp n p = p := by
  have hp : 0 < p := Nat.lt_of_lt_of_le hn hle
  apply Nat.le_antisymm
  · exact alignUp_le hp (Nat.dvd_refl p) hle
  · exact Nat.le_of_dvd (alignUp_pos hp hn) (dvd_alignUp n p)

/-!
## Machine words
-/

theorem and_not_mask_toNat {p : UInt64} {k : Nat} (hp : p.toNat = 2 ^ k)
    (x : UInt64) : (x &&& ~~~ (p - 1)).toNat = x.toNat / 2 ^ k * 2 ^ k := by
  have hk : k < 64 := by
    have hlt : 2 ^ k < 2 ^ 64 := hp ▸ p.toNat_lt
    exact (Nat.pow_lt_pow_iff_right (by decide)).mp hlt
  have hpos : 0 < 2 ^ k := Nat.two_pow_pos k
  have hmask : (p - 1).toNat = 2 ^ k - 1 := by
    rw [UInt64.toNat_sub_of_le _ _ (UInt64.le_iff_toNat_le.mpr (by rw [hp]; exact hpos)), hp]
    rfl
  rw [UInt64.toNat_and, UInt64.toNat_not, hmask, ← Nat.shiftRight_eq_div_pow,
    ← Nat.shiftLeft_eq]
  apply Nat.eq_of_testBit_eq
  intro i
  have hmax : UInt64.size - 1 - (2 ^ k - 1) = 2 ^ 64 - (2 ^ k - 1 + 1) := by
    change 2 ^ 64 - 1 - (2 ^ k - 1) = _
    omega
  have hlt : 2 ^ k - 1 < 2 ^ 64 := by
    have := Nat.pow_lt_pow_right (by decide : 1 < 2) hk
    omega
  rw [Nat.testBit_and, hmax, Nat.testBit_two_pow_sub_succ hlt,
    Nat.testBit_two_pow_sub_one, Nat.testBit_shiftLeft, Nat.testBit_shiftRight]
  by_cases hik : i < k
  · simp [hik]
  · have hki : k <= i := Nat.le_of_not_lt hik
    rw [Nat.add_sub_cancel' hki]
    by_cases hi : i < 64
    · simp [hik, hki, hi]
    · have hfalse : x.toNat.testBit i = false :=
        Nat.testBit_lt_two_pow (Nat.lt_of_lt_of_le x.toNat_lt
          (Nat.pow_le_pow_right (by decide) (Nat.le_of_not_lt hi)))
      simp [hfalse]

end Foundation
end QnxVirtio
