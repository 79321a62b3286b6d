import Mathlib.Data.Nat.Bitwise
import Mathlib.Tactic

/-! Arithmetic of machine words on values that are known to fit. -/
namespace Word

theorem eq_ofNat {a : UInt32} {n : ℕ} (h : a.toNat = n) : a = UInt32.ofNat n := by
  rw [← h, UInt32.ofNat_toNat]

theorem toNat_ofNat {n : ℕ} (h : n < 2 ^ 32) : (UInt32.ofNat n).toNat = n :=
  UInt32.toNat_ofNat_of_lt' h

theorem ofNat_inj {a b : ℕ} (ha : a < 2 ^ 32) (hb : b < 2 ^ 32) :
    UInt32.ofNat a = UInt32.ofNat b ↔ a = b := by
  rw [← UInt32.toNat_inj, toNat_ofNat ha, toNat_ofNat hb]

theorem ofNat_lt {a b : ℕ} (ha : a < 2 ^ 32) (hb : b < 2 ^ 32) :
    UInt32.ofNat a < UInt32.ofNat b ↔ a < b := by
  rw [UInt32.lt_iff_toNat_lt, toNat_ofNat ha, toNat_ofNat hb]

theorem ofNat_le {a b : ℕ} (ha : a < 2 ^ 32) (hb : b < 2 ^ 32) :
    UInt32.ofNat a ≤ UInt32.ofNat b ↔ a ≤ b := by
  rw [UInt32.le_iff_toNat_le, toNat_ofNat ha, toNat_ofNat hb]

theorem ofNat_sub {a b : ℕ} (ha : a < 2 ^ 32) (hb : b ≤ a) :
    UInt32.ofNat a - UInt32.ofNat b = UInt32.ofNat (a - b) := by
  apply eq_ofNat
  have hb' := toNat_ofNat (hb.trans_lt ha)
  rw [UInt32.toNat_sub_of_le, toNat_ofNat ha, hb']
  rwa [ofNat_le (hb.trans_lt ha) ha]

theorem ofNat_shiftLeft {a k : ℕ} (hk : k < 32) (h : a * 2 ^ k < 2 ^ 32) :
    UInt32.ofNat a <<< UInt32.ofNat k = UInt32.ofNat (a * 2 ^ k) := by
  apply eq_ofNat
  have ha : a < 2 ^ 32 := (Nat.le_mul_of_pos_right a (by positivity)).trans_lt h
  rw [UInt32.toNat_shiftLeft, toNat_ofNat ha, toNat_ofNat (by omega), Nat.mod_eq_of_lt hk,
    Nat.shiftLeft_eq, Nat.mod_eq_of_lt h]

theorem ofNat_shiftRight {a k : ℕ} (hk : k < 32) (ha : a < 2 ^ 32) :
    UInt32.ofNat a >>> UInt32.ofNat k = UInt32.ofNat (a / 2 ^ k) := by
  apply eq_ofNat
  rw [UInt32.toNat_shiftRight, toNat_ofNat ha, toNat_ofNat (by omega), Nat.mod_eq_of_lt hk,
    Nat.shiftRight_eq_div_pow]

theorem ofNat_div {a b : ℕ} (ha : a < 2 ^ 32) (hb : b < 2 ^ 32) :
    UInt32.ofNat a / UInt32.ofNat b = UInt32.ofNat (a / b) := by
  apply eq_ofNat
  rw [UInt32.toNat_div, toNat_ofNat ha, toNat_ofNat hb]

theorem ofNat_xor {a b : ℕ} (ha : a < 2 ^ 32) (hb : b < 2 ^ 32) :
    UInt32.ofNat a ^^^ UInt32.ofNat b = UInt32.ofNat (a ^^^ b) := by
  apply eq_ofNat
  rw [UInt32.toNat_xor, toNat_ofNat ha, toNat_ofNat hb]

/-- The test `v & (v - 1)` of the code singles out the powers of two. -/
theorem and_sub_one_eq_zero {v : UInt32} (h0 : v ≠ 0) :
    v &&& (v - 1) = 0 ↔ ∃ k < 32, v = UInt32.ofNat (2 ^ k) := by
  have hpos : v.toNat ≠ 0 := fun h => h0 (UInt32.toNat_inj.mp h)
  have hsub : (v - 1).toNat = v.toNat - 1 := by
    rw [UInt32.toNat_sub_of_le]
    · rfl
    · rw [UInt32.le_iff_toNat_le]
      exact Nat.one_le_iff_ne_zero.mpr hpos
  have hiff : v &&& (v - 1) = 0 ↔ v.toNat.isPowerOfTwo := by
    rw [← Nat.and_sub_one_eq_zero_iff_isPowerOfTwo hpos, ← UInt32.toNat_inj, UInt32.toNat_and,
      hsub]
    rfl
  rw [hiff]
  constructor
  · rintro ⟨k, hk⟩
    have hlt := v.toNat_lt
    rw [hk] at hlt
    exact ⟨k, (Nat.pow_lt_pow_iff_right (by omega)).mp hlt, eq_ofNat hk⟩
  · rintro ⟨k, hk, rfl⟩
    exact ⟨k, toNat_ofNat (Nat.pow_lt_pow_right (by omega) hk)⟩

/-- A word read as a signed one is negative from the middle of its range on. -/
theorem toInt32_neg_iff (v : UInt32) : v.toInt32 < 0 ↔ 2 ^ 31 ≤ v.toNat := by
  have hlt := v.toNat_lt
  have hint : v.toInt32.toInt = v.toBitVec.toInt := rfl
  have hnat : v.toBitVec.toNat = v.toNat := rfl
  have hzero : (0 : Int32).toInt = 0 := rfl
  rw [Int32.lt_iff_toInt_lt, hint, hzero, BitVec.toInt_eq_toNat_cond, hnat]
  split <;> omega

theorem toInt64_neg_iff (v : UInt64) : v.toInt64 < 0 ↔ 2 ^ 63 ≤ v.toNat := by
  have hlt := v.toNat_lt
  have hint : v.toInt64.toInt = v.toBitVec.toInt := rfl
  have hnat : v.toBitVec.toNat = v.toNat := rfl
  have hzero : (0 : Int64).toInt = 0 := rfl
  rw [Int64.lt_iff_toInt_lt, hint, hzero, BitVec.toInt_eq_toNat_cond, hnat]
  split <;> omega

/-! ### Spreading the highest bit -/

/-- The highest bit of `x` is bit `h`, and the `j` bits from it downwards are set. -/
def TopBits (h j x : ℕ) : Prop :=
  (∀ i, h < i → x.testBit i = false) ∧ ∀ i, i ≤ h → h < i + j → x.testBit i = true

theorem topBits_log2 {x : ℕ} (hx : x ≠ 0) : TopBits x.log2 1 x := by
  constructor
  · intro i hi
    apply Nat.testBit_eq_false_of_lt
    exact (Nat.log2_lt hx).mp hi
  · intro i hi hi'
    obtain rfl : i = x.log2 := by omega
    exact Nat.testBit_log2 hx

theorem TopBits.or_shiftRight {h j x : ℕ} (hx : TopBits h j x) :
    TopBits h (j + j) (x ||| x >>> j) := by
  constructor
  · intro i hi
    rw [Nat.testBit_or, Nat.testBit_shiftRight, hx.1 i hi, hx.1 (j + i) (by omega)]
    rfl
  · intro i hi hi'
    rw [Nat.testBit_or, Nat.testBit_shiftRight]
    by_cases hnear : h < i + j
    · rw [hx.2 i hi hnear]
      rfl
    · rw [hx.2 (j + i) (by omega) (by omega), Bool.or_true]

theorem TopBits.eq_of_lt {h j x : ℕ} (hx : TopBits h j x) (hj : h < j) : x = 2 ^ (h + 1) - 1 := by
  apply Nat.eq_of_testBit_eq
  intro i
  rw [Nat.testBit_two_pow_sub_one]
  by_cases hi : i ≤ h
  · rw [hx.2 i hi (by omega), decide_eq_true (by omega)]
  · rw [hx.1 i (by omega), decide_eq_false (by omega)]

theorem TopBits.word {h j : ℕ} {v : UInt32} (hv : TopBits h j v.toNat) (hj : j < 32) :
    TopBits h (j + j) (v ||| v >>> UInt32.ofNat j).toNat := by
  rw [UInt32.toNat_or, UInt32.toNat_shiftRight, toNat_ofNat (by omega), Nat.mod_eq_of_lt hj]
  exact hv.or_shiftRight

end Word
