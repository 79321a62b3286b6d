import Mathlib.Data.Nat.Bitwise
import Mathlib.Tactic

/-! Fields of a machine word: some bits in a row that are read and written as a number. -/

/-- The `width` bits from bit `low` on. -/
structure BitField where
  low : ℕ
  width : ℕ
deriving DecidableEq, Repr

namespace BitField

def get (f : BitField) (w : ℕ) : ℕ := w / 2 ^ f.low % 2 ^ f.width

def set (f : BitField) (w v : ℕ) : ℕ :=
  2 ^ f.low * (2 ^ f.width * (w / 2 ^ (f.low + f.width)) + v % 2 ^ f.width) + w % 2 ^ f.low

/-- No bit belongs to both fields. -/
def Apart (f g : BitField) : Prop := f.low + f.width ≤ g.low ∨ g.low + g.width ≤ f.low

instance (f g : BitField) : Decidable (f.Apart g) :=
  inferInstanceAs (Decidable (_ ∨ _))

variable {f g : BitField} {w v : ℕ}

theorem testBit_get (i : ℕ) :
    (f.get w).testBit i = (decide (i < f.width) && w.testBit (f.low + i)) := by
  rw [get, Nat.testBit_mod_two_pow, Nat.testBit_div_two_pow, Nat.add_comm]

theorem testBit_set (i : ℕ) : (f.set w v).testBit i =
    if i < f.low then w.testBit i
    else if i < f.low + f.width then v.testBit (i - f.low)
    else w.testBit i := by
  have hv : v % 2 ^ f.width < 2 ^ f.width := Nat.mod_lt _ (Nat.two_pow_pos _)
  have hw : w % 2 ^ f.low < 2 ^ f.low := Nat.mod_lt _ (Nat.two_pow_pos _)
  rw [set, Nat.testBit_two_pow_mul_add _ hw, Nat.testBit_two_pow_mul_add _ hv,
    Nat.testBit_mod_two_pow, Nat.testBit_mod_two_pow, Nat.testBit_div_two_pow]
  by_cases hlow : i < f.low
  · simp [hlow]
  · by_cases hfield : i < f.low + f.width
    · simp [hlow, hfield, show i - f.low < f.width by omega]
    · simp [hlow, hfield, show ¬ i - f.low < f.width by omega,
        show i - f.low - f.width + (f.low + f.width) = i by omega]

/-- A field holds what was stored in it, as far as it has the bits. -/
theorem get_set (f : BitField) (w v : ℕ) : f.get (f.set w v) = v % 2 ^ f.width := by
  apply Nat.eq_of_testBit_eq
  intro i
  rw [testBit_get, testBit_set, Nat.testBit_mod_two_pow]
  by_cases hi : i < f.width
  · simp [hi]
  · simp [hi]

theorem get_set_of_lt (hv : v < 2 ^ f.width) : f.get (f.set w v) = v := by
  rw [get_set, Nat.mod_eq_of_lt hv]

/-- A store leaves the fields apart from it as they are. -/
theorem get_set_of_apart (h : f.Apart g) : f.get (g.set w v) = f.get w := by
  apply Nat.eq_of_testBit_eq
  intro i
  rw [testBit_get, testBit_get, testBit_set]
  by_cases hi : i < f.width
  · rcases h with h | h
    · rw [if_pos (by omega)]
    · rw [if_neg (by omega), if_neg (by omega)]
  · simp [hi]

end BitField
