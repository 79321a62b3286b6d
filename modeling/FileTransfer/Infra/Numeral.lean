import Mathlib.Data.List.TakeWhile
import Mathlib.Tactic

/-! The conversion of a decimal numeral by `strtoull`, with what follows on the numeral. A string is
the list of its characters, without the zero behind it. -/
namespace FileTransfer

/-- `isspace` in the C locale. -/
def isSpace (c : Char) : Bool := c.toNat = 32 || (9 ≤ c.toNat && c.toNat ≤ 13)

def splitSign (s : List Char) : List Char × List Char :=
  if s.head? = some '+' ∨ s.head? = some '-' then (s.take 1, s.drop 1) else ([], s)

/-- The value of a numeral, in the arithmetic of an `unsigned long long`. One that is too large has
the largest value, whatever its sign. -/
def numeralValue (sign digits : List Char) : UInt64 :=
  let value := Nat.ofDigitChars 10 digits 0
  if 2 ^ 64 ≤ value then UInt64.ofNat (2 ^ 64 - 1)
  else if sign = ['-'] then -UInt64.ofNat value
  else UInt64.ofNat value

/-- `strtoull(s, &endptr, 10)`: the number and `endptr`, which is `s` when there is no numeral. -/
def strtoull (s : List Char) : UInt64 × List Char :=
  let (sign, unsigned) := splitSign (s.dropWhile isSpace)
  let digits := unsigned.takeWhile Char.isDigit
  if digits = [] then (0, s)
  else (numeralValue sign digits, unsigned.dropWhile Char.isDigit)

/-- Blanks, at most one sign, and digits. -/
structure IsNumeral (s blanks sign digits : List Char) : Prop where
  parts : s = blanks ++ (sign ++ digits)
  allBlank : ∀ c ∈ blanks, isSpace c = true
  oneSign : sign = [] ∨ sign = ['+'] ∨ sign = ['-']
  allDigits : ∀ c ∈ digits, c.isDigit = true
  nonempty : digits ≠ []

section Numeral
variable {s blanks sign digits : List Char} {c : Char} {n : UInt64}

theorem toNat_of_isDigit (h : c.isDigit = true) : 48 ≤ c.toNat ∧ c.toNat ≤ 57 := by
  simp only [Char.isDigit, ge_iff_le, Bool.and_eq_true, decide_eq_true_eq,
    UInt32.le_iff_toNat_le] at h
  exact h

theorem isSpace_of_isDigit (h : c.isDigit = true) : isSpace c = false := by
  have hrange := toNat_of_isDigit h
  simp only [isSpace, Bool.or_eq_false_iff, decide_eq_false_iff_not, Bool.and_eq_false_iff]
  omega

theorem splitSign_append (s : List Char) : (splitSign s).1 ++ (splitSign s).2 = s := by
  unfold splitSign
  split_ifs
  · exact List.take_append_drop 1 s
  · rfl

theorem splitSign_fst (s : List Char) :
    (splitSign s).1 = [] ∨ (splitSign s).1 = ['+'] ∨ (splitSign s).1 = ['-'] := by
  unfold splitSign
  split_ifs with hsign
  · cases s with
    | nil => simp
    | cons c s => simpa using hsign
  · simp

theorem splitSign_of_isNumeral (h : IsNumeral s blanks sign digits) :
    splitSign (sign ++ digits) = (sign, digits) := by
  obtain ⟨c, rest, rfl⟩ := List.exists_cons_of_ne_nil h.nonempty
  have hrange := toNat_of_isDigit (h.allDigits c List.mem_cons_self)
  have hplus : c ≠ '+' := by
    rintro rfl
    exact absurd hrange (by decide)
  have hminus : c ≠ '-' := by
    rintro rfl
    exact absurd hrange (by decide)
  rcases h.oneSign with rfl | rfl | rfl
  · simp [splitSign, hplus, hminus]
  · simp [splitSign]
  · simp [splitSign]

theorem dropWhile_isSpace (h : IsNumeral s blanks sign digits) :
    s.dropWhile isSpace = sign ++ digits := by
  rw [h.parts, List.dropWhile_append_of_pos h.allBlank]
  obtain ⟨c, rest, rfl⟩ := List.exists_cons_of_ne_nil h.nonempty
  have hc := isSpace_of_isDigit (h.allDigits c List.mem_cons_self)
  rcases h.oneSign with rfl | rfl | rfl
  · simp [hc]
  · simp [isSpace]
  · simp [isSpace]

/-- The end of a numeral is found where it is. -/
theorem strtoull_of_isNumeral (h : IsNumeral s blanks sign digits) :
    strtoull s = (numeralValue sign digits, []) := by
  have htake : digits.takeWhile Char.isDigit = digits := List.takeWhile_eq_self_iff.mpr h.allDigits
  have hdrop : digits.dropWhile Char.isDigit = [] := List.dropWhile_eq_nil_iff.mpr h.allDigits
  simp only [strtoull, dropWhile_isSpace h, splitSign_of_isNumeral h, htake, hdrop,
    if_neg h.nonempty]

/-- A number with nothing behind it comes from a numeral. -/
theorem isNumeral_of_strtoull (h : strtoull s = (n, [])) (hn : n ≠ 0) :
    ∃ blanks sign digits, IsNumeral s blanks sign digits ∧ n = numeralValue sign digits := by
  have hparts := splitSign_append (s.dropWhile isSpace)
  have hsign := splitSign_fst (s.dropWhile isSpace)
  unfold strtoull at h
  generalize splitSign (s.dropWhile isSpace) = p at h hparts hsign
  obtain ⟨sign, unsigned⟩ := p
  dsimp only at h hparts hsign
  by_cases hnil : unsigned.takeWhile Char.isDigit = []
  · rw [if_pos hnil] at h
    exact absurd (congrArg Prod.fst h).symm hn
  · rw [if_neg hnil, Prod.mk.injEq] at h
    obtain ⟨rfl, hrest⟩ := h
    have hdigits := List.dropWhile_eq_nil_iff.mp hrest
    rw [List.takeWhile_eq_self_iff.mpr hdigits] at hnil ⊢
    refine ⟨s.takeWhile isSpace, sign, unsigned, ?_, rfl⟩
    constructor
    · rw [hparts, List.takeWhile_append_dropWhile]
    · exact fun c hc => List.mem_takeWhile_imp hc
    · exact hsign
    · exact hdigits
    · exact hnil

/-- What a number is written as is read as the number. -/
theorem strtoull_toDigits (n : UInt64) : strtoull (Nat.toDigits 10 n.toNat) = (n, []) := by
  have h : IsNumeral (Nat.toDigits 10 n.toNat) [] [] (Nat.toDigits 10 n.toNat) := by
    constructor
    · rfl
    · simp
    · simp
    · exact fun c hc => Nat.isDigit_of_mem_toDigits (by decide) (by decide) hc
    · exact Nat.toDigits_ne_nil
  rw [strtoull_of_isNumeral h, numeralValue, Nat.ofDigitChars_ten_toDigits,
    if_neg (by have := n.toNat_lt; omega)]
  simp

end Numeral
end FileTransfer
