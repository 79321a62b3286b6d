import FileTransfer.BuddyAllocator.Create

/-! The rounding of request sizes, and the level that serves a request. -/
namespace FileTransfer
open Bisection

/-- The next power of two. For the sizes above `2 ^ 31` it is `2 ^ 32`, of which zero is left. -/
theorem nextPow2_eq {v : UInt32} (hv : v ≠ 0) :
    ∃ k ≤ 32, nextPow2 v = UInt32.ofNat (2 ^ k) ∧ v.toNat ≤ 2 ^ k ∧ 2 ^ k < 2 * v.toNat := by
  have hpos : 1 ≤ v.toNat := by
    rw [Nat.one_le_iff_ne_zero]
    exact fun hz => hv (UInt32.toNat_inj.mp hz)
  have hsub : (v - 1).toNat = v.toNat - 1 := by
    rw [UInt32.toNat_sub_of_le _ _ (by rwa [UInt32.le_iff_toNat_le])]
    rfl
  unfold nextPow2
  rw [if_neg hv]
  dsimp only
  by_cases hone : v = 1
  · refine ⟨0, Nat.zero_le 32, ?_, ?_, ?_⟩
    · rw [hone]
      rfl
    · rw [hone]
      exact le_rfl
    · rw [hone]
      decide
  · have hne : (v - 1).toNat ≠ 0 := by
      rw [hsub]
      intro hz
      apply hone
      rw [← UInt32.toNat_inj, UInt32.toNat_one]
      omega
    have hle := Nat.log2_self_le hne
    have hlt := (Nat.log2_lt hne).mp (Nat.lt_succ_self _)
    have hlog : (v - 1).toNat.log2 < 32 := (Nat.log2_lt hne).mpr (v - 1).toNat_lt
    have hbits := ((((Word.topBits_log2 hne).word (by omega)).word (by omega)).word (by omega)).word
      (by omega) |>.word (by omega)
    have hfull := hbits.eq_of_lt hlog
    have hpred : 2 ^ ((v - 1).toNat.log2 + 1) - 1 + 1 = 2 ^ ((v - 1).toNat.log2 + 1) :=
      Nat.sub_add_cancel Nat.one_le_two_pow
    refine ⟨(v - 1).toNat.log2 + 1, hlog, ?_, by omega, by rw [pow_succ]; omega⟩
    apply UInt32.toNat_inj.mp
    rw [UInt32.toNat_add, UInt32.toNat_ofNat', ← hpred, ← hfull]
    rfl

theorem countShifts_two_pow {rounds k m : ℕ} (hk : k < 32) (hm : m < 32) (hr : k ≤ rounds) :
    countShifts rounds (UInt32.ofNat (2 ^ k)) (UInt32.ofNat (2 ^ m)) = k - m := by
  induction k generalizing rounds with
  | zero =>
    have hstop : ¬ UInt32.ofNat (2 ^ m) < UInt32.ofNat (2 ^ 0) := by
      rw [Word.ofNat_lt (Shape.two_pow_lt hm) (Shape.two_pow_lt hk), not_lt]
      exact Nat.pow_le_pow_right (by omega) (Nat.zero_le m)
    cases rounds with
    | zero => rw [countShifts, Nat.zero_sub]
    | succ r => rw [countShifts, if_neg hstop, Nat.zero_sub]
  | succ k ih =>
    obtain ⟨r, rfl⟩ : ∃ r, rounds = r + 1 := ⟨rounds - 1, by omega⟩
    have hlt : UInt32.ofNat (2 ^ m) < UInt32.ofNat (2 ^ (k + 1)) ↔ m < k + 1 := by
      rw [Word.ofNat_lt (Shape.two_pow_lt hm) (Shape.two_pow_lt hk),
        Nat.pow_lt_pow_iff_right (by omega)]
    have hshift : UInt32.ofNat (2 ^ (k + 1)) >>> 1 = UInt32.ofNat (2 ^ k) := by
      have := Word.ofNat_shiftRight (k := 1) (by omega) (Shape.two_pow_lt hk)
      rwa [pow_one, pow_succ, Nat.mul_div_cancel _ (by omega)] at this
    rw [countShifts]
    by_cases hmk : m < k + 1
    · rw [if_pos (hlt.mpr hmk), hshift, ih (by omega) (by omega)]
      omega
    · rw [if_neg (hlt.not.mpr hmk)]
      omega

namespace Shape
variable {S : Shape} {blockSize : UInt32} {k l : ℕ}

/-- The level of the blocks of `2 ^ k` bytes. -/
theorem getBlockLevel_two_pow (hk : k < 32) :
    getBlockLevel S.minBlock S.levels (UInt32.ofNat (2 ^ k)) =
      if S.bottom ≤ k ∧ k ≤ S.top then .ok (S.top - k) else .error .EINVAL := by
  have hbottom := S.bottom_le
  have hm := S.bottom_le.trans_lt S.top_lt
  have hlt : UInt32.ofNat (2 ^ k) < S.minBlock ↔ k < S.bottom := by
    rw [minBlock, Word.ofNat_lt (two_pow_lt hk) (two_pow_lt hm), Nat.pow_lt_pow_iff_right (by omega)]
  have hpow : UInt32.ofNat (2 ^ k) &&& (UInt32.ofNat (2 ^ k) - 1) = 0 :=
    (Word.and_sub_one_eq_zero (two_pow_ne_zero hk)).mpr ⟨k, hk, rfl⟩
  have hshifts : countShifts 32 (UInt32.ofNat (2 ^ k)) S.minBlock = k - S.bottom :=
    countShifts_two_pow hk hm hk.le
  unfold getBlockLevel
  rw [hshifts]
  dsimp only
  by_cases hlow : k < S.bottom
  · rw [if_pos (Or.inl (hlt.mpr hlow)), if_neg (by omega)]
  · have hok : ¬ (UInt32.ofNat (2 ^ k) < S.minBlock ∨
        UInt32.ofNat (2 ^ k) &&& (UInt32.ofNat (2 ^ k) - 1) ≠ 0) := by
      rw [hlt, hpow]
      exact fun h => h.elim hlow fun hne => hne rfl
    have hlevels : S.levels - 1 = S.top - S.bottom := rfl
    rw [if_neg hok, hlevels]
    by_cases hhigh : k ≤ S.top
    · have hlevel : S.top - S.bottom - (k - S.bottom) = S.top - k := by omega
      rw [if_neg (by omega), if_pos ⟨by omega, hhigh⟩, hlevel]
    · rw [if_pos (by omega), if_neg (fun h => hhigh h.2)]

/-- A size has a level exactly if the blocks of some level have it. -/
theorem getBlockLevel_eq_ok :
    getBlockLevel S.minBlock S.levels blockSize = .ok l ↔
      l ≤ S.depth ∧ blockSize = UInt32.ofNat (S.size l) := by
  have hbottom := S.bottom_le
  have htop := S.top_lt
  have hdepth : S.depth = S.top - S.bottom := rfl
  have hpow : ∀ l, S.top - l < 32 := fun l => (Nat.sub_le _ _).trans_lt htop
  by_cases htest : ∃ k < 32, blockSize = UInt32.ofNat (2 ^ k)
  · obtain ⟨k, hk, rfl⟩ := htest
    have hsize : UInt32.ofNat (2 ^ k) = UInt32.ofNat (S.size l) ↔ k = S.top - l := by
      rw [size, Word.ofNat_inj (two_pow_lt hk) (two_pow_lt (hpow l)), Nat.pow_right_inj Nat.one_lt_two]
    rw [getBlockLevel_two_pow hk, hsize]
    by_cases hin : S.bottom ≤ k ∧ k ≤ S.top
    · rw [if_pos hin, Except.ok.injEq]
      omega
    · rw [if_neg hin]
      constructor
      · intro h
        cases h
      · intro h
        omega
  · have hrefused : blockSize < S.minBlock ∨ blockSize &&& (blockSize - 1) ≠ 0 := by
      by_cases hz : blockSize = 0
      · left
        rw [hz, UInt32.lt_iff_toNat_lt, toNat_minBlock]
        exact Nat.two_pow_pos _
      · right
        rwa [Ne, Word.and_sub_one_eq_zero hz]
    unfold getBlockLevel
    rw [if_pos hrefused]
    constructor
    · intro h
      cases h
    · intro h
      exact absurd ⟨_, hpow l, h.2⟩ htest

theorem size_eq_two_pow_iff {v : ℕ} (hle : v ≤ 2 ^ k) (hlt : 2 ^ k < 2 * v) :
    S.size l < 2 * v ∧ v ≤ S.size l ↔ S.top - l = k := by
  unfold size
  constructor
  · intro h
    have hup : 2 ^ (S.top - l) < 2 ^ (k + 1) := by
      rw [pow_succ]
      omega
    have hdown : 2 ^ k < 2 ^ (S.top - l + 1) := by
      rw [pow_succ]
      omega
    rw [Nat.pow_lt_pow_iff_right (by omega)] at hup hdown
    omega
  · intro h
    rw [h]
    exact ⟨hlt, hle⟩

/-- The rounded size is that of the smallest blocks that the request fits in. -/
theorem nextPow2_eq_size_iff : nextPow2 blockSize = UInt32.ofNat (S.size l) ↔
    S.size l < 2 * blockSize.toNat ∧ blockSize.toNat ≤ S.size l := by
  have hexp : S.top - l < 32 := (Nat.sub_le _ _).trans_lt S.top_lt
  by_cases hz : blockSize = 0
  · rw [hz]
    constructor
    · intro h
      exact absurd h.symm (two_pow_ne_zero hexp)
    · intro h
      exact absurd h.1 (Nat.not_lt_zero _)
  obtain ⟨k, hk, heq, hle, hlt⟩ := nextPow2_eq hz
  rw [heq, size_eq_two_pow_iff hle hlt]
  rcases hk.lt_or_eq with hk | rfl
  · rw [size, Word.ofNat_inj (two_pow_lt hk) (two_pow_lt hexp), Nat.pow_right_inj Nat.one_lt_two]
    exact eq_comm
  · constructor
    · intro h
      exact absurd h.symm (two_pow_ne_zero hexp)
    · intro h
      omega

/-- A request is served at the level of the smallest blocks that it fits in. -/
theorem requestLevel_eq_ok : S.requestLevel blockSize = .ok l ↔
    l ≤ S.depth ∧ S.size l < 2 * blockSize.toNat ∧ blockSize.toNat ≤ S.size l := by
  unfold requestLevel
  by_cases hz : blockSize = 0
  · rw [if_pos hz, hz]
    constructor
    · intro h
      cases h
    · intro h
      exact absurd h.2.1 (Nat.not_lt_zero _)
  · rw [if_neg hz, getBlockLevel_eq_ok, nextPow2_eq_size_iff]

/-- Every size from half of a smallest block up to the whole pool has a level. -/
theorem exists_requestLevel (hlow : 2 ^ S.bottom / 2 < blockSize.toNat)
    (hhigh : blockSize.toNat ≤ 2 ^ S.top) :
    ∃ l, S.requestLevel blockSize = .ok l ∧ (nextPow2 blockSize).toNat = S.size l := by
  have hne : blockSize ≠ 0 := by
    intro hz
    rw [hz] at hlow
    exact absurd hlow (Nat.not_lt_zero _)
  obtain ⟨k, hk, heq, hle, hlt⟩ := nextPow2_eq hne
  have htop : k ≤ S.top := by
    have hpow : 2 ^ k < 2 ^ (S.top + 1) := by
      rw [pow_succ]
      omega
    rw [Nat.pow_lt_pow_iff_right (by omega)] at hpow
    omega
  have hbottom : S.bottom ≤ k := by
    by_contra hkb
    have hhalf : 2 ^ S.bottom / 2 = 2 ^ (S.bottom - 1) := by
      rw [← Nat.pow_div (by omega) (by omega), pow_one]
    have hpow : 2 ^ k ≤ 2 ^ (S.bottom - 1) := Nat.pow_le_pow_right (by omega) (by omega)
    omega
  have hsub : S.top - (S.top - k) = k := by omega
  have hdepth : S.top - k ≤ S.depth := by
    unfold depth
    omega
  refine ⟨S.top - k, ?_, ?_⟩
  · rw [requestLevel_eq_ok, size_eq_two_pow_iff hle hlt]
    exact ⟨hdepth, hsub⟩
  · rw [heq, Word.toNat_ofNat (two_pow_lt (htop.trans_lt S.top_lt)), size, hsub]

/-- Of two requests the smaller one has the deeper level. -/
theorem requestLevel_anti {small large : UInt32} {k : ℕ} (hle : small ≤ large)
    (hsmall : S.requestLevel small = .ok k) (hlarge : S.requestLevel large = .ok l) : l ≤ k := by
  rw [requestLevel_eq_ok] at hsmall hlarge
  rw [UInt32.le_iff_toNat_le] at hle
  by_contra hlt
  have hdepth : S.depth ≤ S.top := Nat.sub_le _ _
  have hpow : S.size k = S.size (k + 1) * 2 := size_eq_two_mul (by omega)
  have hmono : S.size l ≤ S.size (k + 1) := Nat.pow_le_pow_right (by omega) (by omega)
  omega

theorem nextPow2_isLeast (hpos : 1 ≤ blockSize.toNat) (hle : blockSize.toNat ≤ 2 ^ 31) :
    IsLeast {x | (∃ k, x = 2 ^ k) ∧ blockSize.toNat ≤ x} (nextPow2 blockSize).toNat := by
  have hz : blockSize ≠ 0 := by
    intro hz
    rw [hz] at hpos
    exact absurd hpos (by decide)
  obtain ⟨k, hk, heq, hsize, hlt⟩ := nextPow2_eq hz
  have hk' : k < 32 := by
    rcases hk.lt_or_eq with hk | rfl
    · exact hk
    · omega
  rw [heq, Word.toNat_ofNat (two_pow_lt hk')]
  constructor
  · exact ⟨⟨k, rfl⟩, hsize⟩
  · rintro x ⟨⟨j, rfl⟩, hx⟩
    have hpow : 2 ^ k < 2 ^ (j + 1) := by
      rw [pow_succ]
      omega
    rw [Nat.pow_lt_pow_iff_right (by omega)] at hpow
    exact Nat.pow_le_pow_right (by omega) (Nat.le_of_lt_succ hpow)

/-- Nothing is left of the sizes above `2 ^ 31`. -/
theorem nextPow2_eq_zero (h : ¬ (1 ≤ blockSize.toNat ∧ blockSize.toNat ≤ 2 ^ 31)) :
    nextPow2 blockSize = 0 := by
  by_cases hz : blockSize = 0
  · rw [hz]
    rfl
  have hpos : blockSize.toNat ≠ 0 := fun h => hz (UInt32.toNat_inj.mp h)
  obtain ⟨k, hk, heq, hsize, -⟩ := nextPow2_eq hz
  obtain rfl : k = 32 := by
    by_contra hne
    have hpow : 2 ^ k ≤ 2 ^ 31 := Nat.pow_le_pow_right (by omega) (by omega)
    omega
  rw [heq]
  rfl

theorem exists_getBlockLevel_iff :
    (∃ l, getBlockLevel S.minBlock S.levels (nextPow2 blockSize) = .ok l) ↔
      S.minBlock ≤ nextPow2 blockSize ∧ nextPow2 blockSize ≤ S.total := by
  have hbottom := S.bottom_le
  have htop := S.top_lt
  have hdepth : S.depth = S.top - S.bottom := rfl
  constructor
  · rintro ⟨l, hl⟩
    obtain ⟨hl, heq⟩ := getBlockLevel_eq_ok.mp hl
    have hlow : 2 ^ S.bottom ≤ S.size l := Nat.pow_le_pow_right (by omega) (by omega)
    have hhigh : S.size l ≤ 2 ^ S.top := Nat.pow_le_pow_right (by omega) (Nat.sub_le _ _)
    rw [heq, UInt32.le_iff_toNat_le, UInt32.le_iff_toNat_le, toNat_minBlock, toNat_total,
      Word.toNat_ofNat (S.size_lt l)]
    exact ⟨hlow, hhigh⟩
  · rintro ⟨hlow, hhigh⟩
    rw [UInt32.le_iff_toNat_le, toNat_minBlock] at hlow
    rw [UInt32.le_iff_toNat_le, toNat_total] at hhigh
    have hne : nextPow2 blockSize ≠ 0 := by
      intro hz
      rw [hz] at hlow
      exact absurd hlow (Nat.not_le.mpr (Nat.two_pow_pos _))
    have hin : 1 ≤ blockSize.toNat ∧ blockSize.toNat ≤ 2 ^ 31 :=
      not_imp_comm.mp nextPow2_eq_zero hne
    obtain ⟨⟨k, hk⟩, -⟩ := (nextPow2_isLeast hin.1 hin.2).1
    rw [hk, Nat.pow_le_pow_iff_right (by omega)] at hlow hhigh
    refine ⟨S.top - k, getBlockLevel_eq_ok.mpr ⟨by omega, ?_⟩⟩
    rw [size, show S.top - (S.top - k) = k by omega]
    exact Word.eq_ofNat hk

theorem getBlockLevel_isGreatest
    (h : getBlockLevel S.minBlock S.levels (nextPow2 blockSize) = .ok l) :
    IsGreatest {k | k < S.levels ∧ blockSize ≤ getBlockSize k S.minBlock S.levels} l := by
  have hle : ∀ {k}, k ≤ S.depth →
      (blockSize ≤ getBlockSize k S.minBlock S.levels ↔ blockSize.toNat ≤ S.size k) := by
    intro k hk
    rw [getBlockSize_eq hk, UInt32.le_iff_toNat_le, Word.toNat_ofNat (S.size_lt k)]
  obtain ⟨hl, heq⟩ := getBlockLevel_eq_ok.mp h
  obtain ⟨hlt, hfits⟩ := nextPow2_eq_size_iff.mp heq
  constructor
  · exact ⟨Nat.lt_succ_of_le hl, (hle hl).mpr hfits⟩
  · rintro k ⟨hk, hk'⟩
    have hk'' : k ≤ S.depth := Nat.le_of_lt_succ hk
    rw [hle hk''] at hk'
    have hpow : 2 ^ (S.top - l) < 2 ^ (S.top - k + 1) := by
      rw [pow_succ]
      unfold size at hlt hk'
      omega
    rw [Nat.pow_lt_pow_iff_right (by omega)] at hpow
    have htop : S.depth ≤ S.top := Nat.sub_le _ _
    omega

end Shape

/-- The level of a request and the level of a size, in an allocator of `total` bytes. -/
structure SizeClasses (total minBlockSize : UInt32) (numOfLevels : ℕ) : Prop where
  rounded : ∀ s : UInt32, 1 ≤ s.toNat → s.toNat ≤ 2 ^ 31 →
    IsLeast {x | (∃ k, x = 2 ^ k) ∧ s.toNat ≤ x} (nextPow2 s).toNat
  lost : ∀ s : UInt32, ¬ (1 ≤ s.toNat ∧ s.toNat ≤ 2 ^ 31) → nextPow2 s = 0
  served : ∀ s, (∃ l, getBlockLevel minBlockSize numOfLevels (nextPow2 s) = .ok l) ↔
    minBlockSize ≤ nextPow2 s ∧ nextPow2 s ≤ total
  level : ∀ s l, getBlockLevel minBlockSize numOfLevels (nextPow2 s) = .ok l →
    l < numOfLevels ∧ getBlockSize l minBlockSize numOfLevels = nextPow2 s ∧
    (∀ k < numOfLevels, getBlockSize k minBlockSize numOfLevels = nextPow2 s → k = l) ∧
    IsGreatest {k | k < numOfLevels ∧ s ≤ getBlockSize k minBlockSize numOfLevels} l
  size : ∀ l < numOfLevels,
    getBlockLevel minBlockSize numOfLevels (getBlockSize l minBlockSize numOfLevels) = .ok l

theorem Shape.sizeClasses (S : Shape) : SizeClasses S.total S.minBlock S.levels := by
  have hsize : ∀ {k}, k < S.levels →
      getBlockLevel S.minBlock S.levels (getBlockSize k S.minBlock S.levels) = .ok k := by
    intro k hk
    have hk' : k ≤ S.depth := Nat.le_of_lt_succ hk
    exact getBlockLevel_eq_ok.mpr ⟨hk', getBlockSize_eq hk'⟩
  constructor
  · intro s hpos hle
    exact nextPow2_isLeast hpos hle
  · intro s h
    exact nextPow2_eq_zero h
  · intro s
    exact exists_getBlockLevel_iff
  · intro s l h
    obtain ⟨hl, heq⟩ := getBlockLevel_eq_ok.mp h
    refine ⟨Nat.lt_succ_of_le hl, (getBlockSize_eq hl).trans heq.symm, ?_,
      getBlockLevel_isGreatest h⟩
    intro k hk hkeq
    have hok := hsize hk
    rw [hkeq, h] at hok
    exact (Except.ok.inj hok).symm
  · intro l hl
    exact hsize hl

/-- An allocator that was created has these levels. -/
theorem sizes_classified {cfg : BuddyAllocCfg} {heap heap' : Heap} {b : BuddyAlloc}
    (hc : (buddyAllocCreate cfg).run heap = .ok b heap') :
    SizeClasses cfg.totalMemPoolSize cfg.minBlockSize b.numOfLevels ∧
      b.minBlockSize = cfg.minBlockSize := by
  obtain ⟨S, ht, hm, hmade⟩ := buddyAllocCreate_ok hc
  have hshows := hmade.shows
  rw [ht, hm, hshows.numOfLevels, hshows.minBlockSize]
  exact ⟨S.sizeClasses, rfl⟩

theorem sizes_classified_halves : ∃ b heap,
    (buddyAllocCreate ⟨1024, 512⟩).run ⟨fun _ => true, 0, []⟩ = .ok b heap ∧
      SizeClasses 1024 512 b.numOfLevels := by
  obtain ⟨b, heap, hc⟩ : ∃ b heap,
      (buddyAllocCreate ⟨1024, 512⟩).run ⟨fun _ => true, 0, []⟩ = .ok b heap := ⟨_, _, rfl⟩
  exact ⟨b, heap, hc, (sizes_classified hc).1⟩

end FileTransfer
