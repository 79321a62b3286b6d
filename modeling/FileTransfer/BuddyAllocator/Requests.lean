import FileTransfer.Foundation.BuddyPlacement
import FileTransfer.BuddyAllocator.Rounding
import FileTransfer.BuddyAllocator.Invariants

/-! Which requests are served in a state of a run, where their blocks are placed, and what
the requests that fail leave behind. -/
namespace FileTransfer
open Bisection Run

namespace AllocSession

/-- Some aligned range of the given size inside the pool of `total` bytes meets no live handle. -/
def HasRoom (total : ℕ) (s : AllocSession) (size : ℕ) : Prop :=
  ∃ o, size ∣ o ∧ o + size ≤ total ∧ ¬ s.MeetsLive o size

/-- The block `p` that a request for `size` bytes got was cut off at the low end of a free block
of level `source`. -/
structure Placed (s : AllocSession) (size p : ℕ) (b : BuddyAlloc) (source : ℕ) : Prop where
  block : b.Active p ∧ (b.block p).isAllocated = true ∧ s.live p = none
  size_eq : s.alloc.blockSize (b.block p).level = size
  aligned : size ∣ (b.block p).offset.toNat
  cut : s.alloc.FreeAt source (b.block p).offset.toNat ∧ source ≤ (b.block p).level
  smallest : ∀ l o, s.alloc.FreeAt l o → size ≤ s.alloc.blockSize l →
    s.alloc.blockSize source ≤ s.alloc.blockSize l
  free : ∀ l o, b.FreeAt l o ↔
    s.alloc.FreeAt l o ∧ ¬ (l = source ∧ o = (b.block p).offset.toNat) ∨
      source < l ∧ l ≤ (b.block p).level ∧ o = (b.block p).offset.toNat + s.alloc.blockSize l
  live : ∀ q, s.live q ≠ none → (b.block q).body = (s.alloc.block q).body

/-- The answer to a request for `size` bytes. -/
def Answered (total : ℕ) (s : AllocSession) (size : ℕ) :
    EStateM.Result Errno BuddyAlloc ℕ → Prop
  | .ok p b => s.HasRoom total size ∧ ∃ source, s.Placed size p b source
  | .error e b => ¬ s.HasRoom total size ∧ e = .ENFILE ∧ b = s.alloc

namespace Shows
variable {S : Shape} {s : AllocSession} {a a' : Pool} {b : BuddyAlloc} {l : ℕ} {t : Node}

/-- A node that is not used has no live handle. -/
theorem live_eq_none (h : Shows S s a) (ht : S.Has t) (htu : t ∉ a.used) :
    s.live (slotOf t) = none := by
  by_contra hlive
  obtain ⟨m, hm, hs⟩ := h.exists_used hlive
  have hmt : m ≠ t := by
    intro he
    exact htu (he ▸ hm)
  exact h.slotOf_ne hm ht hmt hs

theorem hasRoom_iff (h : Shows S s a) (hl : l ≤ S.depth) :
    s.HasRoom (2 ^ S.top) (S.size l) ↔ a.alloc l ≠ none := by
  rw [h.inv.alloc_ne_none_iff hl]
  constructor
  · intro hroom
    obtain ⟨o, hdvd, hle, hmeet⟩ := hroom
    have hhas := Shape.has_nodeOf hl hle
    refine ⟨S.nodeOf l o, hhas.1, rfl, fun u hu ho => hmeet ?_⟩
    have hnode := (h.meetsLive_iff hhas).mpr ⟨u, hu, ho⟩
    rwa [Shape.offset_nodeOf hdvd] at hnode
  · intro hex
    obtain ⟨n, hn, rfl, hno⟩ := hex
    have hhas : S.Has n := ⟨hn, hl⟩
    refine ⟨S.offset n, Dvd.intro_left _ rfl, Shape.offset_add_size_le hhas, ?_⟩
    rw [h.meetsLive_iff hhas]
    intro hex
    obtain ⟨u, hu, ho⟩ := hex
    exact hno u hu ho

/-- The parts that are cut off, by their offsets. -/
theorem mem_offcuts_iff {n m : Node} (hl : l ≤ S.depth) :
    m ∈ Node.offcuts l n ↔
      n.level < m.level ∧ m.level ≤ l ∧ S.offset m = S.offset n + S.size m.level := by
  have hdepth : S.depth ≤ S.top := Nat.sub_le _ _
  rw [Node.mem_offcuts]
  refine and_congr_right fun hlt => and_congr_right fun hle => ?_
  have hfirst : (Node.firstLeaf (m.level - 1) n).level = m.level - 1 := rfl
  have hlevel : m.level - 1 + 1 = m.level := by omega
  have hoffset : S.offset (Node.firstLeaf (m.level - 1) n).right = S.offset n + S.size m.level := by
    rw [Shape.offset_right (by omega), Shape.offset_firstLeaf (by omega) (by omega), hfirst, hlevel]
  constructor
  · intro he
    rw [← hoffset, ← he]
  · intro ho
    apply Shape.eq_of_offset_eq
    · rw [Node.level_right, hfirst, hlevel]
    · rw [ho, hoffset]

/-- No free block that is large enough is smaller than one of the nearest level. -/
theorem blockSize_le_of_near (h : Shows S s a) {n : Node} (hl : l ≤ S.depth)
    (hn : n ∈ a.freeNodes) (hnear : ∀ m ∈ a.freeNodes, m.level ≤ l → m.level ≤ n.level) {k o : ℕ}
    (hk : s.alloc.FreeAt k o) (hle : S.size l ≤ s.alloc.blockSize k) :
    s.alloc.blockSize n.level ≤ s.alloc.blockSize k := by
  obtain ⟨m, hm, rfl, -⟩ := (h.alloc.freeAt_iff h.inv).mp hk
  have hm' := Inv_has h.inv (Or.inl hm)
  have htop : l ≤ S.top := hl.trans (Nat.sub_le _ _)
  rw [h.alloc.blockSize_eq hm'.2] at hle ⊢
  rw [h.alloc.blockSize_eq (Inv_has h.inv (Or.inl hn)).2]
  have hml : m.level ≤ l := by
    unfold Shape.size at hle
    rw [Nat.pow_le_pow_iff_right (by omega)] at hle
    have := Shape.level_le_top hm'
    omega
  have := hnear m hm hml
  exact Nat.pow_le_pow_right (by omega) (by omega)

/-- The free blocks after the block of a node was cut up. -/
theorem freeAt_offcuts_iff (h : Shows S s a) (hb : FileTransfer.Shows S b a')
    (hinv : a'.Inv S.depth ∅) {n : Node} (hl : l ≤ S.depth)
    (hfree : a'.freeNodes = Node.offcuts l n ∪ a.freeNodes \ {n}) (k o : ℕ) :
    b.FreeAt k o ↔ s.alloc.FreeAt k o ∧ ¬ (k = n.level ∧ o = S.offset n) ∨
      n.level < k ∧ k ≤ l ∧ o = S.offset n + s.alloc.blockSize k := by
  rw [hb.freeAt_iff hinv, h.alloc.freeAt_iff h.inv, hfree]
  constructor
  · intro hex
    obtain ⟨m, hm, rfl, rfl⟩ := hex
    rcases hm with hm | hm
    · right
      rw [mem_offcuts_iff hl] at hm
      rw [h.alloc.blockSize_eq (hm.2.1.trans hl)]
      exact hm
    · left
      refine ⟨⟨m, hm.1, rfl, rfl⟩, fun he => hm.2 ?_⟩
      exact Shape.eq_of_offset_eq he.1 he.2
  · intro hor
    rcases hor with ⟨⟨m, hm, rfl, rfl⟩, hne⟩ | ⟨hlt, hle, ho⟩
    · refine ⟨m, Or.inr ⟨hm, ?_⟩, rfl, rfl⟩
      rintro rfl
      exact hne ⟨rfl, rfl⟩
    · have hright : (Node.firstLeaf (k - 1) n).right.level = k := by
        rw [Node.level_right, show (Node.firstLeaf (k - 1) n).level = k - 1 from rfl]
        omega
      have hmem : (Node.firstLeaf (k - 1) n).right ∈ Node.offcuts l n := by
        rw [Node.mem_offcuts, hright]
        exact ⟨hlt, hle, rfl⟩
      refine ⟨_, Or.inl hmem, hright, ?_⟩
      rw [((mem_offcuts_iff hl).mp hmem).2.2, hright, ho, h.alloc.blockSize_eq (hle.trans hl)]

theorem placed (h : Shows S s a) (hl : l ≤ S.depth) (ha : a.alloc l = some (t, a'))
    (hb : FileTransfer.Shows S b a') : ∃ source, s.Placed (S.size l) (slotOf t) b source := by
  obtain ⟨hinv, htl, htu, hused⟩ := h.inv.alloc hl ha
  obtain ⟨n, hn, hnl, hnear, htn, hfree⟩ := h.inv.alloc_placed ha
  have ht : t ∈ a'.used := by
    rw [hused]
    exact Set.mem_insert t _
  have ht' : t ∈ a'.freeNodes ∪ a'.used := Or.inr ht
  have hlevel : (b.block (slotOf t)).level = l := by rw [(hb.block_eq ht').2, htl]
  have hoffset : (b.block (slotOf t)).offset.toNat = S.offset n := by
    rw [hb.offset_toNat hinv ht', htn, Shape.offset_firstLeaf hnl (hl.trans (Nat.sub_le _ _))]
  refine ⟨n.level, ?_, ?_, ?_, ?_, ?_, ?_, ?_⟩
  · exact ⟨(hb.active_iff hinv).mpr ⟨t, ht', rfl⟩, (hb.isAllocated_iff ht').mpr ht,
      h.live_eq_none (Inv_has hinv (Or.inr ht)) htu⟩
  · rw [hlevel, h.alloc.blockSize_eq hl]
  · rw [hb.offset_toNat hinv ht', Shape.offset, htl]
    exact Nat.dvd_mul_left _ _
  · rw [hoffset, hlevel, h.alloc.freeAt_iff h.inv]
    exact ⟨⟨n, hn, rfl, rfl⟩, hnl⟩
  · intro k o hk hle
    exact h.blockSize_le_of_near hl hn hnear hk hle
  · intro k o
    rw [hoffset, hlevel]
    exact h.freeAt_offcuts_iff hb hinv hl hfree k o
  · intro q hq
    obtain ⟨m, hm, rfl⟩ := h.exists_used hq
    have hm' : m ∈ a'.used := by
      rw [hused]
      exact Set.mem_insert_of_mem t hm
    rw [hb.used m hm', h.alloc.used m hm]

theorem answered (h : Shows S s a) {blockSize : UInt32} (hreq : S.requestLevel blockSize = .ok l) :
    s.Answered (2 ^ S.top) (S.size l) ((buddyAllocAllocate blockSize).run s.alloc) := by
  have hl := Shape.requestLevel_le hreq
  have hrun := h.alloc.allocate_run h.inv blockSize
  have hroom := h.hasRoom_iff hl
  simp only [hreq] at hrun
  cases ha : a.alloc l with
  | none =>
    simp only [ha] at hrun
    rw [hrun]
    refine ⟨?_, rfl, rfl⟩
    rw [hroom, ha]
    exact fun hne => hne rfl
  | some r =>
    obtain ⟨t, a'⟩ := r
    simp only [ha] at hrun
    obtain ⟨b, hb, hshow⟩ := hrun
    rw [hb]
    refine ⟨?_, h.placed hl ha hshow⟩
    rw [hroom, ha]
    exact Option.some_ne_none _

end Shows

/-- A request that is not too small is served exactly if there is room for it. -/
theorem Shows.answer_request {S : Shape} {s : AllocSession} {a : Pool} (h : Shows S s a)
    {blockSize : UInt32} (hlow : 2 ^ S.bottom / 2 < blockSize.toNat)
    (hhigh : blockSize.toNat ≤ 2 ^ S.top) :
    blockSize.toNat ≤ (nextPow2 blockSize).toNat ∧
      (nextPow2 blockSize).toNat < 2 * blockSize.toNat ∧
      s.Answered (2 ^ S.top) (nextPow2 blockSize).toNat
        ((buddyAllocAllocate blockSize).run s.alloc) := by
  obtain ⟨l, hreq, hsize⟩ := Shape.exists_requestLevel hlow hhigh
  obtain ⟨-, hlt, hle⟩ := Shape.requestLevel_eq_ok.mp hreq
  rw [hsize]
  exact ⟨hle, hlt, h.answered hreq⟩

/-! ### No request and no release fails halfway -/

theorem Shows.allocate_error {S : Shape} {s : AllocSession} {a : Pool} (h : Shows S s a)
    {blockSize : UInt32} {e : Errno} {b : BuddyAlloc}
    (hrun : (buddyAllocAllocate blockSize).run s.alloc = .error e b) : b = s.alloc := by
  rcases h.alloc.allocate_cases h.inv blockSize with ⟨e', he⟩ | ⟨n, b', a', hok, -⟩
  · rw [he] at hrun
    cases hrun
    rfl
  · rw [hok] at hrun
    cases hrun

theorem Shows.splitBlockDown_ok {S : Shape} {s : AllocSession} {a : Pool} (h : Shows S s a)
    {source l : ℕ} (hl : l < s.alloc.numOfLevels) (hempty : s.alloc.freeList l = none)
    (hfind : findNonEmptyLevel s.alloc l = .ok source) :
    ∃ p b, (splitBlockDown source l).run s.alloc = .ok p b := by
  rw [h.alloc.numOfLevels] at hl
  rw [h.alloc.head_eq_none_iff] at hempty
  rw [h.alloc.findNonEmptyLevel_eq] at hfind
  cases hf : a.findLevel l with
  | none =>
    rw [hf] at hfind
    cases hfind
  | some k =>
    rw [hf, Except.ok.injEq] at hfind
    subst hfind
    obtain ⟨hkl, hne, -⟩ := Pool.findLevel_eq_some hf
    have hlt : k < l := by
      rcases hkl.lt_or_eq with hlt | rfl
      · exact hlt
      · exact absurd hempty hne
    cases hs : a.free k with
    | nil => exact absurd hs hne
    | cons n rest =>
      obtain ⟨b, hrun, -⟩ := h.alloc.splitBlockDown_run h.inv hlt (Nat.le_of_lt_succ hl) hs
      exact ⟨_, b, hrun⟩

/-- A request that fails changes nothing, a release of a live handle does not fail, and neither
does the splitting of the block that the search for a level finds. -/
theorem operations_atomic {cfg : BuddyAllocCfg} {heap heap' : Heap} {b : BuddyAlloc}
    {s : AllocSession} (hc : (buddyAllocCreate cfg).run heap = .ok b heap')
    (hr : Reach onLive exec (start b) s) :
    (∀ blockSize e b', (buddyAllocAllocate blockSize).run s.alloc = .error e b' → b' = s.alloc) ∧
      (∀ p, s.live p ≠ none → ∃ b', (buddyAllocFree p).run s.alloc = .ok () b') ∧
      ∀ l source, l < s.alloc.numOfLevels → s.alloc.freeList l = none →
        findNonEmptyLevel s.alloc l = .ok source →
          ∃ p b', (splitBlockDown source l).run s.alloc = .ok p b' := by
  obtain ⟨S, -, -, a, h⟩ := shows_of_reach hc hr
  refine ⟨fun _ _ _ => h.allocate_error, ?_, fun _ _ => h.splitBlockDown_ok⟩
  intro p hp
  obtain ⟨n, hn, rfl⟩ := h.exists_used hp
  obtain ⟨b', hrun, -⟩ := h.alloc.free_run h.inv hn
  exact ⟨b', hrun⟩

theorem operations_atomic_halves : ∃ b heap s,
    (buddyAllocCreate ⟨1024, 512⟩).run ⟨fun _ => true, 0, []⟩ = .ok b heap ∧
      Reach onLive exec (start b) s ∧ s.returned = [1, 2, 1] ∧
      ∀ blockSize e b', (buddyAllocAllocate blockSize).run s.alloc = .error e b' → b' = s.alloc := by
  obtain ⟨b, heap, hc, hall, hreturned⟩ : ∃ b heap,
      (buddyAllocCreate ⟨1024, 512⟩).run ⟨fun _ => true, 0, []⟩ = .ok b heap ∧
        Allowed onLive exec (start b) halves ∧
        (halves.foldl exec (start b)).returned = [1, 2, 1] :=
    ⟨_, _, rfl, by decide +kernel, by decide +kernel⟩
  have hr := Reach.start.foldl halves hall
  exact ⟨b, heap, _, hc, hr, hreturned, (operations_atomic hc hr).1⟩

/-! ### Smaller requests -/

theorem Shows.allocate_ok_iff {S : Shape} {s : AllocSession} {a : Pool} (h : Shows S s a)
    {blockSize : UInt32} : (∃ p b, (buddyAllocAllocate blockSize).run s.alloc = .ok p b) ↔
      ∃ l, S.requestLevel blockSize = .ok l ∧ a.alloc l ≠ none := by
  have hrun := h.alloc.allocate_run h.inv blockSize
  cases hreq : S.requestLevel blockSize with
  | error e =>
    simp only [hreq] at hrun
    simp [hrun]
  | ok l =>
    simp only [hreq] at hrun
    cases ha : a.alloc l with
    | none =>
      simp only [ha] at hrun
      simp [hrun, ha]
    | some r =>
      simp only [ha] at hrun
      obtain ⟨b, hb, -⟩ := hrun
      simp [hb, ha]

/-- Where a request is served, a smaller one is, down to half of a smallest block. -/
theorem Shows.serve_smaller {S : Shape} {s : AllocSession} {a : Pool} (h : Shows S s a)
    {small large : UInt32} (hlow : 2 ^ S.bottom / 2 < small.toNat) (hle : small ≤ large)
    (hlarge : ∃ p b', (buddyAllocAllocate large).run s.alloc = .ok p b') :
    ∃ p b', (buddyAllocAllocate small).run s.alloc = .ok p b' := by
  obtain ⟨l, hreq, ha⟩ := h.allocate_ok_iff.mp hlarge
  have hhigh : small.toNat ≤ 2 ^ S.top :=
    calc small.toNat ≤ large.toNat := UInt32.le_iff_toNat_le.mp hle
      _ ≤ S.size l := (Shape.requestLevel_eq_ok.mp hreq).2.2
      _ ≤ 2 ^ S.top := Nat.pow_le_pow_right (by omega) (Nat.sub_le _ _)
  obtain ⟨k, hk, -⟩ := Shape.exists_requestLevel hlow hhigh
  exact h.allocate_ok_iff.mpr ⟨k, hk, Pool.alloc_ne_none_of_le (Shape.requestLevel_anti hle hk hreq) ha⟩

end AllocSession
end FileTransfer
