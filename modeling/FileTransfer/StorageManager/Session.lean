import FileTransfer.BuddyAllocator.Create
import FileTransfer.Foundation.Run
import FileTransfer.StorageManager.StoreMngr

/-! Runs of a storage manager: blocks are allocated, freed, written and read through live
handles, in any order. -/
namespace FileTransfer
open Bisection Run

/-- A handle is the address of the object that `calloc` gave for it. -/
inductive StoreOp
  | blockAlloc (handler : Option ℕ) (fileSize : UInt32)
  | blockFree (q : ℕ)
  | blockWrite (q : ℕ) (fileBytesOffset : UInt32) (data : StoreMngrData)
  | blockRead (q : ℕ) (fileBytesOffset readSize : UInt32) (dataOut : StoreMngrData)

/-- `written` holds the byte written last through a live handle, by the offset in its block. -/
structure StoreSession where
  mngr : StoreMngr
  live : ℕ → Option StoreMngrBlock
  written : ℕ → ℕ → Option UInt8

namespace StoreSession

def start (m : StoreMngr) : StoreSession := ⟨m, fun _ => none, fun _ _ => none⟩

def overwrite (w : ℕ → Option UInt8) (pos : ℕ) (bytes : List UInt8) (i : ℕ) : Option UInt8 :=
  if pos ≤ i ∧ i < pos + bytes.length then bytes[i - pos]? else w i

variable (s : StoreSession)

def allocated (m : StoreMngr) (blk : StoreMngrBlock) : StoreSession where
  mngr := m
  live := Function.update s.live blk.addr (some blk)
  written := Function.update s.written blk.addr fun _ => none

def freed (m : StoreMngr) (q : ℕ) : StoreSession :=
  { s with mngr := m, live := Function.update s.live q none }

def wrote (m : StoreMngr) (q pos : ℕ) (bytes : List UInt8) : StoreSession :=
  { s with mngr := m, written := Function.update s.written q (overwrite (s.written q) pos bytes) }

def exec : StoreOp → StoreSession
  | .blockAlloc handler fileSize =>
    match (storeMngrBlockAlloc handler fileSize).run s.mngr with
    | .ok blk m => s.allocated m blk
    | .error _ m => { s with mngr := m }
  | .blockFree q =>
    match s.live q with
    | none => s
    | some blk =>
      match (storeMngrBlockFree blk).run s.mngr with
      | .ok _ m | .error _ m => s.freed m q
  | .blockWrite q fileBytesOffset data =>
    match s.live q with
    | none => s
    | some blk =>
      match (storeMngrBlockWrite blk fileBytesOffset data).run s.mngr with
      | .ok _ m => s.wrote m q fileBytesOffset.toNat ((data.data.getD []).take data.dataLen.toNat)
      | .error _ m => { s with mngr := m }
  | .blockRead q fileBytesOffset readSize dataOut =>
    match s.live q with
    | none => s
    | some blk =>
      match (storeMngrBlockRead blk fileBytesOffset readSize dataOut).run s.mngr with
      | .ok _ m | .error _ m => { s with mngr := m }

/-- The handles of an operation are live, a new one has an address of its own, and a buffer is
as long as its length says. -/
def Usable : StoreOp → Prop
  | .blockAlloc handler _ => ∀ q, handler = some q → s.live q = none
  | .blockFree q => s.live q ≠ none
  | .blockWrite q _ data =>
    s.live q ≠ none ∧ ∀ bytes, data.data = some bytes → data.dataLen.toNat ≤ bytes.length
  | .blockRead q _ readSize dataOut =>
    s.live q ≠ none ∧ ∀ buffer, dataOut.data = some buffer → readSize.toNat ≤ buffer.length

end StoreSession

/-! ### The blocks of the handles -/

namespace StoreMngr
variable {S : Shape} {m m' : StoreMngr} {a a' : Pool} {n : Node} {blk : StoreMngrBlock}

theorem blockOffset_eq (h : Shows S m.bAlloc a) (hi : a.Inv S.depth ∅) (hn : n ∈ a.used)
    (hs : slotOf n = blk.bAllocBlock) : m.blockOffset blk = S.offset n := by
  have hbody := h.used n hn
  simp only [BuddyAllocBlock.body, Prod.mk.injEq] at hbody
  unfold blockOffset buddyAllocGetBlockOffset
  rw [← hs, hbody.1, Word.toNat_ofNat (Shape.offset_lt (Inv_has hi (Or.inr hn)))]

theorem blockSize_eq (h : Shows S m.bAlloc a) (hi : a.Inv S.depth ∅) (hn : n ∈ a.used)
    (hs : slotOf n = blk.bAllocBlock) : m.blockSize blk = S.size n.level := by
  have hbody := h.used n hn
  simp only [BuddyAllocBlock.body, Prod.mk.injEq] at hbody
  unfold blockSize buddyAllocGetBlockLevel
  rw [← hs, hbody.2.1, h.minBlockSize, h.numOfLevels,
    Shape.getBlockSize_eq (Inv_has hi (Or.inr hn)).2, Word.toNat_ofNat (S.size_lt _)]

theorem inBlock_iff (h : Shows S m.bAlloc a) (hi : a.Inv S.depth ∅) (hn : n ∈ a.used)
    (hs : slotOf n = blk.bAllocBlock) (x : ℕ) : m.InBlock blk x ↔ S.leafAt x ≤ n := by
  unfold InBlock
  rw [blockOffset_eq h hi hn hs, blockSize_eq h hi hn hs,
    Shape.leafAt_le_iff (Inv_has hi (Or.inr hn))]

end StoreMngr

namespace StoreSession
variable {S : Shape} {s : StoreSession} {a : Pool} {q q' : ℕ} {blk blk' : StoreMngrBlock}

/-- The session shows a pool in which every live handle has a used node of its own. -/
structure Shows (S : Shape) (s : StoreSession) (a : Pool) : Prop where
  inv : a.Inv S.depth ∅
  bAlloc : FileTransfer.Shows S s.mngr.bAlloc a
  maxFileSize : s.mngr.rFileCtrl.maxFileSize.toNat = 2 ^ S.top
  live : ∀ q blk, s.live q = some blk → ∃ n ∈ a.used, slotOf n = blk.bAllocBlock
  inj : ∀ q q' blk blk', s.live q = some blk → s.live q' = some blk' →
    blk.bAllocBlock = blk'.bAllocBlock → q = q'

theorem live_allocated {m : StoreMngr} (h : (s.allocated m blk).live q' = some blk') :
    q' = blk.addr ∧ blk' = blk ∨ q' ≠ blk.addr ∧ s.live q' = some blk' := by
  dsimp only [allocated] at h
  rw [Function.update_apply] at h
  by_cases hq : q' = blk.addr
  · rw [if_pos hq] at h
    exact Or.inl ⟨hq, (Option.some.inj h).symm⟩
  · rw [if_neg hq] at h
    exact Or.inr ⟨hq, h⟩

theorem live_freed {m : StoreMngr} (h : (s.freed m q).live q' = some blk') :
    q' ≠ q ∧ s.live q' = some blk' := by
  dsimp only [freed] at h
  rw [Function.update_apply] at h
  by_cases hq : q' = q
  · rw [if_pos hq] at h
    cases h
  · rw [if_neg hq] at h
    exact ⟨hq, h⟩

namespace Shows

theorem max_lt (h : Shows S s a) : s.mngr.rFileCtrl.maxFileSize.toNat < 2 ^ 63 := by
  have := Shape.two_pow_lt S.top_lt
  rw [h.maxFileSize]
  omega

theorem inside (h : Shows S s a) (hq : s.live q = some blk) :
    s.mngr.blockOffset blk + s.mngr.blockSize blk ≤ 2 ^ S.top := by
  obtain ⟨n, hn, hs⟩ := h.live q blk hq
  rw [StoreMngr.blockOffset_eq h.bAlloc h.inv hn hs, StoreMngr.blockSize_eq h.bAlloc h.inv hn hs]
  exact Shape.offset_add_size_le (Inv_has h.inv (Or.inr hn))

/-- The blocks of two handles have no byte in common. -/
theorem apart (h : Shows S s a) (hq : s.live q = some blk) (hq' : s.live q' = some blk')
    (hne : q ≠ q') {x : ℕ} (hx : s.mngr.InBlock blk x) : ¬ s.mngr.InBlock blk' x := by
  obtain ⟨n, hn, hs⟩ := h.live q blk hq
  obtain ⟨n', hn', hs'⟩ := h.live q' blk' hq'
  intro hx'
  rw [StoreMngr.inBlock_iff h.bAlloc h.inv hn hs] at hx
  rw [StoreMngr.inBlock_iff h.bAlloc h.inv hn' hs'] at hx'
  have hroot : S.leafAt x ≤ Node.root := hx.trans (Inv_has h.inv (Or.inr hn)).1
  have hunique := (h.inv.tiles.cover (S.leafAt x) hroot rfl).unique
    ⟨Or.inr (Or.inr hn), hx⟩ ⟨Or.inr (Or.inr hn'), hx'⟩
  apply hne (h.inj q q' blk blk' hq hq' _)
  rw [← hs, ← hs', hunique]

/-- Inside of a block the position in the file does not wrap. -/
theorem totalOffset_eq (h : Shows S s a) (hq : s.live q = some blk) {offset : UInt32} {len : ℕ}
    (hin : offset.toNat + len ≤ s.mngr.blockSize blk) :
    (s.mngr.totalOffset blk offset).toNat = s.mngr.blockOffset blk + offset.toNat := by
  have hinside := h.inside hq
  have htop := Shape.two_pow_lt S.top_lt
  unfold StoreMngr.totalOffset
  unfold StoreMngr.blockOffset at *
  rw [UInt32.toNat_add]
  exact Nat.mod_eq_of_lt (by omega)

/-! ### What the operations do -/

/-- The handles that are live before and after keep their blocks. -/
def SameBlocks (s t : StoreSession) : Prop :=
  ∀ q blk, s.live q = some blk → t.live q = some blk →
    t.mngr.blockOffset blk = s.mngr.blockOffset blk ∧ t.mngr.blockSize blk = s.mngr.blockSize blk

/-- Handles whose nodes stay used keep their blocks. -/
theorem sameBlocks (h : Shows S s a) {t : StoreSession} {a' : Pool} (h' : Shows S t a')
    (hused : ∀ q blk n, s.live q = some blk → t.live q = some blk → n ∈ a.used →
      slotOf n = blk.bAllocBlock → n ∈ a'.used) : SameBlocks s t := by
  intro q blk hq hq'
  obtain ⟨n, hn, hs⟩ := h.live q blk hq
  have hn' := hused q blk n hq hq' hn hs
  rw [StoreMngr.blockOffset_eq h.bAlloc h.inv hn hs, StoreMngr.blockSize_eq h.bAlloc h.inv hn hs,
    StoreMngr.blockOffset_eq h'.bAlloc h'.inv hn' hs, StoreMngr.blockSize_eq h'.bAlloc h'.inv hn' hs]
  exact ⟨rfl, rfl⟩

/-- A new node is handed out behind a new handle. -/
theorem allocated (h : Shows S s a) {b : BuddyAlloc} {a' : Pool} {n : Node}
    (hinv : a'.Inv S.depth ∅) (hshow : FileTransfer.Shows S b a') (hnew : n ∉ a.used)
    (hused : a'.used = insert n a.used) (q : ℕ) :
    Shows S (s.allocated { s.mngr with bAlloc := b } ⟨q, slotOf n⟩) a' := by
  have hn : n ∈ a'.used := by
    rw [hused]
    exact Set.mem_insert n _
  have hin : ∀ n' ∈ a.used, n' ∈ a'.used := by
    intro n' hn'
    rw [hused]
    exact Set.mem_insert_of_mem n hn'
  have hslot : ∀ n' ∈ a.used, slotOf n' ≠ slotOf n := by
    intro n' hn' he
    have := slotOf_inj (Inv_has hinv (Or.inr (hin n' hn'))).1 (Inv_has hinv (Or.inr hn)).1 he
    exact hnew (this ▸ hn')
  refine ⟨hinv, hshow, h.maxFileSize, ?_, ?_⟩
  · intro q' blk' hq'
    rcases live_allocated hq' with ⟨-, rfl⟩ | ⟨-, hold⟩
    · exact ⟨n, hn, rfl⟩
    · obtain ⟨n', hn', hs'⟩ := h.live q' blk' hold
      exact ⟨n', hin n' hn', hs'⟩
  · intro q₁ q₂ blk₁ blk₂ h₁ h₂ hsame
    rcases live_allocated h₁ with ⟨hq₁, rfl⟩ | ⟨-, hold₁⟩
    · rcases live_allocated h₂ with ⟨hq₂, rfl⟩ | ⟨-, hold₂⟩
      · exact hq₁.trans hq₂.symm
      · obtain ⟨n', hn', hs'⟩ := h.live q₂ blk₂ hold₂
        exact absurd (hs'.trans hsame.symm) (hslot n' hn')
    · rcases live_allocated h₂ with ⟨hq₂, rfl⟩ | ⟨-, hold₂⟩
      · obtain ⟨n', hn', hs'⟩ := h.live q₁ blk₁ hold₁
        exact absurd (hs'.trans hsame) (hslot n' hn')
      · exact h.inj q₁ q₂ blk₁ blk₂ hold₁ hold₂ hsame

theorem blockAlloc (h : Shows S s a) {handler : Option ℕ} {fileSize : UInt32}
    (hop : s.Usable (.blockAlloc handler fileSize)) :
    s.exec (.blockAlloc handler fileSize) = s ∨
      ∃ q p m a', s.live q = none ∧
        s.exec (.blockAlloc handler fileSize) = s.allocated m ⟨q, p⟩ ∧
        Shows S (s.allocated m ⟨q, p⟩) a' ∧ m.rFileCtrl = s.mngr.rFileCtrl ∧
        SameBlocks s (s.allocated m ⟨q, p⟩) := by
  cases handler with
  | none => exact Or.inl rfl
  | some q =>
    rcases h.bAlloc.allocate_cases h.inv fileSize with
      ⟨e, hrun⟩ | ⟨n, b, a', hrun, hshow, hinv, hnew, hused⟩
    · left
      simp only [exec, StoreMngr.blockAlloc_run, hrun]
    · right
      have hshows := h.allocated hinv hshow hnew hused q
      refine ⟨q, slotOf n, { s.mngr with bAlloc := b }, a', hop q rfl, ?_, hshows, rfl, ?_⟩
      · simp only [exec, StoreMngr.blockAlloc_run, hrun]
      · apply h.sameBlocks hshows
        intro _ _ n' _ _ hn' _
        rw [hused]
        exact Set.mem_insert_of_mem n hn'

theorem blockFree (h : Shows S s a) (hop : s.Usable (.blockFree q)) :
    ∃ m a', s.exec (.blockFree q) = s.freed m q ∧ Shows S (s.freed m q) a' ∧
      m.rFileCtrl = s.mngr.rFileCtrl ∧ SameBlocks s (s.freed m q) := by
  obtain ⟨blk, hq⟩ := Option.ne_none_iff_exists'.mp hop
  obtain ⟨n, hn, hs⟩ := h.live q blk hq
  obtain ⟨b, hrun, hshow⟩ := h.bAlloc.free_run h.inv hn
  obtain ⟨hinv, hused⟩ := h.inv.release hn
  have hin : ∀ q' blk' n', q' ≠ q → s.live q' = some blk' → n' ∈ a.used →
      slotOf n' = blk'.bAllocBlock → n' ∈ (a.release n).used := by
    intro q' blk' n' hne hq' hn' hs'
    rw [hused]
    refine ⟨hn', ?_⟩
    rintro rfl
    exact hne (h.inj q' q blk' blk hq' hq (hs'.symm.trans hs))
  have hshows : Shows S (s.freed { s.mngr with bAlloc := b } q) (a.release n) := by
    refine ⟨hinv, hshow, h.maxFileSize, ?_, ?_⟩
    · intro q' blk' hq'
      obtain ⟨hne, hold⟩ := live_freed hq'
      obtain ⟨n', hn', hs'⟩ := h.live q' blk' hold
      exact ⟨n', hin q' blk' n' hne hold hn' hs', hs'⟩
    · intro q₁ q₂ blk₁ blk₂ h₁ h₂
      exact h.inj q₁ q₂ blk₁ blk₂ (live_freed h₁).2 (live_freed h₂).2
  refine ⟨{ s.mngr with bAlloc := b }, a.release n, ?_, hshows, rfl, ?_⟩
  · have hfree : (storeMngrBlockFree blk).run s.mngr = .ok () { s.mngr with bAlloc := b } := by
      unfold storeMngrBlockFree onBAlloc
      rw [zoom_run, ← hs, hrun]
    simp only [exec, hq, hfree]
  · exact h.sameBlocks hshows fun q' blk' n' hold hnew hn' hs' =>
      hin q' blk' n' (live_freed hnew).1 hold hn' hs'

/-- A write changes the file or nothing. -/
theorem blockWrite (h : Shows S s a) (hq : s.live q = some blk) {offset : UInt32}
    {data : StoreMngrData} (hop : s.Usable (.blockWrite q offset data)) :
    (∃ bytes, data.data = some bytes ∧ s.mngr.Admits blk offset data.dataLen ∧
      s.exec (.blockWrite q offset data) = s.wrote
        (s.mngr.writeFile (s.mngr.totalOffset blk offset).toNat (bytes.take data.dataLen.toNat))
        q offset.toNat (bytes.take data.dataLen.toNat)) ∨
    (data.data ≠ none → ¬ s.mngr.Admits blk offset data.dataLen) ∧
      s.exec (.blockWrite q offset data) = s := by
  obtain ⟨data, len⟩ := data
  by_cases hadmits : data ≠ none → ¬ s.mngr.Admits blk offset len
  · obtain ⟨e, he⟩ := StoreMngr.blockWrite_refused h.max_lt hadmits
    refine Or.inr ⟨hadmits, ?_⟩
    simp only [exec, hq, he]
  · push Not at hadmits
    obtain ⟨hdata, hadmits⟩ := hadmits
    obtain ⟨bytes, rfl⟩ := Option.ne_none_iff_exists'.mp hdata
    refine Or.inl ⟨bytes, rfl, hadmits, ?_⟩
    simp only [exec, hq, StoreMngr.blockWrite_ok h.max_lt hadmits (hop.2 bytes rfl), Option.getD_some]

theorem blockRead (q : ℕ) (offset readSize : UInt32) (dataOut : StoreMngrData) :
    s.exec (.blockRead q offset readSize dataOut) = s := by
  cases hq : s.live q with
  | none => simp only [exec, hq]
  | some blk =>
    have hkeeps := StoreMngr.blockRead_keeps blk offset readSize dataOut
    rcases hkeeps.cases s.mngr with ⟨out, hout⟩ | ⟨e, he⟩
    · simp only [exec, hq, hout]
    · simp only [exec, hq, he]

/-- One step of a run. -/
theorem exec (h : Shows S s a) {op : StoreOp} (hop : s.Usable op) :
    ∃ a', Shows S (s.exec op) a' ∧ SameBlocks s (s.exec op) := by
  have hsame : ∀ t : StoreSession, t.mngr.bAlloc = s.mngr.bAlloc → SameBlocks s t := by
    intro t ht q blk _ _
    unfold StoreMngr.blockOffset StoreMngr.blockSize
    rw [ht]
    exact ⟨rfl, rfl⟩
  cases op with
  | blockAlloc handler fileSize =>
    rcases h.blockAlloc hop with hexec | ⟨q, p, m, a', -, hexec, hshows, -, hblocks⟩
    · rw [hexec]
      exact ⟨a, h, hsame s rfl⟩
    · rw [hexec]
      exact ⟨a', hshows, hblocks⟩
  | blockFree q =>
    obtain ⟨m, a', hexec, hshows, -, hblocks⟩ := h.blockFree hop
    rw [hexec]
    exact ⟨a', hshows, hblocks⟩
  | blockWrite q offset data =>
    obtain ⟨blk, hq⟩ := Option.ne_none_iff_exists'.mp hop.1
    rcases h.blockWrite hq hop with ⟨bytes, -, -, hexec⟩ | ⟨-, hexec⟩
    · rw [hexec]
      exact ⟨a, ⟨h.inv, h.bAlloc, h.maxFileSize, h.live, h.inj⟩, hsame _ rfl⟩
    · rw [hexec]
      exact ⟨a, h, hsame s rfl⟩
  | blockRead q offset readSize dataOut =>
    rw [blockRead]
    exact ⟨a, h, hsame s rfl⟩

end Shows

/-- An allocator that was just created and a file bounded by its size show an empty pool. -/
theorem shows_start {m : StoreMngr} (hmade : Made S m.bAlloc)
    (hmax : m.rFileCtrl.maxFileSize.toNat = 2 ^ S.top) : Shows S (start m) Pool.initial := by
  refine ⟨Pool.Inv.initial S.depth, hmade.shows, hmax, ?_, ?_⟩
  · intro q blk hq
    cases hq
  · intro q q' blk blk' hq
    cases hq

/-- The bound of the file that is created for a pool. -/
theorem maxFileSize_of_create {S : Shape} {stored : Option (List UInt8)} {f : RamFile}
    {heap heap' : Heap} (hf : (ramFileCreate stored ⟨S.total.toUInt64, true⟩).run heap = .ok f heap') :
    f.maxFileSize.toNat = 2 ^ S.top := by
  obtain ⟨hmax, -⟩ := ramFileCreate_ok hf
  have htotal : S.total.toUInt64.toNat = 2 ^ S.top := by
    rw [UInt32.toNat_toUInt64, Shape.toNat_total]
  have hne : S.total.toUInt64 ≠ 0 := by
    intro hz
    rw [hz] at htotal
    exact absurd htotal (Nat.two_pow_pos S.top).ne
  rw [if_neg hne] at hmax
  rw [hmax, htotal]

theorem shows_of_start {m : StoreMngr} (hstart : Shows S (start m) a)
    (hr : Reach Usable StoreSession.exec (start m) s) : ∃ a, Shows S s a := by
  apply hr.invariant (fun s => ∃ a, Shows S s a) ⟨_, hstart⟩
  rintro s op ⟨a, h⟩ hop
  obtain ⟨a', h', -⟩ := h.exec hop
  exact ⟨a', h'⟩

end StoreSession
end FileTransfer
