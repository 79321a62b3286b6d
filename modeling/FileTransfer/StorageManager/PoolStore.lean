import FileTransfer.BuddyAllocator.PoolSession
import FileTransfer.StorageManager.ReadBack

/-! The storage manager of `store_mngr.c` over the words of the allocator's pool, and its runs. In
a pool of at most 27 levels they are the runs over the slots. -/
namespace FileTransfer.PoolMemory
open Agreement Run

structure StoreMngr where
  addr : ℕ
  bAlloc : BuddyAlloc
  rFileCtrl : RamFile

/-- As `FileTransfer.storeMngrCreate`, where `calloc` puts the array of slots at the given place. -/
def storeMngrCreate (elementsArray : Location) (stored : Option (List UInt8)) (cfg : StoreMngrCfg) :
    HeapCall StoreMngr := do
  match ← request with
  | none => throw .ENOMEM
  | some addr =>
    match ← attempt (buddyAllocCreate elementsArray ⟨cfg.totalSize, cfg.minimumBlockSize⟩) with
    | .error e =>
      access addr
      release addr
      throw e
    | .ok bAlloc =>
      match ← attempt (ramFileCreate stored ⟨cfg.totalSize.toUInt64, true⟩) with
      | .error e =>
        access addr
        buddyAllocDestroy bAlloc
        access addr
        release addr
        throw e
      | .ok rFileCtrl => return ⟨addr, bAlloc, rFileCtrl⟩

/-- The allocator and the file of a manager were created. -/
theorem storeMngrCreate_parts {elementsArray : Location} {stored : Option (List UInt8)}
    {cfg : StoreMngrCfg} {m : StoreMngr} {heap heap' : Heap}
    (hc : (storeMngrCreate elementsArray stored cfg).run heap = .ok m heap') :
    (∃ h₁ h₂, (buddyAllocCreate elementsArray ⟨cfg.totalSize, cfg.minimumBlockSize⟩).run h₁ =
        .ok m.bAlloc h₂) ∧
      ∃ h₁ h₂, (ramFileCreate stored ⟨cfg.totalSize.toUInt64, true⟩).run h₁ =
        .ok m.rFileCtrl h₂ := by
  rcases request_bind_ok hc with ⟨addr, h₁, hc⟩ | ⟨h₁, hc⟩
  · rcases attempt_bind_ok hc with ⟨b, h₂, hb, hc⟩ | ⟨e, h₂, -, hc⟩
    · rcases attempt_bind_ok hc with ⟨f, h₃, hf, hc⟩ | ⟨e, h₃, -, hc⟩
      · cases hc
        exact ⟨⟨_, _, hb⟩, _, _, hf⟩
      · obtain ⟨_, _, _, hdestroy⟩ := bind_ok hc
        obtain ⟨_, _, _, herr⟩ := bind_ok hdestroy
        cases herr
    · cases hc
  · cases hc

def onBAlloc {α : Type} : Call BuddyAlloc α → Call StoreMngr α :=
  zoom (·.bAlloc) fun m bAlloc => { m with bAlloc }

def onRFileCtrl {α : Type} : Call RamFile α → Call StoreMngr α :=
  zoom (·.rFileCtrl) fun m rFileCtrl => { m with rFileCtrl }

/-- `handler` is what `calloc` gives for the handle. -/
def storeMngrBlockAlloc (handler : Option ℕ) (fileSize : UInt32) :
    Call StoreMngr StoreMngrBlock := do
  match handler with
  | none => throw .ENOMEM
  | some addr =>
    let bAllocBlock ← onBAlloc (buddyAllocAllocate fileSize)
    return ⟨addr, bAllocBlock⟩

/-- The handle is released whatever `buddy_alloc_free` returns. -/
def storeMngrBlockFree (blk : StoreMngrBlock) : Call StoreMngr Unit :=
  onBAlloc (buddyAllocFree blk.bAllocBlock)

def storeMngrBlockWrite (blk : StoreMngrBlock) (fileBytesOffset : UInt32) (data : StoreMngrData) :
    Call StoreMngr Unit := do
  let blockOffset ← onBAlloc (buddyAllocGetBlockOffset blk.bAllocBlock)
  let totalOffset := blockOffset + fileBytesOffset
  onRFileCtrl (ramFileWrite totalOffset.toUInt64 data.data data.dataLen.toUInt64)

/-- Gives what `*data_out` holds afterwards. -/
def storeMngrBlockRead (blk : StoreMngrBlock) (fileBytesOffset readSize : UInt32)
    (dataOut : StoreMngrData) : Call StoreMngr StoreMngrData := do
  let blockOffset ← onBAlloc (buddyAllocGetBlockOffset blk.bAllocBlock)
  let totalOffset := blockOffset + fileBytesOffset
  let out ← onRFileCtrl (ramFileRead totalOffset.toUInt64 dataOut.data readSize.toUInt64)
  return ⟨some out, readSize⟩

namespace StoreMngr
variable (m : StoreMngr) (blk : StoreMngrBlock)

/-- What the words at the block of a handle say of it. -/
def body : UInt32 × ℕ × Bool × Bool := decodeBody (m.bAlloc.memPool.words (blk.bAllocBlock + 16))

/-- Where the block of a handle starts in the file, and its size. -/
def blockOffset : ℕ := (m.body blk).1.toNat

def blockSize : ℕ :=
  (getBlockSize (m.body blk).2.1 m.bAlloc.minBlockSize m.bAlloc.numOfLevels).toNat

/-- The position `x` of the file lies in the block of the handle. -/
def InBlock (x : ℕ) : Prop := m.blockOffset blk ≤ x ∧ x < m.blockOffset blk + m.blockSize blk

instance : DecidablePred (m.InBlock blk) := fun x =>
  inferInstanceAs (Decidable (m.blockOffset blk ≤ x ∧ x < m.blockOffset blk + m.blockSize blk))

end StoreMngr

/-- `written` holds the byte written last through a live handle, by the offset in its block. -/
structure StoreSession where
  mngr : StoreMngr
  live : ℕ → Option StoreMngrBlock
  written : ℕ → ℕ → Option UInt8

namespace StoreSession

def start (m : StoreMngr) : StoreSession := ⟨m, fun _ => none, fun _ _ => none⟩

variable (s : StoreSession)

def allocated (m : StoreMngr) (blk : StoreMngrBlock) : StoreSession where
  mngr := m
  live := Function.update s.live blk.addr (some blk)
  written := Function.update s.written blk.addr fun _ => none

def freed (m : StoreMngr) (q : ℕ) : StoreSession :=
  { s with mngr := m, live := Function.update s.live q none }

def wrote (m : StoreMngr) (q pos : ℕ) (bytes : List UInt8) : StoreSession :=
  { s with
    mngr := m
    written := Function.update s.written q
      (FileTransfer.StoreSession.overwrite (s.written q) pos bytes) }

def exec : StoreOp → StoreSession
  | .blockAlloc handler fileSize =>
    match (storeMngrBlockAlloc handler fileSize).run s.mngr with
    | .ok blk m => s.allocated m blk
    | .error _ m => { s with mngr := m }
  | .blockFree q =>
    match s.live q with
    | none => s
    | some blk =>
      match (storeMngrBlockFree blk).run s.mngr with
      | .ok _ m | .error _ m => s.freed m q
  | .blockWrite q fileBytesOffset data =>
    match s.live q with
    | none => s
    | some blk =>
      match (storeMngrBlockWrite blk fileBytesOffset data).run s.mngr with
      | .ok _ m => s.wrote m q fileBytesOffset.toNat ((data.data.getD []).take data.dataLen.toNat)
      | .error _ m => { s with mngr := m }
  | .blockRead q fileBytesOffset readSize dataOut =>
    match s.live q with
    | none => s
    | some blk =>
      match (storeMngrBlockRead blk fileBytesOffset readSize dataOut).run s.mngr with
      | .ok _ m | .error _ m => { s with mngr := m }

/-- The handles of an operation are live, a new one has an address of its own, and a buffer is
as long as its length says. -/
def Usable : StoreOp → Prop
  | .blockAlloc handler _ => ∀ q, handler = some q → s.live q = none
  | .blockFree q => s.live q ≠ none
  | .blockWrite q _ data =>
    s.live q ≠ none ∧ ∀ bytes, data.data = some bytes → data.dataLen.toNat ≤ bytes.length
  | .blockRead q _ readSize dataOut =>
    s.live q ≠ none ∧ ∀ buffer, dataOut.data = some buffer → readSize.toNat ≤ buffer.length

/-- An access of `len` bytes, more than none, that a buffer has and the block of the handle has. -/
def Inside (q : ℕ) (offset len : UInt32) (data : Option (List UInt8)) : Prop :=
  ∃ blk bytes, s.live q = some blk ∧ data = some bytes ∧ 0 < len.toNat ∧ len.toNat ≤ bytes.length ∧
    offset.toNat + len.toNat ≤ s.mngr.blockSize blk

/-- Every access stays inside of its block. -/
def Tame : StoreOp → Prop
  | .blockAlloc handler _ => ∀ q, handler = some q → s.live q = none
  | .blockFree q => s.live q ≠ none
  | .blockWrite q offset data => s.Inside q offset data.dataLen data.data
  | .blockRead q offset readSize dataOut => s.Inside q offset readSize dataOut.data

instance : DecidablePred s.Usable
  | .blockAlloc handler _ => inferInstanceAs (Decidable (∀ q ∈ handler, s.live q = none))
  | .blockFree q => inferInstanceAs (Decidable (s.live q ≠ none))
  | .blockWrite q _ data => inferInstanceAs
    (Decidable (s.live q ≠ none ∧ ∀ bytes ∈ data.data, data.dataLen.toNat ≤ bytes.length))
  | .blockRead q _ readSize dataOut => inferInstanceAs
    (Decidable (s.live q ≠ none ∧ ∀ buffer ∈ dataOut.data, readSize.toNat ≤ buffer.length))

instance (q : ℕ) (offset len : UInt32) (data : Option (List UInt8)) :
    Decidable (s.Inside q offset len data) :=
  decidable_of_iff (∃ blk ∈ s.live q, ∃ bytes ∈ data, 0 < len.toNat ∧ len.toNat ≤ bytes.length ∧
    offset.toNat + len.toNat ≤ s.mngr.blockSize blk)
    ⟨fun ⟨blk, hq, bytes, hdata, h⟩ => ⟨blk, bytes, hq, hdata, h⟩,
      fun ⟨blk, bytes, hq, hdata, h⟩ => ⟨blk, hq, bytes, hdata, h⟩⟩

instance : DecidablePred s.Tame
  | .blockAlloc handler _ => inferInstanceAs (Decidable (∀ q ∈ handler, s.live q = none))
  | .blockFree q => inferInstanceAs (Decidable (s.live q ≠ none))
  | .blockWrite q offset data => inferInstanceAs
    (Decidable (s.Inside q offset data.dataLen data.data))
  | .blockRead q offset readSize dataOut => inferInstanceAs
    (Decidable (s.Inside q offset readSize dataOut.data))

end StoreSession

/-! ### Operations over the words and over the slots -/

/-- The same handle, over the words and over the slots. -/
def SameHandle (A : Layout) : Option StoreMngrBlock → Option StoreMngrBlock → Prop
  | none, none => True
  | some blk, some blk' =>
    blk.addr = blk'.addr ∧ A.Pointer blk.bAllocBlock (some blk'.bAllocBlock)
  | _, _ => False

namespace StoreMngr

structure Encodes (A : Layout) (m : StoreMngr) (m' : FileTransfer.StoreMngr) : Prop where
  bAlloc : PoolMemory.Encodes A m.bAlloc m'.bAlloc
  rFileCtrl : m.rFileCtrl = m'.rFileCtrl

namespace Encodes
variable {A : Layout} {m : StoreMngr} {m' : FileTransfer.StoreMngr} {α β : Type}
  {Q : α → β → Prop} {blk blk' : StoreMngrBlock}

theorem onBAlloc_agree (h : Encodes A m m') {x : Call BuddyAlloc α}
    {y : Call FileTransfer.BuddyAlloc β}
    (hxy : Agree (PoolMemory.Encodes A) Q (x.run m.bAlloc) (y.run m'.bAlloc)) :
    Agree (Encodes A) Q ((onBAlloc x).run m) ((FileTransfer.onBAlloc y).run m') := by
  rw [onBAlloc, FileTransfer.onBAlloc, zoom_run, zoom_run]
  cases hx : x.run m.bAlloc with
  | ok a b =>
    rw [hx] at hxy
    obtain ⟨a', c, hy, henc, hQ⟩ := hxy.exists_right
    rw [hy]
    exact .ok ⟨henc, h.rFileCtrl⟩ hQ
  | error e b =>
    rw [hx] at hxy
    obtain ⟨c, hy, henc⟩ := hxy.error_right
    rw [hy]
    exact .error ⟨henc, h.rFileCtrl⟩

theorem onRFileCtrl_agree (h : Encodes A m m') (x : Call RamFile α) :
    Agree (Encodes A) Eq ((onRFileCtrl x).run m) ((FileTransfer.onRFileCtrl x).run m') := by
  rw [onRFileCtrl, FileTransfer.onRFileCtrl, zoom_run, zoom_run, h.rFileCtrl]
  cases x.run m'.rFileCtrl with
  | ok a f => exact .ok ⟨h.bAlloc, rfl⟩ rfl
  | error e f => exact .error ⟨h.bAlloc, rfl⟩

theorem blockAlloc_agree (h : Encodes A m m') (hlevels : 0 < A.levels) (handler : Option ℕ)
    (fileSize : UInt32) :
    Agree (Encodes A) (fun blk blk' => SameHandle A (some blk) (some blk'))
      ((storeMngrBlockAlloc handler fileSize).run m)
      ((FileTransfer.storeMngrBlockAlloc handler fileSize).run m') := by
  cases handler with
  | none => exact .error h
  | some q =>
    refine (h.onBAlloc_agree (h.bAlloc.allocate_agree hlevels fileSize)).bind ?_
    intro p i m₁ m₁' h₁ hpi
    exact .ok h₁ ⟨rfl, hpi⟩

theorem blockFree_agree (h : Encodes A m m') (hblk : SameHandle A (some blk) (some blk')) :
    Agree (Encodes A) Eq ((storeMngrBlockFree blk).run m)
      ((FileTransfer.storeMngrBlockFree blk').run m') := by
  obtain ⟨-, hi, hp⟩ := hblk
  rw [storeMngrBlockFree, FileTransfer.storeMngrBlockFree, hp]
  exact h.onBAlloc_agree (h.bAlloc.free_agree hi)

/-- The offset of a block is read, and nothing changes. -/
theorem getBlockOffset_run (h : Encodes A m m') (hblk : SameHandle A (some blk) (some blk')) :
    (onBAlloc (buddyAllocGetBlockOffset blk.bAllocBlock)).run m =
      .ok (FileTransfer.buddyAllocGetBlockOffset m'.bAlloc blk'.bAllocBlock) m := by
  obtain ⟨-, hi, hp⟩ := hblk
  rw [onBAlloc, zoom_run, buddyAllocGetBlockOffset, hp, h.bAlloc.getOffset_run hi]
  rfl

theorem blockWrite_agree (h : Encodes A m m') (hblk : SameHandle A (some blk) (some blk'))
    (offset : UInt32) (data : StoreMngrData) :
    Agree (Encodes A) Eq ((storeMngrBlockWrite blk offset data).run m)
      ((FileTransfer.storeMngrBlockWrite blk' offset data).run m') := by
  rw [storeMngrBlockWrite, FileTransfer.storeMngrBlockWrite, EStateM.run_bind,
    h.getBlockOffset_run hblk, EStateM.run_bind, EStateM.run_get]
  exact h.onRFileCtrl_agree _

theorem blockRead_agree (h : Encodes A m m') (hblk : SameHandle A (some blk) (some blk'))
    (offset readSize : UInt32) (dataOut : StoreMngrData) :
    Agree (Encodes A) Eq ((storeMngrBlockRead blk offset readSize dataOut).run m)
      ((FileTransfer.storeMngrBlockRead blk' offset readSize dataOut).run m') := by
  rw [storeMngrBlockRead, FileTransfer.storeMngrBlockRead, EStateM.run_bind,
    h.getBlockOffset_run hblk, EStateM.run_bind, EStateM.run_get]
  refine (h.onRFileCtrl_agree _).bind ?_
  rintro out _ m₁ m₁' h₁ rfl
  exact .ok h₁ rfl

theorem body_eq (h : Encodes A m m') (hblk : SameHandle A (some blk) (some blk')) :
    m.body blk = (m'.bAlloc.block blk'.bAllocBlock).body := by
  obtain ⟨-, hi, hp⟩ := hblk
  rw [StoreMngr.body, hp]
  exact (h.bAlloc.block _ hi).body

theorem blockOffset_eq (h : Encodes A m m') (hblk : SameHandle A (some blk) (some blk')) :
    m.blockOffset blk = m'.blockOffset blk' := by
  rw [StoreMngr.blockOffset, h.body_eq hblk]
  rfl

theorem blockSize_eq (h : Encodes A m m') (hblk : SameHandle A (some blk) (some blk')) :
    m.blockSize blk = m'.blockSize blk' := by
  rw [StoreMngr.blockSize, h.body_eq hblk, h.bAlloc.minBlockSize, h.bAlloc.numOfLevels]
  rfl

theorem inBlock_iff (h : Encodes A m m') (hblk : SameHandle A (some blk) (some blk')) (x : ℕ) :
    m.InBlock blk x ↔ m'.InBlock blk' x := by
  rw [StoreMngr.InBlock, FileTransfer.StoreMngr.InBlock, h.blockOffset_eq hblk, h.blockSize_eq hblk]

end Encodes
end StoreMngr

/-! ### Runs over the words and over the slots -/

namespace StoreSession

structure Encodes (A : Layout) (s : StoreSession) (t : FileTransfer.StoreSession) : Prop where
  mngr : StoreMngr.Encodes A s.mngr t.mngr
  live : ∀ q, SameHandle A (s.live q) (t.live q)
  written : s.written = t.written

namespace Encodes
variable {A : Layout} {s : StoreSession} {t : FileTransfer.StoreSession} {q : ℕ}
  {blk blk' : StoreMngrBlock} {m : StoreMngr} {m' : FileTransfer.StoreMngr}

theorem live_cases (h : Encodes A s t) (q : ℕ) : s.live q = none ∧ t.live q = none ∨
    ∃ blk blk', s.live q = some blk ∧ t.live q = some blk' ∧
      SameHandle A (some blk) (some blk') := by
  have hsame := h.live q
  cases hs : s.live q with
  | none =>
    cases ht : t.live q with
    | none => exact Or.inl ⟨rfl, rfl⟩
    | some blk' =>
      rw [hs, ht] at hsame
      exact hsame.elim
  | some blk =>
    cases ht : t.live q with
    | none =>
      rw [hs, ht] at hsame
      exact hsame.elim
    | some blk' =>
      rw [hs, ht] at hsame
      exact Or.inr ⟨blk, blk', rfl, rfl, hsame⟩

theorem live_some (h : Encodes A s t) (hq : s.live q = some blk) :
    ∃ blk', t.live q = some blk' ∧ SameHandle A (some blk) (some blk') := by
  rcases h.live_cases q with ⟨hs, -⟩ | ⟨blk₁, blk', hs, ht, hsame⟩
  · rw [hq] at hs
    cases hs
  · rw [hq] at hs
    cases hs
    exact ⟨blk', ht, hsame⟩

theorem live_some' (h : Encodes A s t) (hq : t.live q = some blk') :
    ∃ blk, s.live q = some blk ∧ SameHandle A (some blk) (some blk') := by
  rcases h.live_cases q with ⟨-, ht⟩ | ⟨blk, blk₁, hs, ht, hsame⟩
  · rw [hq] at ht
    cases ht
  · rw [hq] at ht
    cases ht
    exact ⟨blk, hs, hsame⟩

theorem live_eq_none_iff (h : Encodes A s t) : s.live q = none ↔ t.live q = none := by
  rcases h.live_cases q with ⟨hs, ht⟩ | ⟨blk, blk', hs, ht, -⟩
  · exact iff_of_true hs ht
  · rw [hs, ht]
    exact iff_of_false (Option.some_ne_none _) (Option.some_ne_none _)

theorem with_mngr (h : Encodes A s t) (hm : StoreMngr.Encodes A m m') :
    Encodes A { s with mngr := m } { t with mngr := m' } := ⟨hm, h.live, h.written⟩

theorem update_live (h : Encodes A s t) {x y : Option StoreMngrBlock} (hxy : SameHandle A x y)
    (q p : ℕ) : SameHandle A (Function.update s.live q x p) (Function.update t.live q y p) := by
  rw [Function.update_apply, Function.update_apply]
  by_cases hp : p = q
  · rwa [if_pos hp, if_pos hp]
  · rw [if_neg hp, if_neg hp]
    exact h.live p

theorem allocated (h : Encodes A s t) (hm : StoreMngr.Encodes A m m')
    (hblk : SameHandle A (some blk) (some blk')) :
    Encodes A (s.allocated m blk) (t.allocated m' blk') := by
  have haddr : blk.addr = blk'.addr := hblk.1
  refine ⟨hm, fun p => ?_, ?_⟩
  · dsimp only [StoreSession.allocated, FileTransfer.StoreSession.allocated]
    rw [haddr]
    exact h.update_live hblk _ p
  · dsimp only [StoreSession.allocated, FileTransfer.StoreSession.allocated]
    rw [haddr, h.written]

theorem freed (h : Encodes A s t) (hm : StoreMngr.Encodes A m m') (q : ℕ) :
    Encodes A (s.freed m q) (t.freed m' q) :=
  ⟨hm, fun p => h.update_live (x := none) (y := none) trivial q p, h.written⟩

theorem wrote (h : Encodes A s t) (hm : StoreMngr.Encodes A m m') (q pos : ℕ) (bytes : List UInt8) :
    Encodes A (s.wrote m q pos bytes) (t.wrote m' q pos bytes) := by
  refine ⟨hm, h.live, ?_⟩
  dsimp only [StoreSession.wrote, FileTransfer.StoreSession.wrote]
  rw [h.written]

/-- One operation of a run. -/
theorem exec (h : Encodes A s t) (hlevels : 0 < A.levels) (op : StoreOp) :
    Encodes A (s.exec op) (t.exec op) := by
  cases op with
  | blockAlloc handler fileSize =>
    have hagree := h.mngr.blockAlloc_agree hlevels handler fileSize
    unfold StoreSession.exec FileTransfer.StoreSession.exec
    dsimp only
    cases hres : (storeMngrBlockAlloc handler fileSize).run s.mngr with
    | ok blk m =>
      rw [hres] at hagree
      obtain ⟨blk', m', hres', hm, hblk⟩ := hagree.exists_right
      rw [hres']
      exact h.allocated hm hblk
    | error e m =>
      rw [hres] at hagree
      obtain ⟨m', hres', hm⟩ := hagree.error_right
      rw [hres']
      exact h.with_mngr hm
  | blockFree q =>
    unfold StoreSession.exec FileTransfer.StoreSession.exec
    dsimp only
    rcases h.live_cases q with ⟨hs, ht⟩ | ⟨blk, blk', hs, ht, hblk⟩
    · rw [hs, ht]
      exact h
    · rw [hs, ht]
      have hagree := h.mngr.blockFree_agree hblk
      cases hres : (storeMngrBlockFree blk).run s.mngr with
      | ok a m =>
        rw [hres] at hagree
        obtain ⟨_, m', hres', hm, -⟩ := hagree.exists_right
        dsimp only
        rw [hres', hres]
        exact h.freed hm q
      | error e m =>
        rw [hres] at hagree
        obtain ⟨m', hres', hm⟩ := hagree.error_right
        dsimp only
        rw [hres', hres]
        exact h.freed hm q
  | blockWrite q offset data =>
    unfold StoreSession.exec FileTransfer.StoreSession.exec
    dsimp only
    rcases h.live_cases q with ⟨hs, ht⟩ | ⟨blk, blk', hs, ht, hblk⟩
    · rw [hs, ht]
      exact h
    · rw [hs, ht]
      have hagree := h.mngr.blockWrite_agree hblk offset data
      cases hres : (storeMngrBlockWrite blk offset data).run s.mngr with
      | ok a m =>
        rw [hres] at hagree
        obtain ⟨_, m', hres', hm, -⟩ := hagree.exists_right
        dsimp only
        rw [hres', hres]
        exact h.wrote hm q _ _
      | error e m =>
        rw [hres] at hagree
        obtain ⟨m', hres', hm⟩ := hagree.error_right
        dsimp only
        rw [hres', hres]
        exact h.with_mngr hm
  | blockRead q offset readSize dataOut =>
    unfold StoreSession.exec FileTransfer.StoreSession.exec
    dsimp only
    rcases h.live_cases q with ⟨hs, ht⟩ | ⟨blk, blk', hs, ht, hblk⟩
    · rw [hs, ht]
      exact h
    · rw [hs, ht]
      have hagree := h.mngr.blockRead_agree hblk offset readSize dataOut
      cases hres : (storeMngrBlockRead blk offset readSize dataOut).run s.mngr with
      | ok a m =>
        rw [hres] at hagree
        obtain ⟨_, m', hres', hm, -⟩ := hagree.exists_right
        dsimp only
        rw [hres', hres]
        exact h.with_mngr hm
      | error e m =>
        rw [hres] at hagree
        obtain ⟨m', hres', hm⟩ := hagree.error_right
        dsimp only
        rw [hres', hres]
        exact h.with_mngr hm

theorem usable (h : Encodes A s t) {op : StoreOp} (hop : s.Usable op) : t.Usable op := by
  cases op with
  | blockAlloc handler fileSize => exact fun q hq => h.live_eq_none_iff.mp (hop q hq)
  | blockFree q => exact fun hq => hop (h.live_eq_none_iff.mpr hq)
  | blockWrite q offset data => exact ⟨fun hq => hop.1 (h.live_eq_none_iff.mpr hq), hop.2⟩
  | blockRead q offset readSize dataOut =>
    exact ⟨fun hq => hop.1 (h.live_eq_none_iff.mpr hq), hop.2⟩

theorem inside_iff (h : Encodes A s t) {offset len : UInt32} {data : Option (List UInt8)} :
    s.Inside q offset len data ↔ t.Inside q offset len data := by
  constructor
  · rintro ⟨blk, bytes, hq, hdata, hpos, hlen, hin⟩
    obtain ⟨blk', hq', hblk⟩ := h.live_some hq
    rw [h.mngr.blockSize_eq hblk] at hin
    exact ⟨blk', bytes, hq', hdata, hpos, hlen, hin⟩
  · rintro ⟨blk', bytes, hq, hdata, hpos, hlen, hin⟩
    obtain ⟨blk, hq', hblk⟩ := h.live_some' hq
    rw [← h.mngr.blockSize_eq hblk] at hin
    exact ⟨blk, bytes, hq', hdata, hpos, hlen, hin⟩

theorem tame (h : Encodes A s t) {op : StoreOp} (hop : s.Tame op) : t.Tame op := by
  cases op with
  | blockAlloc handler fileSize => exact fun q hq => h.live_eq_none_iff.mp (hop q hq)
  | blockFree q => exact fun hq => hop (h.live_eq_none_iff.mpr hq)
  | blockWrite q offset data => exact h.inside_iff.mp hop
  | blockRead q offset readSize dataOut => exact h.inside_iff.mp hop

end Encodes

/-- In a pool of at most 27 levels a new manager holds a new manager over the slots. -/
theorem storeMngrCreate_encodes {elementsArray : Location} {stored : Option (List UInt8)}
    {cfg : StoreMngrCfg} {m : StoreMngr} {heap heap' : Heap}
    (hc : (storeMngrCreate elementsArray stored cfg).run heap = .ok m heap')
    (hfits : cfg.totalSize.toNat ≤ 2 ^ 26 * cfg.minimumBlockSize.toNat) :
    ∃ (S : Shape) (A : Layout) (m' : FileTransfer.StoreMngr), cfg.totalSize = S.total ∧
      0 < A.levels ∧ Encodes A (start m) (FileTransfer.StoreSession.start m') ∧
      FileTransfer.StoreSession.Shows S (FileTransfer.StoreSession.start m')
        Bisection.Pool.initial := by
  obtain ⟨⟨h₁, h₂, hb⟩, h₃, h₄, hf⟩ := storeMngrCreate_parts hc
  obtain ⟨S, ht, -, A, hlevels, henc, hmade⟩ := buddyAllocCreate_encodes hb hfits
  rw [show cfg.totalSize = S.total from ht] at hf
  refine ⟨S, A, ⟨m.addr, m.bAlloc.slots, m.rFileCtrl⟩, ht, hlevels,
    ⟨⟨henc, rfl⟩, fun _ => trivial, rfl⟩, ?_⟩
  exact FileTransfer.StoreSession.shows_start hmade
    (FileTransfer.StoreSession.maxFileSize_of_create hf)

end StoreSession
end FileTransfer.PoolMemory
