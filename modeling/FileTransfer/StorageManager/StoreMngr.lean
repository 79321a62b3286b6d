import FileTransfer.BuddyAllocator.Allocator
import FileTransfer.ClientServer.RamFileCtrl

/-! The storage manager of `store_mngr.c`: the blocks of a buddy allocator in one file. -/
namespace FileTransfer

structure StoreMngrCfg where
  totalSize : UInt32
  minimumBlockSize : UInt32

/-- `dataLen` bytes at `data`, or NULL. -/
structure StoreMngrData where
  data : Option (List UInt8)
  dataLen : UInt32

structure StoreMngr where
  addr : ℕ
  bAlloc : BuddyAlloc
  rFileCtrl : RamFile

/-- The object that a handle points at. -/
structure StoreMngrBlock where
  addr : ℕ
  bAllocBlock : ℕ
deriving DecidableEq

/-- `stored` is the content of `./storage.bin`, if there is such a file. -/
def storeMngrCreate (stored : Option (List UInt8)) (cfg : StoreMngrCfg) : HeapCall StoreMngr := do
  match ← request with
  | none => throw .ENOMEM
  | some addr =>
    match ← attempt (buddyAllocCreate ⟨cfg.totalSize, cfg.minimumBlockSize⟩) with
    | .error e =>
      access addr
      release addr
      throw e
    | .ok bAlloc =>
      match ← attempt (ramFileCreate stored ⟨cfg.totalSize.toUInt64, true⟩) with
      | .error e =>
        access addr
        buddyAllocDestroy bAlloc
        access addr
        release addr
        throw e
      | .ok rFileCtrl => return ⟨addr, bAlloc, rFileCtrl⟩

def storeMngrDestroy (m : StoreMngr) : HeapCall Unit := do
  access m.addr
  buddyAllocDestroy m.bAlloc
  access m.addr
  ramFileDestroy m.rFileCtrl
  release m.addr

/-- The allocator and the file of a manager were created. -/
theorem storeMngrCreate_parts {stored : Option (List UInt8)} {cfg : StoreMngrCfg} {m : StoreMngr}
    {heap heap' : Heap} (hc : (storeMngrCreate stored cfg).run heap = .ok m heap') :
    (∃ h₁ h₂, (buddyAllocCreate ⟨cfg.totalSize, cfg.minimumBlockSize⟩).run h₁ = .ok m.bAlloc h₂) ∧
      ∃ h₁ h₂, (ramFileCreate stored ⟨cfg.totalSize.toUInt64, true⟩).run h₁ =
        .ok m.rFileCtrl h₂ := by
  rcases request_bind_ok hc with ⟨addr, h₁, hc⟩ | ⟨h₁, hc⟩
  · rcases attempt_bind_ok hc with ⟨b, h₂, hb, hc⟩ | ⟨e, h₂, -, hc⟩
    · rcases attempt_bind_ok hc with ⟨f, h₃, hf, hc⟩ | ⟨e, h₃, -, hc⟩
      · cases hc
        exact ⟨⟨_, _, hb⟩, _, _, hf⟩
      · obtain ⟨_, _, _, hdestroy⟩ := bind_ok hc
        obtain ⟨_, _, _, herr⟩ := bind_ok hdestroy
        cases herr
    · cases hc
  · cases hc

def onBAlloc {α : Type} : Call BuddyAlloc α → Call StoreMngr α :=
  zoom (·.bAlloc) fun m bAlloc => { m with bAlloc }

def onRFileCtrl {α : Type} : Call RamFile α → Call StoreMngr α :=
  zoom (·.rFileCtrl) fun m rFileCtrl => { m with rFileCtrl }

/-- `handler` is what `calloc` gives for the handle. -/
def storeMngrBlockAlloc (handler : Option ℕ) (fileSize : UInt32) : Call StoreMngr StoreMngrBlock := do
  match handler with
  | none => throw .ENOMEM
  | some addr =>
    let bAllocBlock ← onBAlloc (buddyAllocAllocate fileSize)
    return ⟨addr, bAllocBlock⟩

/-- The handle is released whatever `buddy_alloc_free` returns. -/
def storeMngrBlockFree (blk : StoreMngrBlock) : Call StoreMngr Unit :=
  onBAlloc (buddyAllocFree blk.bAllocBlock)

/-- The position in the file, in the 32-bit arithmetic of the code. -/
def StoreMngr.totalOffset (m : StoreMngr) (blk : StoreMngrBlock) (fileBytesOffset : UInt32) : UInt32 :=
  buddyAllocGetBlockOffset m.bAlloc blk.bAllocBlock + fileBytesOffset

def storeMngrBlockWrite (blk : StoreMngrBlock) (fileBytesOffset : UInt32) (data : StoreMngrData) :
    Call StoreMngr Unit := do
  let totalOffset := (← get).totalOffset blk fileBytesOffset
  onRFileCtrl (ramFileWrite totalOffset.toUInt64 data.data data.dataLen.toUInt64)

/-- Gives what `*data_out` holds afterwards. -/
def storeMngrBlockRead (blk : StoreMngrBlock) (fileBytesOffset readSize : UInt32)
    (dataOut : StoreMngrData) : Call StoreMngr StoreMngrData := do
  let totalOffset := (← get).totalOffset blk fileBytesOffset
  let out ← onRFileCtrl (ramFileRead totalOffset.toUInt64 dataOut.data readSize.toUInt64)
  return ⟨some out, readSize⟩

namespace StoreMngr
variable (m : StoreMngr) (blk : StoreMngrBlock)

/-- Where the block of a handle starts in the file, and its size. -/
def blockOffset : ℕ := (buddyAllocGetBlockOffset m.bAlloc blk.bAllocBlock).toNat

def blockSize : ℕ := (getBlockSize (buddyAllocGetBlockLevel m.bAlloc blk.bAllocBlock)
  m.bAlloc.minBlockSize m.bAlloc.numOfLevels).toNat

/-- The position `x` of the file lies in the block of the handle. -/
def InBlock (x : ℕ) : Prop := m.blockOffset blk ≤ x ∧ x < m.blockOffset blk + m.blockSize blk

/-- The manager after bytes went into its file at a position. -/
def writeFile (pos : ℕ) (bytes : List UInt8) : StoreMngr :=
  { m with rFileCtrl := m.rFileCtrl.write pos bytes }

variable {m blk} {fileBytesOffset readSize : UInt32} {bytes buffer : List UInt8} {len : UInt32}

/-- The file takes an access of `len` bytes, since it ends inside of the whole pool. -/
def Admits (m : StoreMngr) (blk : StoreMngrBlock) (fileBytesOffset len : UInt32) : Prop :=
  0 < len.toNat ∧
    (m.totalOffset blk fileBytesOffset).toNat + len.toNat ≤ m.rFileCtrl.maxFileSize.toNat

theorem admits_iff_fits : m.Admits blk fileBytesOffset len ↔
    m.rFileCtrl.Fits (m.totalOffset blk fileBytesOffset).toUInt64 len.toUInt64 := by
  unfold Admits RamFile.Fits
  rw [UInt32.toNat_toUInt64, UInt32.toNat_toUInt64]

section Access
variable (hmax : m.rFileCtrl.maxFileSize.toNat < 2 ^ 63)

include hmax in
theorem blockWrite_ok (h : m.Admits blk fileBytesOffset len) (hlen : len.toNat ≤ bytes.length) :
    (storeMngrBlockWrite blk fileBytesOffset ⟨some bytes, len⟩).run m =
      .ok () (m.writeFile (m.totalOffset blk fileBytesOffset).toNat (bytes.take len.toNat)) := by
  rw [admits_iff_fits] at h
  unfold storeMngrBlockWrite onRFileCtrl
  rw [EStateM.run_bind, EStateM.run_get]
  dsimp only
  rw [zoom_run, ramFileWrite_fits hmax h (by rwa [UInt32.toNat_toUInt64]),
    UInt32.toNat_toUInt64, UInt32.toNat_toUInt64]
  rfl

include hmax in
theorem blockWrite_refused {data : Option (List UInt8)}
    (h : data ≠ none → ¬ m.Admits blk fileBytesOffset len) :
    ∃ e, (storeMngrBlockWrite blk fileBytesOffset ⟨data, len⟩).run m = .error e m := by
  rw [admits_iff_fits] at h
  have hsize : len.toUInt64.toNat < 2 ^ 63 := by
    have := len.toNat_lt
    rw [UInt32.toNat_toUInt64]
    omega
  obtain ⟨e, he⟩ := ramFileWrite_refused hmax hsize data h
  refine ⟨e, ?_⟩
  unfold storeMngrBlockWrite onRFileCtrl
  rw [EStateM.run_bind, EStateM.run_get]
  dsimp only
  rw [zoom_run, he]

include hmax in
theorem blockRead_ok (h : m.Admits blk fileBytesOffset len) (hlen : len.toNat ≤ buffer.length)
    (hend : (m.totalOffset blk fileBytesOffset).toNat + len.toNat ≤ m.rFileCtrl.content.length)
    (old : UInt32) : (storeMngrBlockRead blk fileBytesOffset len ⟨some buffer, old⟩).run m =
      .ok ⟨some ((m.rFileCtrl.content.drop (m.totalOffset blk fileBytesOffset).toNat).take len.toNat ++
        buffer.drop len.toNat), len⟩ m := by
  rw [admits_iff_fits] at h
  unfold storeMngrBlockRead onRFileCtrl
  rw [EStateM.run_bind, EStateM.run_get]
  dsimp only
  rw [EStateM.run_bind, zoom_run, ramFileRead_fits hmax h (by rwa [UInt32.toNat_toUInt64]),
    UInt32.toNat_toUInt64, UInt32.toNat_toUInt64, if_pos hend]
  rfl

end Access

theorem blockAlloc_run (q : ℕ) (fileSize : UInt32) :
    (storeMngrBlockAlloc (some q) fileSize).run m =
      match (buddyAllocAllocate fileSize).run m.bAlloc with
      | .error e bAlloc => .error e { m with bAlloc }
      | .ok p bAlloc => .ok ⟨q, p⟩ { m with bAlloc } := by
  unfold storeMngrBlockAlloc onBAlloc
  dsimp only
  rw [EStateM.run_bind, zoom_run]
  cases (buddyAllocAllocate fileSize).run m.bAlloc <;> rfl

/-- A read leaves the manager as it is. -/
theorem blockRead_keeps (blk : StoreMngrBlock) (fileBytesOffset readSize : UInt32)
    (dataOut : StoreMngrData) : Keeps (storeMngrBlockRead blk fileBytesOffset readSize dataOut) := by
  unfold storeMngrBlockRead onRFileCtrl
  apply Keeps.get.bind
  intro m
  apply Keeps.bind
  · exact Keeps.zoom (fun _ => rfl) (ramFileRead_keeps _ _ _)
  · exact fun out => Keeps.pure _

end StoreMngr
end FileTransfer
