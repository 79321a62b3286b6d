import FileTransfer.BuddyAllocator.Placement
import FileTransfer.StorageManager.Ownership
import FileTransfer.StorageManager.Session

/-! A storage manager together with the heap that its handles come from: what is allocated in
every state of a run, and what its destruction leaves. -/
namespace FileTransfer
open Heap Run

/-- The heap and the manager, which its caller has a pointer to. -/
structure StoreMemory where
  heap : Heap
  mngr : StoreMngr

/-- The objects of an allocator and of a manager. -/
def BuddyAlloc.objects (b : BuddyAlloc) : List ℕ :=
  b.addr :: b.memPool.addr :: b.memPool.elementsAddr.toList

def StoreMngr.objects (m : StoreMngr) : List ℕ :=
  m.addr :: m.rFileCtrl.addr :: m.rFileCtrl.file :: m.rFileCtrl.filePath :: m.bAlloc.objects

namespace StoreMemory

def onHeap {α : Type} : HeapCall α → Call StoreMemory α :=
  zoom (·.heap) fun t heap => { t with heap }

def onMngr {α : Type} : Call StoreMngr α → Call StoreMemory α :=
  zoom (·.mngr) fun t mngr => { t with mngr }

/-- A call may look at every object of the manager, so all of them count as looked at. -/
def touch : Call StoreMemory Unit := do
  let m := (← get).mngr
  onHeap (m.objects.forM access)

/-- `store_mngr_block_alloc`. -/
def blockAlloc (fileSize : UInt32) : Call StoreMemory StoreMngrBlock := do
  match ← onHeap request with
  | none => onMngr (storeMngrBlockAlloc none fileSize)
  | some handler =>
    touch
    match ← attempt (onMngr (storeMngrBlockAlloc (some handler) fileSize)) with
    | .error e =>
      onHeap (release handler)
      throw e
    | .ok blk =>
      onHeap (access handler)
      return blk

/-- `store_mngr_block_free`. -/
def blockFree (blk : StoreMngrBlock) : Call StoreMemory Unit := do
  onHeap (access blk.addr)
  touch
  let rc ← attempt (onMngr (storeMngrBlockFree blk))
  onHeap (release blk.addr)
  match rc with
  | .error e => throw e
  | .ok _ => return

/-- `store_mngr_block_write`. -/
def blockWrite (blk : StoreMngrBlock) (fileBytesOffset : UInt32) (data : StoreMngrData) :
    Call StoreMemory Unit := do
  onHeap (access blk.addr)
  touch
  onMngr (storeMngrBlockWrite blk fileBytesOffset data)

/-- `store_mngr_block_read`. -/
def blockRead (blk : StoreMngrBlock) (fileBytesOffset readSize : UInt32) (dataOut : StoreMngrData) :
    Call StoreMemory StoreMngrData := do
  onHeap (access blk.addr)
  touch
  onMngr (storeMngrBlockRead blk fileBytesOffset readSize dataOut)

end StoreMemory

/-- The calls of a caller, who has the handles that are live. -/
inductive StoreCall
  | blockAlloc (fileSize : UInt32)
  | blockFree (q : ℕ)
  | blockWrite (q : ℕ) (fileBytesOffset : UInt32) (data : StoreMngrData)
  | blockRead (q : ℕ) (fileBytesOffset readSize : UInt32) (dataOut : StoreMngrData)

/-- The operation that a call amounts to when `calloc` gives `handler`. -/
def StoreCall.op (handler : Option ℕ) : StoreCall → StoreOp
  | blockAlloc fileSize => .blockAlloc handler fileSize
  | blockFree q => .blockFree q
  | blockWrite q fileBytesOffset data => .blockWrite q fileBytesOffset data
  | blockRead q fileBytesOffset readSize dataOut => .blockRead q fileBytesOffset readSize dataOut

/-- A heap, a manager and its live handles. -/
structure StoreProcess where
  heap : Heap
  session : StoreSession

namespace StoreProcess
variable (p : StoreProcess)

def memory : StoreMemory := ⟨p.heap, p.session.mngr⟩

def exec : StoreCall → StoreProcess
  | .blockAlloc fileSize =>
    match (StoreMemory.blockAlloc fileSize).run p.memory with
    | .ok blk t => ⟨t.heap, p.session.allocated t.mngr blk⟩
    | .error _ t => ⟨t.heap, { p.session with mngr := t.mngr }⟩
  | .blockFree q =>
    match p.session.live q with
    | none => p
    | some blk =>
      match (StoreMemory.blockFree blk).run p.memory with
      | .ok _ t | .error _ t => ⟨t.heap, p.session.freed t.mngr q⟩
  | .blockWrite q fileBytesOffset data =>
    match p.session.live q with
    | none => p
    | some blk =>
      match (StoreMemory.blockWrite blk fileBytesOffset data).run p.memory with
      | .ok _ t => ⟨t.heap, p.session.wrote t.mngr q fileBytesOffset.toNat
          ((data.data.getD []).take data.dataLen.toNat)⟩
      | .error _ t => ⟨t.heap, { p.session with mngr := t.mngr }⟩
  | .blockRead q fileBytesOffset readSize dataOut =>
    match p.session.live q with
    | none => p
    | some blk =>
      match (StoreMemory.blockRead blk fileBytesOffset readSize dataOut).run p.memory with
      | .ok _ t | .error _ t => ⟨t.heap, { p.session with mngr := t.mngr }⟩

/-- The call is fine for the session, whatever unused address its handle gets. -/
def Allows (ok : StoreSession → StoreOp → Prop) (p : StoreProcess) (call : StoreCall) : Prop :=
  ∀ handler, (∀ q, handler = some q → p.session.live q = none) → ok p.session (call.op handler)

end StoreProcess

/-! ### A manager stays where it is -/

/-- Where the parts of a manager are in memory, and whether its file is deleted with it. -/
def RamFile.placement (f : RamFile) : ℕ × ℕ × ℕ × Bool :=
  (f.addr, f.file, f.filePath, f.deleteFiles)

def StoreMngr.placement (m : StoreMngr) :
    ℕ × (ℕ × ℕ × Option ℕ × UInt32) × (ℕ × ℕ × ℕ × Bool) :=
  (m.addr, m.bAlloc.placement, m.rFileCtrl.placement)

section Placement
variable {m m' : StoreMngr}

theorem StoreMngr.owned_of_placement (h : m'.placement = m.placement) : m'.owned = m.owned := by
  simp only [placement, RamFile.placement, Prod.mk.injEq] at h
  obtain ⟨haddr, hbuddy, hfaddr, hfile, hpath, -⟩ := h
  simp only [owned, RamFile.owned, haddr, BuddyAlloc.owned_of_placement hbuddy, hfaddr, hfile,
    hpath]

theorem StoreMngr.deleteFiles_of_placement (h : m'.placement = m.placement) :
    m'.rFileCtrl.deleteFiles = m.rFileCtrl.deleteFiles := by
  simp only [placement, RamFile.placement, Prod.mk.injEq] at h
  exact h.2.2.2.2.2

/-- The objects that count as looked at are those that the manager owns. -/
theorem StoreMngr.mem_owned {q : ℕ} (h : q ∈ m.objects) : q ∈ m.owned := by
  unfold objects BuddyAlloc.objects at h
  unfold owned RamFile.owned BuddyAlloc.owned MemPool.owned
  cases helements : m.bAlloc.memPool.elementsAddr with
  | none =>
    simp [helements] at h ⊢
    tauto
  | some elements =>
    simp [helements] at h ⊢
    tauto

theorem onBAlloc_preserves {α : Type} {x : Call BuddyAlloc α}
    (hx : Preserves BuddyAlloc.placement x) : Preserves StoreMngr.placement (onBAlloc x) := by
  apply Preserves.zoom _ hx
  intro m b hb
  simp only [StoreMngr.placement, hb]

theorem storeMngrBlockAlloc_preserves (handler : Option ℕ) (fileSize : UInt32) :
    Preserves StoreMngr.placement (storeMngrBlockAlloc handler fileSize) := by
  cases handler with
  | none => exact .of_keeps (.throw _)
  | some q =>
    apply (onBAlloc_preserves (buddyAllocAllocate_preserves fileSize)).bind
    intro p
    exact .of_keeps (.pure _)

theorem storeMngrBlockFree_preserves (blk : StoreMngrBlock) :
    Preserves StoreMngr.placement (storeMngrBlockFree blk) :=
  onBAlloc_preserves (buddyAllocFree_preserves blk.bAllocBlock)

theorem ramFileWrite_preserves (offset : UInt64) (data : Option (List UInt8)) (dataSize : UInt64) :
    Preserves RamFile.placement (ramFileWrite offset data dataSize) := by
  unfold ramFileWrite
  cases data with
  | none => exact .of_keeps (.throw _)
  | some bytes =>
    apply Preserves.ite
    · exact .of_keeps (.throw _)
    apply Preserves.get_bind
    intro f
    apply Preserves.ite
    · exact .of_keeps (.throw _)
    apply Preserves.ite
    · exact .of_keeps (.throw _)
    apply Preserves.ite
    · exact .of_keeps (.throw _)
    exact .modified fun _ => rfl

theorem storeMngrBlockWrite_preserves (blk : StoreMngrBlock) (fileBytesOffset : UInt32)
    (data : StoreMngrData) :
    Preserves StoreMngr.placement (storeMngrBlockWrite blk fileBytesOffset data) := by
  unfold storeMngrBlockWrite onRFileCtrl
  apply Preserves.get_bind
  intro m
  apply Preserves.zoom _ (ramFileWrite_preserves _ _ _)
  intro m f hf
  simp only [StoreMngr.placement, hf]

theorem storeMngrBlockRead_preserves (blk : StoreMngrBlock) (fileBytesOffset readSize : UInt32)
    (dataOut : StoreMngrData) :
    Preserves StoreMngr.placement (storeMngrBlockRead blk fileBytesOffset readSize dataOut) :=
  .of_keeps (StoreMngr.blockRead_keeps blk fileBytesOffset readSize dataOut)

end Placement

/-! ### What the calls own -/

namespace StoreMemory
variable {t : StoreMemory} {F : Multiset ℕ} {blk : StoreMngrBlock}

theorem onHeap_access {q : ℕ} {P : Multiset ℕ} (h : t.heap.Owns P) (hq : q ∈ P) :
    ∃ heap, (onHeap (access q)).run t = .ok () { t with heap } ∧ heap.Owns P :=
  ⟨_, rfl, h.accessed hq⟩

theorem touch_run (h : t.heap.Owns (t.mngr.owned + F)) :
    ∃ heap, touch.run t = .ok () { t with heap } ∧ heap.Owns (t.mngr.owned + F) := by
  have hobjects : Accounts t.heap (t.mngr.owned + F) (t.mngr.objects.forM access)
      (fun _ => t.mngr.owned + F) none := by
    apply Accounts.forM_access
    intro q hq
    exact Multiset.mem_add.mpr (Or.inl (StoreMngr.mem_owned hq))
  have hleaves := hobjects h
  unfold touch onHeap
  rw [EStateM.run_bind, EStateM.run_get]
  dsimp only
  rw [zoom_run]
  cases hrun : (t.mngr.objects.forM access).run t.heap with
  | ok u heap =>
    rw [hrun] at hleaves
    exact ⟨heap, rfl, hleaves⟩
  | error e heap =>
    rw [hrun] at hleaves
    obtain ⟨A, hA, -⟩ := hleaves
    cases hA

/-- What a call on the manager gives, with the heap left alone. -/
theorem onMngr_run {α : Type} {x : Call StoreMngr α} :
    (onMngr x).run t = match x.run t.mngr with
      | .ok a mngr => .ok a { t with mngr }
      | .error e mngr => .error e { t with mngr } := by
  unfold onMngr
  rw [zoom_run]
  cases x.run t.mngr <;> rfl

/-- Without memory for the handle nothing happens; with it the object is the handle, or is released
again. -/
theorem blockAlloc_cases (h : t.heap.Owns (t.mngr.owned + F)) (fileSize : UInt32) :
    (∃ heap, heap.Owns (t.mngr.owned + F) ∧
      (blockAlloc fileSize).run t = .error .ENOMEM { t with heap }) ∨
    ∃ q ∉ F, match (storeMngrBlockAlloc (some q) fileSize).run t.mngr with
      | .ok blk m => ∃ heap, heap.Owns (m.owned + q ::ₘ F) ∧
        (blockAlloc fileSize).run t = .ok blk ⟨heap, m⟩
      | .error e m => ∃ heap, heap.Owns (m.owned + F) ∧
        (blockAlloc fileSize).run t = .error e ⟨heap, m⟩ := by
  by_cases hgrant : t.heap.grant t.heap.requests = true
  · right
    have hgranted : t.heap.granted.Owns (t.mngr.owned + t.heap.requests ::ₘ F) := by
      rw [Multiset.add_cons]
      exact h.granted
    have hnew : t.heap.requests ∉ F := fun hq =>
      h.granted.notMem (Multiset.mem_add.mpr (Or.inr hq))
    have hrequest : (onHeap request).run t = .ok (some t.heap.requests)
        { t with heap := t.heap.granted } := by
      unfold onHeap
      rw [zoom_run, request_run, if_pos hgrant]
      rfl
    obtain ⟨heap₁, htouch, h₁⟩ := touch_run (t := { t with heap := t.heap.granted }) hgranted
    refine ⟨t.heap.requests, hnew, ?_⟩
    unfold blockAlloc
    rw [EStateM.run_bind, hrequest]
    dsimp only
    rw [EStateM.run_bind, htouch]
    dsimp only
    rw [EStateM.run_bind, attempt_run, onMngr_run]
    dsimp only
    have hpreserves := storeMngrBlockAlloc_preserves (some t.heap.requests) fileSize
    cases hrun : (storeMngrBlockAlloc (some t.heap.requests) fileSize).run t.mngr with
    | ok blk m =>
      have howned := StoreMngr.owned_of_placement (hpreserves.ok hrun)
      dsimp only at h₁ ⊢
      rw [← howned] at h₁
      obtain ⟨heap₂, haccess, h₂⟩ := onHeap_access (t := ⟨heap₁, m⟩) h₁
        (Multiset.mem_add.mpr (Or.inr (Multiset.mem_cons_self _ _)))
      refine ⟨heap₂, h₂, ?_⟩
      rw [EStateM.run_bind, haccess]
      rfl
    | error e m =>
      have howned := StoreMngr.owned_of_placement (hpreserves.error hrun)
      dsimp only at h₁ ⊢
      rw [← howned, Multiset.add_cons] at h₁
      exact ⟨_, h₁.released, rfl⟩
  · left
    refine ⟨t.heap.refused, h.refused, ?_⟩
    unfold blockAlloc onHeap
    rw [EStateM.run_bind, zoom_run, request_run, if_neg hgrant]
    rfl

/-- The handle is released whether or not the block could be given back. -/
theorem blockFree_cases (h : t.heap.Owns (t.mngr.owned + blk.addr ::ₘ F)) :
    match (storeMngrBlockFree blk).run t.mngr with
    | .ok _ m => ∃ heap, heap.Owns (m.owned + F) ∧ (blockFree blk).run t = .ok () ⟨heap, m⟩
    | .error e m => ∃ heap, heap.Owns (m.owned + F) ∧
      (blockFree blk).run t = .error e ⟨heap, m⟩ := by
  obtain ⟨heap₁, haccess, h₁⟩ := onHeap_access h
    (Multiset.mem_add.mpr (Or.inr (Multiset.mem_cons_self blk.addr F)))
  obtain ⟨heap₂, htouch, h₂⟩ := touch_run (t := { t with heap := heap₁ }) h₁
  have hpreserves := storeMngrBlockFree_preserves blk
  have hrelease : ∀ m : StoreMngr, m.placement = t.mngr.placement →
      Owns { heap₂ with events := .release blk.addr :: heap₂.events } (m.owned + F) := by
    intro m hm
    dsimp only at h₂
    rw [← StoreMngr.owned_of_placement hm, Multiset.add_cons] at h₂
    exact h₂.released
  unfold blockFree
  rw [EStateM.run_bind, haccess]
  dsimp only
  rw [EStateM.run_bind, htouch]
  dsimp only
  rw [EStateM.run_bind, attempt_run, onMngr_run]
  dsimp only
  cases hrun : (storeMngrBlockFree blk).run t.mngr with
  | ok u m => exact ⟨_, hrelease m (hpreserves.ok hrun), rfl⟩
  | error e m => exact ⟨_, hrelease m (hpreserves.error hrun), rfl⟩

/-- An access through a handle does to the manager what it does without the heap. -/
theorem access_cases {α : Type} {x : Call StoreMngr α} (hx : Preserves StoreMngr.placement x)
    (h : t.heap.Owns (t.mngr.owned + F)) (hblk : blk.addr ∈ F) :
    ∃ heap, (do
        onHeap (access blk.addr)
        touch
        onMngr x : Call StoreMemory α).run t =
      (match x.run t.mngr with
        | .ok a mngr => .ok a ⟨heap, mngr⟩
        | .error e mngr => .error e ⟨heap, mngr⟩) ∧
      Leaves (fun _ m => heap.Owns (m.owned + F)) (fun m => heap.Owns (m.owned + F))
        (x.run t.mngr) := by
  obtain ⟨heap₁, haccess, h₁⟩ := onHeap_access h (Multiset.mem_add.mpr (Or.inr hblk))
  obtain ⟨heap₂, htouch, h₂⟩ := touch_run (t := { t with heap := heap₁ }) h₁
  refine ⟨heap₂, ?_, ?_⟩
  · rw [EStateM.run_bind, haccess]
    dsimp only
    rw [EStateM.run_bind, htouch]
    dsimp only
    rw [onMngr_run]
  · cases hrun : x.run t.mngr with
    | ok a m =>
      dsimp only [Leaves]
      rwa [StoreMngr.owned_of_placement (hx.ok hrun)]
    | error e m =>
      dsimp only [Leaves]
      rwa [StoreMngr.owned_of_placement (hx.error hrun)]

end StoreMemory

namespace StoreProcess
variable {m₀ : StoreMngr} {p : StoreProcess} {handles : Multiset ℕ} {q : ℕ}

/-- What is allocated are the objects of the manager and one for each live handle. -/
structure Owns (m₀ : StoreMngr) (p : StoreProcess) (handles : Multiset ℕ) : Prop where
  heap : p.heap.Owns (p.session.mngr.owned + handles)
  live : ∀ q, q ∈ handles ↔ p.session.live q ≠ none
  addr : ∀ q blk, p.session.live q = some blk → blk.addr = q
  placement : p.session.mngr.placement = m₀.placement

/-- A call is an operation of the session, with a handle that is not live if `calloc` gives one. -/
def Refines (m₀ : StoreMngr) (p : StoreProcess) (call : StoreCall) : Prop :=
  ∃ handler handles, (∀ q, handler = some q → p.session.live q = none) ∧
    (p.exec call).session = p.session.exec (call.op handler) ∧ Owns m₀ (p.exec call) handles

theorem addr_of_blockAlloc {m m' : StoreMngr} {fileSize : UInt32} {blk : StoreMngrBlock}
    (hrun : (storeMngrBlockAlloc (some q) fileSize).run m = .ok blk m') : blk.addr = q := by
  rw [StoreMngr.blockAlloc_run] at hrun
  cases hbuddy : (buddyAllocAllocate fileSize).run m.bAlloc with
  | ok slot b =>
    rw [hbuddy] at hrun
    cases hrun
    rfl
  | error e b =>
    rw [hbuddy] at hrun
    cases hrun

/-- The heap has changed, and in the manager what may change. -/
theorem Owns.frame (h : Owns m₀ p handles) {heap : Heap} {m : StoreMngr}
    {written : ℕ → ℕ → Option UInt8} (hheap : heap.Owns (m.owned + handles))
    (hplace : m.placement = p.session.mngr.placement) :
    Owns m₀ ⟨heap, { p.session with mngr := m, written }⟩ handles :=
  ⟨hheap, h.live, h.addr, hplace.trans h.placement⟩

theorem Owns.allocated (h : Owns m₀ p handles) {heap : Heap} {m : StoreMngr}
    {blk : StoreMngrBlock} (hheap : heap.Owns (m.owned + blk.addr ::ₘ handles))
    (hplace : m.placement = p.session.mngr.placement) :
    Owns m₀ ⟨heap, p.session.allocated m blk⟩ (blk.addr ::ₘ handles) := by
  refine ⟨hheap, fun q => ?_, fun q blk' hq => ?_, hplace.trans h.placement⟩
  · rw [Multiset.mem_cons, h.live]
    dsimp only [StoreSession.allocated]
    rw [Function.update_apply]
    by_cases hq : q = blk.addr
    · simp [hq]
    · simp [hq]
  · rcases StoreSession.live_allocated hq with ⟨rfl, rfl⟩ | ⟨-, hold⟩
    · rfl
    · exact h.addr q blk' hold

theorem Owns.freed (h : Owns m₀ p (q ::ₘ handles)) {heap : Heap} {m : StoreMngr}
    (hheap : heap.Owns (m.owned + handles)) (hplace : m.placement = p.session.mngr.placement) :
    Owns m₀ ⟨heap, p.session.freed m q⟩ handles := by
  have hnew : q ∉ handles := by
    have hheap' := h.heap
    rw [Multiset.add_cons] at hheap'
    exact fun hq => hheap'.notMem (Multiset.mem_add.mpr (Or.inr hq))
  refine ⟨hheap, fun q' => ?_, fun q' blk' hq' => ?_, hplace.trans h.placement⟩
  · have hold := h.live q'
    rw [Multiset.mem_cons] at hold
    dsimp only [StoreSession.freed]
    rw [Function.update_apply]
    by_cases hq : q' = q
    · simp [hq, hnew]
    · simpa [hq] using hold
  · exact h.addr q' blk' (StoreSession.live_freed hq').2

theorem Owns.blockAlloc (h : Owns m₀ p handles) (fileSize : UInt32) :
    Refines m₀ p (.blockAlloc fileSize) := by
  rcases StoreMemory.blockAlloc_cases (t := p.memory) h.heap fileSize with
    ⟨heap, hheap, hrun⟩ | ⟨q, hq, hcases⟩
  · refine ⟨none, handles, nofun, ?_, ?_⟩
    · simp only [exec, hrun]
      rfl
    · simp only [exec, hrun]
      exact h.frame hheap rfl
  · have hnone : p.session.live q = none := by
      by_contra hlive
      exact hq ((h.live q).mpr hlive)
    have hpreserves := storeMngrBlockAlloc_preserves (some q) fileSize
    cases halloc : (storeMngrBlockAlloc (some q) fileSize).run p.session.mngr with
    | ok blk m =>
      have haddr := addr_of_blockAlloc halloc
      rw [show p.memory.mngr = p.session.mngr from rfl, halloc] at hcases
      obtain ⟨heap, hheap, hrun⟩ := hcases
      refine ⟨some q, q ::ₘ handles, ?_, ?_, ?_⟩
      · rintro _ ⟨⟩
        exact hnone
      · simp only [exec, hrun, StoreCall.op, StoreSession.exec, halloc]
      · simp only [exec, hrun]
        rw [← haddr] at hheap ⊢
        exact h.allocated hheap (hpreserves.ok halloc)
    | error e m =>
      rw [show p.memory.mngr = p.session.mngr from rfl, halloc] at hcases
      obtain ⟨heap, hheap, hrun⟩ := hcases
      refine ⟨some q, handles, ?_, ?_, ?_⟩
      · rintro _ ⟨⟩
        exact hnone
      · simp only [exec, hrun, StoreCall.op, StoreSession.exec, halloc]
      · simp only [exec, hrun]
        exact h.frame hheap (hpreserves.error halloc)

theorem Owns.blockFree (h : Owns m₀ p handles) (q : ℕ) : Refines m₀ p (.blockFree q) := by
  cases hq : p.session.live q with
  | none =>
    refine ⟨none, handles, nofun, ?_, ?_⟩
    · simp only [exec, hq, StoreCall.op, StoreSession.exec]
    · simp only [exec, hq]
      exact h
  | some blk =>
    have hmem : q ∈ handles := (h.live q).mpr (hq ▸ Option.some_ne_none blk)
    obtain ⟨rest, rfl⟩ := Multiset.exists_cons_of_mem hmem
    have haddr := h.addr q blk hq
    have hheap := h.heap
    rw [← haddr] at hheap
    have hcases := StoreMemory.blockFree_cases (t := p.memory) hheap
    have hpreserves := storeMngrBlockFree_preserves blk
    refine ⟨none, rest, nofun, ?_⟩
    cases hfree : (storeMngrBlockFree blk).run p.session.mngr with
    | ok u m =>
      rw [show p.memory.mngr = p.session.mngr from rfl, hfree] at hcases
      obtain ⟨heap, hheap, hrun⟩ := hcases
      simp only [exec, hq, hrun, StoreCall.op, StoreSession.exec, hfree]
      exact ⟨trivial, h.freed hheap (hpreserves.ok hfree)⟩
    | error e m =>
      rw [show p.memory.mngr = p.session.mngr from rfl, hfree] at hcases
      obtain ⟨heap, hheap, hrun⟩ := hcases
      simp only [exec, hq, hrun, StoreCall.op, StoreSession.exec, hfree]
      exact ⟨trivial, h.freed hheap (hpreserves.error hfree)⟩

theorem Owns.blockWrite (h : Owns m₀ p handles) (q : ℕ) (fileBytesOffset : UInt32)
    (data : StoreMngrData) : Refines m₀ p (.blockWrite q fileBytesOffset data) := by
  refine ⟨none, handles, nofun, ?_⟩
  cases hq : p.session.live q with
  | none =>
    simp only [exec, hq, StoreCall.op, StoreSession.exec]
    exact ⟨trivial, h⟩
  | some blk =>
    have hmem : blk.addr ∈ handles := by
      rw [h.addr q blk hq]
      exact (h.live q).mpr (hq ▸ Option.some_ne_none blk)
    have hpreserves := storeMngrBlockWrite_preserves blk fileBytesOffset data
    obtain ⟨heap, hrun, howns⟩ := StoreMemory.access_cases (t := p.memory) hpreserves h.heap hmem
    rw [← StoreMemory.blockWrite, show p.memory.mngr = p.session.mngr from rfl] at hrun
    rw [show p.memory.mngr = p.session.mngr from rfl] at howns
    cases hwrite : (storeMngrBlockWrite blk fileBytesOffset data).run p.session.mngr with
    | ok u m =>
      rw [hwrite] at hrun howns
      simp only [exec, hq, hrun, StoreCall.op, StoreSession.exec, hwrite]
      exact ⟨trivial, h.frame howns (hpreserves.ok hwrite)⟩
    | error e m =>
      rw [hwrite] at hrun howns
      simp only [exec, hq, hrun, StoreCall.op, StoreSession.exec, hwrite]
      exact ⟨trivial, h.frame howns (hpreserves.error hwrite)⟩

theorem Owns.blockRead (h : Owns m₀ p handles) (q : ℕ) (fileBytesOffset readSize : UInt32)
    (dataOut : StoreMngrData) : Refines m₀ p (.blockRead q fileBytesOffset readSize dataOut) := by
  refine ⟨none, handles, nofun, ?_⟩
  cases hq : p.session.live q with
  | none =>
    simp only [exec, hq, StoreCall.op, StoreSession.exec]
    exact ⟨trivial, h⟩
  | some blk =>
    have hmem : blk.addr ∈ handles := by
      rw [h.addr q blk hq]
      exact (h.live q).mpr (hq ▸ Option.some_ne_none blk)
    have hpreserves := storeMngrBlockRead_preserves blk fileBytesOffset readSize dataOut
    obtain ⟨heap, hrun, howns⟩ := StoreMemory.access_cases (t := p.memory) hpreserves h.heap hmem
    rw [← StoreMemory.blockRead, show p.memory.mngr = p.session.mngr from rfl] at hrun
    rw [show p.memory.mngr = p.session.mngr from rfl] at howns
    cases hread : (storeMngrBlockRead blk fileBytesOffset readSize dataOut).run p.session.mngr with
    | ok u m =>
      rw [hread] at hrun howns
      simp only [exec, hq, hrun, StoreCall.op, StoreSession.exec, hread]
      exact ⟨trivial, h.frame howns (hpreserves.ok hread)⟩
    | error e m =>
      rw [hread] at hrun howns
      simp only [exec, hq, hrun, StoreCall.op, StoreSession.exec, hread]
      exact ⟨trivial, h.frame howns (hpreserves.error hread)⟩

/-- One call. -/
theorem Owns.exec (h : Owns m₀ p handles) (call : StoreCall) : Refines m₀ p call := by
  cases call with
  | blockAlloc fileSize => exact h.blockAlloc fileSize
  | blockFree q => exact h.blockFree q
  | blockWrite q fileBytesOffset data => exact h.blockWrite q fileBytesOffset data
  | blockRead q fileBytesOffset readSize dataOut =>
    exact h.blockRead q fileBytesOffset readSize dataOut

theorem owns_of_reach {ok : StoreSession → StoreOp → Prop} {m : StoreMngr} {heap : Heap}
    (hm : heap.Owns m.owned) (hr : Reach (Allows ok) exec ⟨heap, .start m⟩ p) :
    Reach ok StoreSession.exec (.start m) p.session ∧ ∃ handles, Owns m p handles := by
  apply hr.invariant fun p => Reach ok StoreSession.exec (.start m) p.session ∧
    ∃ handles, Owns m p handles
  · refine ⟨.start, 0, ?_, ?_, nofun, rfl⟩
    · simpa [StoreSession.start] using hm
    · simp [StoreSession.start]
  · rintro p call ⟨hreach, handles, howns⟩ hcall
    obtain ⟨handler, handles', hfresh, hsession, howns'⟩ := howns.exec call
    constructor
    · rw [hsession]
      exact hreach.step _ (hcall handler hfresh)
    · exact ⟨handles', howns'⟩

/-- In every run the handles are objects that were not in use, so that it is a run of the session;
what is allocated are the objects of the manager and the live handles, none of which was used after
a release; and the destruction of the manager leaves the live handles, so that it releases
everything exactly if all blocks were freed before. -/
theorem handles_accounted {ok : StoreSession → StoreOp → Prop} {stored : Option (List UInt8)}
    {cfg : StoreMngrCfg} {m : StoreMngr} {grant : ℕ → Bool} {heap : Heap}
    (hc : (storeMngrCreate stored cfg).run ⟨grant, 0, []⟩ = .ok m heap)
    (hr : Reach (Allows ok) exec ⟨heap, .start m⟩ p) :
    Reach ok StoreSession.exec (.start m) p.session ∧
      ∃ handles : Multiset ℕ, (∀ q, q ∈ handles ↔ p.session.live q ≠ none) ∧
        p.heap.Owns (p.session.mngr.owned + handles) ∧
        Leaves (fun _ heap' => heap'.Owns handles ∧
            (HeapEvent.Settled heap'.events ↔ ∀ q, p.session.live q = none))
          (fun _ => False) ((storeMngrDestroy p.session.mngr).run p.heap) := by
  have hslots : ¬ cfg.SlotsRefused ⟨grant, 0, []⟩ := by
    intro hrefused
    obtain ⟨e, heap₁, herror, -⟩ := storeMngrCreate_slotsRefused stored hrefused
    cases hc.symm.trans herror
  have hm : heap.Owns m.owned := by
    have hleaves := storeMngrCreate_accounts stored cfg 0 hslots (.start grant 0)
    rw [hc] at hleaves
    simpa [Leaves] using hleaves
  have hdelete : m.rFileCtrl.deleteFiles = true := by
    obtain ⟨-, _, _, hfile⟩ := storeMngrCreate_parts hc
    exact (ramFileCreate_ok hfile).2.2
  obtain ⟨hreach, handles, howns⟩ := owns_of_reach hm hr
  refine ⟨hreach, handles, howns.live, howns.heap, ?_⟩
  have hdestroy : Accounts p.heap (p.session.mngr.owned + handles)
      (storeMngrDestroy p.session.mngr) (fun _ => handles) none := by
    apply storeMngrDestroy_accounts
    rw [StoreMngr.deleteFiles_of_placement howns.placement, hdelete]
  have hleaves := hdestroy howns.heap
  cases hrun : (storeMngrDestroy p.session.mngr).run p.heap with
  | ok u heap' =>
    rw [hrun] at hleaves
    refine ⟨hleaves, ?_⟩
    rw [Heap.Owns.settled_iff hleaves, Multiset.eq_zero_iff_forall_notMem]
    apply forall_congr'
    intro q
    rw [howns.live, not_not]
  | error e heap' =>
    rw [hrun] at hleaves
    obtain ⟨A, hA, -⟩ := hleaves
    cases hA

/-- Two blocks are allocated, and only the first one is freed. -/
theorem handles_accounted_two : ∃ (m : StoreMngr) (heap : Heap) (p : StoreProcess),
    (storeMngrCreate none ⟨1024, 512⟩).run ⟨fun _ => true, 0, []⟩ = .ok m heap ∧
      p.session.live 7 = none ∧ p.session.live 8 ≠ none ∧
      Reach StoreSession.Usable StoreSession.exec (.start m) p.session ∧
      Leaves (fun _ heap' => ¬ HeapEvent.Settled heap'.events) (fun _ => False)
        ((storeMngrDestroy p.session.mngr).run p.heap) := by
  let both (m : StoreMngr) (heap : Heap) : StoreProcess :=
    (exec ⟨heap, .start m⟩ (.blockAlloc 512)).exec (.blockAlloc 300)
  obtain ⟨m, heap, hc, hfirst, hsecond, hfreed⟩ : ∃ m heap,
      (storeMngrCreate none ⟨1024, 512⟩).run ⟨fun _ => true, 0, []⟩ = .ok m heap ∧
        (both m heap).session.live 7 ≠ none ∧
        ((both m heap).exec (.blockFree 7)).session.live 8 ≠ none ∧
        ((both m heap).exec (.blockFree 7)).session.live 7 = none :=
    ⟨_, _, rfl, by decide +kernel, by decide +kernel, by decide +kernel⟩
  have hboth : Reach (Allows StoreSession.Usable) exec ⟨heap, .start m⟩ (both m heap) :=
    (Reach.start.step (StoreCall.blockAlloc 512) fun _ h => h).step (.blockAlloc 300) fun _ h => h
  obtain ⟨hreach, handles, -, -, hleaves⟩ := handles_accounted hc
    (hboth.step (.blockFree 7) fun _ _ => hfirst)
  refine ⟨m, heap, _, hc, hfreed, hsecond, hreach, ?_⟩
  cases hrun : (storeMngrDestroy ((both m heap).exec (.blockFree 7)).session.mngr).run
    ((both m heap).exec (.blockFree 7)).heap with
  | ok u heap' =>
    rw [hrun] at hleaves
    exact fun hsettled => hsecond (hleaves.2.mp hsettled 8)
  | error e heap' =>
    rw [hrun] at hleaves
    exact hleaves

end StoreProcess
end FileTransfer
