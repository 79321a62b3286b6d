import FileTransfer.ClientServer.BoundedFile
import FileTransfer.Foundation.Directory
import FileTransfer.StorageManager.Ownership

/-! The objects of `ram_file_ctrl.c` that a process has, and the disk that their files are on. A
path is taken to be the name of its file. -/
namespace FileTransfer
open Directory Heap Run

/-- An object and what its stream is open on, which is number `node` of the files on the disk. The
`content` of `obj` is what the file had when it was opened. -/
structure OpenRamFile where
  obj : RamFile
  path : String
  node : ℕ

/-- The caller has pointers to objects; a pointer that is `none` is NULL. `removals` is the number
of the calls of `remove`. -/
structure RamFiles where
  heap : Heap
  disk : Disk String (List UInt8)
  objects : ℕ → Option OpenRamFile
  removals : ℕ

inductive RamFileReply
  | done
  | bytes (data : List UInt8)
  | size (n : Int64)
deriving DecidableEq

/-- The calls on the pointer `k`, and those on a path. -/
inductive RamFileRequest
  | create (k : ℕ) (filePath : String) (cfg : RamFileCfg)
  | destroy (k : ℕ)
  | write (k : ℕ) (offset : UInt64) (data : Option (List UInt8)) (dataSize : UInt64)
  | read (k : ℕ) (offset : UInt64) (dataOut : Option (List UInt8)) (dataSize : UInt64)
  | exist (filePath : String)
  | sizeInBytes (filePath : String)

namespace RamFiles

def start (grant : ℕ → Bool) (disk : Disk String (List UInt8)) : RamFiles :=
  ⟨⟨grant, 0, []⟩, disk, fun _ => none, 0⟩

def onHeap {α : Type} : HeapCall α → Call RamFiles α :=
  zoom (·.heap) fun t heap => { t with heap }

/-- A call on an object works on the bytes that the file has by then, and leaves them flushed. -/
def onFile {α : Type} (o : OpenRamFile) : Call RamFile α → Call RamFiles α :=
  zoom (fun t => { o.obj with content := t.disk.content o.node })
    fun t f => { t with disk := t.disk.store o.node f.content }

def setObject (k : ℕ) (o : Option OpenRamFile) : Call RamFiles Unit :=
  modify fun t => { t with objects := Function.update t.objects k o }

/-- A call may look at the object and at its stream, so both count as looked at. -/
def touch (o : OpenRamFile) : Call RamFiles Unit := do
  onHeap (access o.obj.addr)
  onHeap (access o.obj.file)

/-- `check_if_file_exist`. -/
def checkIfFileExist (filePath : String) : Call RamFiles Unit := do
  if ((← get).disk.read filePath).isNone then throw .ENOENT

/-- `delete_file_if_exists`; `removeErrno i` is why call number `i` of `remove` fails. -/
def deleteFileIfExists (removeErrno : ℕ → Option Errno) (filePath : String) :
    Call RamFiles Unit := do
  match ← attempt (checkIfFileExist filePath) with
  | .error _ => return
  | .ok _ =>
    let t ← get
    match removeErrno t.removals with
    | some e =>
      set { t with removals := t.removals + 1 }
      throw e
    | none => set { t with removals := t.removals + 1, disk := t.disk.remove filePath }

/-- `ram_file_create`. -/
def create (k : ℕ) (filePath : String) (cfg : RamFileCfg) : Call RamFiles Unit := do
  let disk := (← get).disk
  let obj ← onHeap (ramFileCreate (disk.read filePath) cfg)
  match disk.links filePath with
  | some node => setObject k (some ⟨obj, filePath, node⟩)
  | none =>
    modify fun t => { t with disk := disk.make filePath [] }
    setObject k (some ⟨obj, filePath, disk.files⟩)

/-- `ram_file_destroy`, after which the caller gives its pointer up. -/
def destroy (removeErrno : ℕ → Option Errno) (k : ℕ) : Call RamFiles Unit := do
  match (← get).objects k with
  | none => throw .EINVAL
  | some o =>
    setObject k none
    onHeap (ramFileDestroy o.obj)
    if o.obj.deleteFiles then deleteFileIfExists removeErrno o.path

/-- `ram_file_write`. -/
def write (k : ℕ) (offset : UInt64) (data : Option (List UInt8)) (dataSize : UInt64) :
    Call RamFiles Unit := do
  match (← get).objects k with
  | none => throw .EINVAL
  | some o =>
    touch o
    onFile o (ramFileWrite offset data dataSize)

/-- `ram_file_read`. -/
def read (k : ℕ) (offset : UInt64) (dataOut : Option (List UInt8)) (dataSize : UInt64) :
    Call RamFiles (List UInt8) := do
  match (← get).objects k with
  | none => throw .EINVAL
  | some o =>
    touch o
    onFile o (ramFileRead offset dataOut dataSize)

/-- `ram_file_size_in_bytes`. -/
def sizeInBytes (filePath : String) : Call RamFiles Int64 := do
  checkIfFileExist filePath
  return ramFileSizeInBytes (((← get).disk.read filePath).getD [])

def answer (removeErrno : ℕ → Option Errno) (t : RamFiles) :
    RamFileRequest → Except Errno RamFileReply × RamFiles
  | .create k filePath cfg => FileTransfer.answer ((fun _ => .done) <$> create k filePath cfg) t
  | .destroy k => FileTransfer.answer ((fun _ => .done) <$> destroy removeErrno k) t
  | .write k offset data dataSize =>
    FileTransfer.answer ((fun _ => .done) <$> write k offset data dataSize) t
  | .read k offset dataOut dataSize =>
    FileTransfer.answer (.bytes <$> read k offset dataOut dataSize) t
  | .exist filePath => FileTransfer.answer ((fun _ => .done) <$> checkIfFileExist filePath) t
  | .sizeInBytes filePath => FileTransfer.answer (.size <$> sizeInBytes filePath) t

end RamFiles

/-! ### Paths with bytes -/

/-- What there is under each path, and which path each pointer has open. `paths` is the number of
the copies of paths that were never released. -/
structure PathStore where
  disk : String → Option (List UInt8)
  opened : ℕ → Option (String × RamFileCfg)
  requests : ℕ
  removals : ℕ
  paths : ℕ

/-- A bounded file with these bytes. -/
def RamFileCfg.file (cfg : RamFileCfg) (content : List UInt8) : RamFile :=
  ⟨0, 0, 0, cfg.effectiveMax, cfg.deleteFiles, content⟩

namespace PathStore

def start (disk : String → Option (List UInt8)) : PathStore := ⟨disk, fun _ => none, 0, 0, 0⟩

/-- Only one object at a time is for a path. -/
def Enabled (a : PathStore) : RamFileRequest → Prop
  | .create k filePath _ => a.opened k = none ∧
    ∀ k' filePath' cfg, a.opened k' = some (filePath', cfg) → filePath' ≠ filePath
  | _ => True

def create (grant : ℕ → Bool) (a : PathStore) (k : ℕ) (filePath : String) (cfg : RamFileCfg) :
    Except Errno RamFileReply × PathStore :=
  if grant a.requests then
    if grant (a.requests + 1) then
      if grant (a.requests + 2) then
        (.ok .done, { a with
          disk := Function.update a.disk filePath (some ((a.disk filePath).getD []))
          opened := Function.update a.opened k (some (filePath, cfg))
          requests := a.requests + 3 })
      else (.error .EIOERR, { a with requests := a.requests + 3 })
    else (.error .ENOMEM, { a with requests := a.requests + 2 })
  else (.error .ENOMEM, { a with requests := a.requests + 1 })

def destroy (removeErrno : ℕ → Option Errno) (a : PathStore) (k : ℕ) :
    Except Errno RamFileReply × PathStore :=
  match a.opened k with
  | none => (.error .EINVAL, a)
  | some (filePath, cfg) =>
    if cfg.deleteFiles then
      match removeErrno a.removals with
      | some e => (.error e, { a with
          opened := Function.update a.opened k none
          removals := a.removals + 1 })
      | none => (.ok .done, { a with
          disk := Function.update a.disk filePath none
          opened := Function.update a.opened k none
          removals := a.removals + 1 })
    else (.ok .done, { a with
      opened := Function.update a.opened k none
      paths := a.paths + 1 })

def answer (grant : ℕ → Bool) (removeErrno : ℕ → Option Errno) (a : PathStore) :
    RamFileRequest → Except Errno RamFileReply × PathStore
  | .create k filePath cfg => a.create grant k filePath cfg
  | .destroy k => a.destroy removeErrno k
  | .write k offset data dataSize =>
    match a.opened k with
    | none => (.error .EINVAL, a)
    | some (filePath, cfg) =>
      match (ramFileWrite offset data dataSize).run (cfg.file ((a.disk filePath).getD [])) with
      | .ok _ f => (.ok .done, { a with disk := Function.update a.disk filePath (some f.content) })
      | .error e _ => (.error e, a)
  | .read k offset dataOut dataSize =>
    match a.opened k with
    | none => (.error .EINVAL, a)
    | some (filePath, cfg) =>
      match (ramFileRead offset dataOut dataSize).run (cfg.file ((a.disk filePath).getD [])) with
      | .ok data _ => (.ok (.bytes data), a)
      | .error e _ => (.error e, a)
  | .exist filePath => if (a.disk filePath).isSome then (.ok .done, a) else (.error .ENOENT, a)
  | .sizeInBytes filePath =>
    match a.disk filePath with
    | none => (.error .ENOENT, a)
    | some content => (.ok (.size (ramFileSizeInBytes content)), a)

end PathStore

/-! ### The calls on one file -/

section Calls
variable {heap : Heap} {f g : RamFile}

/-- Which request failed, if one did. -/
theorem ramFileCreate_outcome (stored : Option (List UInt8)) (cfg : RamFileCfg) (heap : Heap) :
    match (ramFileCreate stored cfg).run heap with
    | .ok _ heap' => heap'.grant = heap.grant ∧ heap'.requests = heap.requests + 3 ∧
      heap.grant heap.requests = true ∧ heap.grant (heap.requests + 1) = true ∧
        heap.grant (heap.requests + 2) = true
    | .error e heap' => heap'.grant = heap.grant ∧
      (heap'.requests = heap.requests + 1 ∧ e = .ENOMEM ∧ ¬ heap.grant heap.requests = true ∨
        heap'.requests = heap.requests + 2 ∧ e = .ENOMEM ∧ heap.grant heap.requests = true ∧
          ¬ heap.grant (heap.requests + 1) = true ∨
        heap'.requests = heap.requests + 3 ∧ e = .EIOERR ∧ heap.grant heap.requests = true ∧
          heap.grant (heap.requests + 1) = true ∧ ¬ heap.grant (heap.requests + 2) = true) := by
  unfold ramFileCreate
  rw [request_bind_run]
  by_cases h₁ : heap.grant heap.requests = true
  · rw [if_pos h₁]
    dsimp only
    rw [request_bind_run]
    by_cases h₂ : heap.granted.grant heap.granted.requests = true
    · rw [if_pos h₂]
      dsimp only
      rw [request_bind_run]
      by_cases h₃ : heap.granted.granted.grant heap.granted.granted.requests = true
      · rw [if_pos h₃]
        exact ⟨rfl, rfl, h₁, h₂, h₃⟩
      · rw [if_neg h₃]
        exact ⟨rfl, Or.inr (Or.inr ⟨rfl, rfl, h₁, h₂, h₃⟩)⟩
    · rw [if_neg h₂]
      exact ⟨rfl, Or.inr (Or.inl ⟨rfl, rfl, h₁, h₂⟩)⟩
  · rw [if_neg h₁]
    exact ⟨rfl, Or.inl ⟨rfl, rfl, h₁⟩⟩

/-- A destruction asks for nothing. -/
theorem ramFileDestroy_run (f : RamFile) (heap : Heap) :
    ∃ events, (ramFileDestroy f).run heap = .ok () { heap with events } := by
  unfold ramFileDestroy
  cases f.deleteFiles with
  | false => exact ⟨_, rfl⟩
  | true => exact ⟨_, rfl⟩

/-- A write looks at nothing but the bound and the bytes of a file. -/
theorem ramFileWrite_congr (hmax : f.maxFileSize = g.maxFileSize) (hcontent : f.content = g.content)
    (offset : UInt64) (data : Option (List UInt8)) (dataSize : UInt64) :
    match (ramFileWrite offset data dataSize).run f, (ramFileWrite offset data dataSize).run g with
    | .ok _ f', .ok _ g' => f'.content = g'.content
    | .error e f', .error e' _ => e = e' ∧ f' = f
    | _, _ => False := by
  unfold ramFileWrite
  cases data with
  | none => exact ⟨rfl, rfl⟩
  | some bytes =>
    dsimp only
    by_cases hzero : dataSize = 0
    · simp [hzero]
    by_cases hend : g.maxFileSize < offset + dataSize
    · simp [hzero, hmax, hend]
    by_cases hseek : seekable offset = true
    · by_cases hlen : bytes.length < dataSize.toNat
      · simp [hzero, hmax, hend, hseek, hlen]
      · simp [hzero, hmax, hend, hseek, hlen, hcontent]
    · simp [hzero, hmax, hend, hseek]

theorem ramFileRead_congr (hmax : f.maxFileSize = g.maxFileSize) (hcontent : f.content = g.content)
    (offset : UInt64) (dataOut : Option (List UInt8)) (dataSize : UInt64) :
    match (ramFileRead offset dataOut dataSize).run f,
      (ramFileRead offset dataOut dataSize).run g with
    | .ok data f', .ok data' _ => data = data' ∧ f' = f
    | .error e f', .error e' _ => e = e' ∧ f' = f
    | _, _ => False := by
  unfold ramFileRead
  cases dataOut with
  | none => exact ⟨rfl, rfl⟩
  | some buffer =>
    dsimp only
    by_cases hzero : dataSize = 0
    · simp [hzero]
    by_cases hend : g.maxFileSize < offset + dataSize
    · simp [hzero, hmax, hend]
    by_cases hseek : seekable offset = true
    · by_cases hlen : buffer.length < dataSize.toNat
      · simp [hzero, hmax, hend, hseek, hlen]
      · by_cases hshort : g.content.length - offset.toNat < dataSize.toNat
        · simp [hzero, hmax, hend, hseek, hlen, hcontent, hshort]
        · simp [hzero, hmax, hend, hseek, hlen, hcontent, hshort]
    · simp [hzero, hmax, hend, hseek]

end Calls

/-! ### The objects show the paths -/

/-- The stream of the object is open on the file under that path. -/
structure OpenRamFile.On (o : OpenRamFile) (disk : Disk String (List UInt8))
    (opened : String × RamFileCfg) : Prop where
  path : o.path = opened.1
  node : disk.links opened.1 = some o.node
  maxFileSize : o.obj.maxFileSize = opened.2.effectiveMax
  deleteFiles : o.obj.deleteFiles = opened.2.deleteFiles

/-- What the objects of some pointers own. -/
def RamFiles.owned (objects : ℕ → Option OpenRamFile) (slots : Finset ℕ) : Multiset ℕ :=
  ∑ k ∈ slots, (objects k).elim 0 fun o => o.obj.owned

/-- Nothing is allocated but the objects that are in use and the paths that others have left. -/
structure RamFiles.Accounted (heap : Heap) (objects : ℕ → Option OpenRamFile) (paths : ℕ)
    (slots : Finset ℕ) (left : Multiset ℕ) : Prop where
  live : ∀ k, k ∈ slots ↔ objects k ≠ none
  card : left.card = paths
  owns : heap.Owns (owned objects slots + left)

structure RamFiles.Shows (grant : ℕ → Bool) (t : RamFiles) (a : PathStore) : Prop where
  opened : ∀ k o, t.objects k = some o → ∃ p, a.opened k = some p ∧ o.On t.disk p
  closed : ∀ k, t.objects k = none → a.opened k = none
  alone : ∀ k k' p p', a.opened k = some p → a.opened k' = some p' → p.1 = p'.1 → k = k'
  disk : a.disk = t.disk.read
  grant : t.heap.grant = grant
  requests : t.heap.requests = a.requests
  removals : t.removals = a.removals
  accounted : ∃ slots left, Accounted t.heap t.objects a.paths slots left

namespace RamFiles
variable {grant : ℕ → Bool} {removeErrno : ℕ → Option Errno} {t : RamFiles} {a : PathStore}
  {objects : ℕ → Option OpenRamFile} {heap : Heap} {o : OpenRamFile} {slots : Finset ℕ}
  {left : Multiset ℕ} {paths k : ℕ}

theorem owned_insert (hk : k ∉ slots) (o : OpenRamFile) :
    owned (Function.update objects k (some o)) (insert k slots) =
      o.obj.owned + owned objects slots := by
  unfold owned
  rw [Finset.sum_insert hk, Function.update_self]
  congr 1
  apply Finset.sum_congr rfl
  intro j hj
  rw [Function.update_of_ne (ne_of_mem_of_not_mem hj hk)]

theorem owned_erase (hk : k ∈ slots) (ho : objects k = some o) :
    owned objects slots =
      o.obj.owned + owned (Function.update objects k none) (slots.erase k) := by
  unfold owned
  rw [← Finset.add_sum_erase slots _ hk, ho]
  congr 1
  apply Finset.sum_congr rfl
  intro j hj
  rw [Function.update_of_ne (Finset.ne_of_mem_erase hj)]

namespace Accounted

theorem mem_owned (h : Accounted heap objects paths slots left) (ho : objects k = some o) {q : ℕ}
    (hq : q ∈ o.obj.owned) : q ∈ owned objects slots + left := by
  have hk : k ∈ slots := (h.live k).mpr (by simp [ho])
  rw [owned_erase hk ho, add_assoc]
  exact Multiset.mem_add.mpr (Or.inl hq)

theorem accessed (h : Accounted heap objects paths slots left) (ho : objects k = some o) {q : ℕ}
    (hq : q ∈ o.obj.owned) :
    Accounted { heap with events := .access q :: heap.events } objects paths slots left :=
  ⟨h.live, h.card, h.owns.accessed (h.mem_owned ho hq)⟩

theorem created (h : Accounted heap objects paths slots left) (hk : objects k = none)
    (o : OpenRamFile) {heap' : Heap}
    (howns : heap'.Owns (o.obj.owned + (owned objects slots + left))) :
    Accounted heap' (Function.update objects k (some o)) paths (insert k slots) left := by
  have hnew : k ∉ slots := fun hmem => (h.live k).mp hmem hk
  constructor
  · intro j
    rw [Finset.mem_insert, Function.update_apply, h.live]
    split_ifs with hj
    · simp [hj]
    · simp [hj]
  · exact h.card
  · rw [owned_insert hnew, add_assoc]
    exact howns

/-- The destruction of an object leaves its path, unless it removes the file. -/
theorem destroyed (h : Accounted heap objects paths slots left) (ho : objects k = some o) :
    ∃ events left', (ramFileDestroy o.obj).run heap = .ok () { heap with events } ∧
      Accounted { heap with events } (Function.update objects k none)
        (if o.obj.deleteFiles then paths else paths + 1) (slots.erase k) left' := by
  have hk : k ∈ slots := (h.live k).mpr (by simp [ho])
  let rest := owned (Function.update objects k none) (slots.erase k)
  have howns : heap.Owns (o.obj.owned + (rest + left)) := by
    rw [← add_assoc, ← owned_erase hk ho]
    exact h.owns
  have hlive : ∀ j, j ∈ slots.erase k ↔ Function.update objects k none j ≠ none := by
    intro j
    rw [Finset.mem_erase, Function.update_apply, h.live]
    split_ifs with hj
    · simp [hj]
    · simp [hj]
  obtain ⟨events, hrun⟩ := ramFileDestroy_run o.obj heap
  cases hdelete : o.obj.deleteFiles with
  | false =>
    have haccounts : Accounts heap _ (ramFileDestroy o.obj) _ none :=
      ramFileDestroy_accounts_path o.obj (rest + left) hdelete
    have hleaves := haccounts howns
    rw [hrun] at hleaves
    refine ⟨events, o.obj.filePath ::ₘ left, hrun, hlive, ?_, ?_⟩
    · rw [Multiset.card_cons, h.card]
      rfl
    · rw [Multiset.add_cons]
      exact hleaves
  | true =>
    have haccounts : Accounts heap _ (ramFileDestroy o.obj) _ none :=
      ramFileDestroy_accounts o.obj (rest + left) hdelete
    have hleaves := haccounts howns
    rw [hrun] at hleaves
    exact ⟨events, left, hrun, hlive, h.card, hleaves⟩

end Accounted

namespace Shows

theorem cases (h : t.Shows grant a) (k : ℕ) : t.objects k = none ∧ a.opened k = none ∨
    ∃ o p, t.objects k = some o ∧ a.opened k = some p ∧ o.On t.disk p := by
  cases ho : t.objects k with
  | none => exact Or.inl ⟨rfl, h.closed k ho⟩
  | some o =>
    obtain ⟨p, ha, hon⟩ := h.opened k o ho
    exact Or.inr ⟨o, p, rfl, ha, hon⟩

theorem read_of_on (h : t.Shows grant a) {p : String × RamFileCfg} (hon : o.On t.disk p) :
    a.disk p.1 = some (t.disk.content o.node) := by
  rw [h.disk]
  exact Disk.read_of_links hon.node

/-- A call on the file of an object, by what it gives on the bytes of the file. -/
theorem onFile_run (h : t.Shows grant a) (ho : t.objects k = some o) {α : Type}
    (x : Call RamFile α) : ∃ heap, RamFiles.Shows grant { t with heap } a ∧
      (do touch o; onFile o x : Call RamFiles α).run t =
        match x.run { o.obj with content := t.disk.content o.node } with
        | .ok b f => .ok b { t with heap, disk := t.disk.store o.node f.content }
        | .error e f => .error e { t with heap, disk := t.disk.store o.node f.content } := by
  obtain ⟨slots, left, haccounted⟩ := h.accounted
  have haddr : o.obj.addr ∈ o.obj.owned := by simp [RamFile.owned]
  have hfile : o.obj.file ∈ o.obj.owned := by simp [RamFile.owned]
  have hlooked := (haccounted.accessed ho haddr).accessed ho hfile
  let heap := { t.heap with
    events := .access o.obj.file :: .access o.obj.addr :: t.heap.events }
  have htouch : (touch o).run t = .ok () { t with heap } := rfl
  refine ⟨heap, ?_, ?_⟩
  · exact ⟨h.opened, h.closed, h.alone, h.disk, h.grant, h.requests, h.removals, slots, left,
      hlooked⟩
  · rw [EStateM.run_bind, htouch]
    dsimp only
    unfold onFile
    rw [zoom_run]
    cases x.run { o.obj with content := t.disk.content o.node } <;> rfl

/-- Other bytes in the file of an object. -/
theorem stored (h : t.Shows grant a) {p : String × RamFileCfg} (hon : o.On t.disk p)
    (content : List UInt8) :
    RamFiles.Shows grant { t with disk := t.disk.store o.node content }
      { a with disk := Function.update a.disk p.1 (some content) } := by
  refine ⟨fun j o' ho' => ?_, h.closed, h.alone, ?_, h.grant, h.requests, h.removals, h.accounted⟩
  · obtain ⟨p', ha', hon'⟩ := h.opened j o' ho'
    exact ⟨p', ha', hon'.path, hon'.node, hon'.maxFileSize, hon'.deleteFiles⟩
  · dsimp only
    rw [Disk.read_store hon.node, h.disk]

theorem write (h : t.Shows grant a) (k : ℕ) (offset : UInt64) (data : Option (List UInt8))
    (dataSize : UInt64) :
    (t.answer removeErrno (.write k offset data dataSize)).1 =
        (a.answer grant removeErrno (.write k offset data dataSize)).1 ∧
      RamFiles.Shows grant (t.answer removeErrno (.write k offset data dataSize)).2
        (a.answer grant removeErrno (.write k offset data dataSize)).2 := by
  rcases h.cases k with ⟨ho, ha⟩ | ⟨o, p, ho, ha, hon⟩
  · have hrun : t.answer removeErrno (.write k offset data dataSize) = (.error .EINVAL, t) := by
      simp [RamFiles.answer, FileTransfer.answer, RamFiles.write, ho]
    rw [hrun]
    simpa [PathStore.answer, ha] using h
  · obtain ⟨heap, hnext, hrun⟩ := h.onFile_run ho (ramFileWrite offset data dataSize)
    have hwrite : (RamFiles.write k offset data dataSize).run t =
        (do touch o; onFile o (ramFileWrite offset data dataSize) : Call RamFiles Unit).run t := by
      unfold RamFiles.write
      rw [EStateM.run_bind, EStateM.run_get]
      dsimp only
      rw [ho]
    have hcontent : a.disk p.1 = some (t.disk.content o.node) := h.read_of_on hon
    have hsame := ramFileWrite_congr (f := { o.obj with content := t.disk.content o.node })
      (g := p.2.file (t.disk.content o.node)) hon.maxFileSize rfl offset data dataSize
    simp only [RamFiles.answer, FileTransfer.answer, run_map, hwrite, hrun, PathStore.answer, ha,
      hcontent, Option.getD_some]
    cases hf : (ramFileWrite offset data dataSize).run
      { o.obj with content := t.disk.content o.node } with
    | ok u f =>
      cases hg : (ramFileWrite offset data dataSize).run
        (p.2.file (t.disk.content o.node)) with
      | ok u g =>
        rw [hf, hg] at hsame
        dsimp only at hsame ⊢
        rw [hsame]
        exact ⟨rfl, hnext.stored hon g.content⟩
      | error e g =>
        rw [hf, hg] at hsame
        exact hsame.elim
    | error e f =>
      cases hg : (ramFileWrite offset data dataSize).run
        (p.2.file (t.disk.content o.node)) with
      | ok u g =>
        rw [hf, hg] at hsame
        exact hsame.elim
      | error e' g =>
        rw [hf, hg] at hsame
        obtain ⟨rfl, rfl⟩ := hsame
        dsimp only
        rw [Disk.store_self]
        exact ⟨rfl, hnext⟩

theorem read (h : t.Shows grant a) (k : ℕ) (offset : UInt64) (dataOut : Option (List UInt8))
    (dataSize : UInt64) :
    (t.answer removeErrno (.read k offset dataOut dataSize)).1 =
        (a.answer grant removeErrno (.read k offset dataOut dataSize)).1 ∧
      RamFiles.Shows grant (t.answer removeErrno (.read k offset dataOut dataSize)).2
        (a.answer grant removeErrno (.read k offset dataOut dataSize)).2 := by
  rcases h.cases k with ⟨ho, ha⟩ | ⟨o, p, ho, ha, hon⟩
  · have hrun : t.answer removeErrno (.read k offset dataOut dataSize) = (.error .EINVAL, t) := by
      simp [RamFiles.answer, FileTransfer.answer, RamFiles.read, ho]
    rw [hrun]
    simpa [PathStore.answer, ha] using h
  · obtain ⟨heap, hnext, hrun⟩ := h.onFile_run ho (ramFileRead offset dataOut dataSize)
    have hread : (RamFiles.read k offset dataOut dataSize).run t =
        (do touch o; onFile o (ramFileRead offset dataOut dataSize) :
          Call RamFiles (List UInt8)).run t := by
      unfold RamFiles.read
      rw [EStateM.run_bind, EStateM.run_get]
      dsimp only
      rw [ho]
    have hcontent : a.disk p.1 = some (t.disk.content o.node) := h.read_of_on hon
    have hsame := ramFileRead_congr (f := { o.obj with content := t.disk.content o.node })
      (g := p.2.file (t.disk.content o.node)) hon.maxFileSize rfl offset dataOut dataSize
    simp only [RamFiles.answer, FileTransfer.answer, run_map, hread, hrun, PathStore.answer, ha,
      hcontent, Option.getD_some]
    cases hf : (ramFileRead offset dataOut dataSize).run
      { o.obj with content := t.disk.content o.node } with
    | ok data f =>
      cases hg : (ramFileRead offset dataOut dataSize).run
        (p.2.file (t.disk.content o.node)) with
      | ok data' g =>
        rw [hf, hg] at hsame
        obtain ⟨rfl, rfl⟩ := hsame
        dsimp only
        rw [Disk.store_self]
        exact ⟨rfl, hnext⟩
      | error e g =>
        rw [hf, hg] at hsame
        exact hsame.elim
    | error e f =>
      cases hg : (ramFileRead offset dataOut dataSize).run
        (p.2.file (t.disk.content o.node)) with
      | ok data g =>
        rw [hf, hg] at hsame
        exact hsame.elim
      | error e' g =>
        rw [hf, hg] at hsame
        obtain ⟨rfl, rfl⟩ := hsame
        dsimp only
        rw [Disk.store_self]
        exact ⟨rfl, hnext⟩

theorem exist (h : t.Shows grant a) (filePath : String) :
    (t.answer removeErrno (.exist filePath)).1 =
        (a.answer grant removeErrno (.exist filePath)).1 ∧
      RamFiles.Shows grant (t.answer removeErrno (.exist filePath)).2
        (a.answer grant removeErrno (.exist filePath)).2 := by
  have hdisk : a.disk filePath = t.disk.read filePath := congrFun h.disk filePath
  cases hread : t.disk.read filePath with
  | none =>
    simp [RamFiles.answer, FileTransfer.answer, checkIfFileExist, PathStore.answer, hdisk, hread, h]
  | some content =>
    simp [RamFiles.answer, FileTransfer.answer, checkIfFileExist, PathStore.answer, hdisk, hread, h]

theorem sizeInBytes (h : t.Shows grant a) (filePath : String) :
    (t.answer removeErrno (.sizeInBytes filePath)).1 =
        (a.answer grant removeErrno (.sizeInBytes filePath)).1 ∧
      RamFiles.Shows grant (t.answer removeErrno (.sizeInBytes filePath)).2
        (a.answer grant removeErrno (.sizeInBytes filePath)).2 := by
  have hdisk : a.disk filePath = t.disk.read filePath := congrFun h.disk filePath
  cases hread : t.disk.read filePath with
  | none =>
    simp [RamFiles.answer, FileTransfer.answer, RamFiles.sizeInBytes, checkIfFileExist,
      PathStore.answer, hdisk, hread, h]
  | some content =>
    simp [RamFiles.answer, FileTransfer.answer, RamFiles.sizeInBytes, checkIfFileExist,
      PathStore.answer, hdisk, hread, h]

/-- Without the object of the pointer `k`, and perhaps without its file. -/
theorem closed_pointer (h : t.Shows grant a) {p : String × RamFileCfg} (ha : a.opened k = some p)
    {disk : Disk String (List UInt8)} (hlinks : ∀ q, q ≠ p.1 → disk.links q = t.disk.links q)
    {paths removals : ℕ} {heap : Heap} (hgrant : heap.grant = t.heap.grant)
    (hrequests : heap.requests = t.heap.requests)
    (haccounted : Accounted heap (Function.update t.objects k none) paths (slots.erase k) left) :
    RamFiles.Shows grant ⟨heap, disk, Function.update t.objects k none, removals⟩
      ⟨disk.read, Function.update a.opened k none, a.requests, removals, paths⟩ := by
  refine ⟨?_, ?_, ?_, rfl, hgrant.trans h.grant, hrequests.trans h.requests, rfl, _, _,
    haccounted⟩
  · intro j o ho
    dsimp only at ho ⊢
    rw [Function.update_apply] at ho
    split_ifs at ho with hj
    obtain ⟨p', ha', hon⟩ := h.opened j o ho
    have hne : p'.1 ≠ p.1 := fun hp => hj (h.alone j k p' p ha' ha hp)
    rw [Function.update_of_ne hj]
    exact ⟨p', ha', hon.path, (hlinks _ hne).trans hon.node, hon.maxFileSize, hon.deleteFiles⟩
  · intro j hj
    dsimp only at hj ⊢
    rw [Function.update_apply] at hj ⊢
    split_ifs at hj ⊢
    · rfl
    · exact h.closed j hj
  · intro j j' p p' hj hj' hp
    dsimp only at hj hj'
    rw [Function.update_apply] at hj hj'
    split_ifs at hj hj'
    exact h.alone j j' p p' hj hj' hp

theorem destroy (h : t.Shows grant a) (k : ℕ) :
    (t.answer removeErrno (.destroy k)).1 = (a.answer grant removeErrno (.destroy k)).1 ∧
      RamFiles.Shows grant (t.answer removeErrno (.destroy k)).2
        (a.answer grant removeErrno (.destroy k)).2 := by
  rcases h.cases k with ⟨ho, ha⟩ | ⟨o, p, ho, ha, hon⟩
  · have hrun : t.answer removeErrno (.destroy k) = (.error .EINVAL, t) := by
      simp [RamFiles.answer, FileTransfer.answer, RamFiles.destroy, ho]
    rw [hrun]
    simpa [PathStore.answer, PathStore.destroy, ha] using h
  · obtain ⟨slots, left, haccounted⟩ := h.accounted
    obtain ⟨events, left', hheap, hnext⟩ := haccounted.destroyed ho
    have hread : t.disk.read p.1 = some (t.disk.content o.node) := Disk.read_of_links hon.node
    rw [hon.deleteFiles] at hnext
    cases hflag : p.2.deleteFiles with
    | false =>
      rw [hflag] at hnext
      have hrun : t.answer removeErrno (.destroy k) = (.ok .done,
          ⟨{ t.heap with events }, t.disk, Function.update t.objects k none, t.removals⟩) := by
        simp [RamFiles.answer, FileTransfer.answer, RamFiles.destroy, setObject, onHeap, zoom_run,
          ho, hheap, hon.deleteFiles, hflag]
      rw [hrun, h.removals]
      simp only [PathStore.answer, PathStore.destroy, ha, hflag]
      rw [h.disk]
      exact ⟨rfl, h.closed_pointer ha (fun q _ => rfl) rfl rfl hnext⟩
    | true =>
      rw [hflag] at hnext
      cases hremove : removeErrno a.removals with
      | some e =>
        have hrun : t.answer removeErrno (.destroy k) = (.error e,
            ⟨{ t.heap with events }, t.disk, Function.update t.objects k none,
              t.removals + 1⟩) := by
          simp [RamFiles.answer, FileTransfer.answer, RamFiles.destroy, setObject, onHeap,
            zoom_run, deleteFileIfExists, checkIfFileExist, attempt_run, ho, hheap,
            hon.deleteFiles, hflag, hon.path, hread, h.removals, hremove]
        rw [hrun, h.removals]
        simp only [PathStore.answer, PathStore.destroy, ha, hflag, hremove]
        rw [h.disk]
        exact ⟨rfl, h.closed_pointer ha (fun q _ => rfl) rfl rfl hnext⟩
      | none =>
        have hrun : t.answer removeErrno (.destroy k) = (.ok .done,
            ⟨{ t.heap with events }, t.disk.remove p.1, Function.update t.objects k none,
              t.removals + 1⟩) := by
          simp [RamFiles.answer, FileTransfer.answer, RamFiles.destroy, setObject, onHeap,
            zoom_run, deleteFileIfExists, checkIfFileExist, attempt_run, ho, hheap,
            hon.deleteFiles, hflag, hon.path, hread, h.removals, hremove]
        rw [hrun, h.removals]
        simp only [PathStore.answer, PathStore.destroy, ha, hflag, hremove]
        rw [h.disk, ← Disk.read_remove]
        exact ⟨rfl, h.closed_pointer ha (fun q hq => Function.update_of_ne hq _ _) rfl rfl hnext⟩

/-- With an object for the pointer `k`, whose path no other object has. -/
theorem opened_pointer (h : t.Shows grant a) {filePath : String} {cfg : RamFileCfg}
    (halone : ∀ k' p, a.opened k' = some p → p.1 ≠ filePath)
    {disk : Disk String (List UInt8)} (hon : o.On disk (filePath, cfg))
    (hlinks : ∀ q, q ≠ filePath → disk.links q = t.disk.links q) {heap : Heap}
    (hgrant : heap.grant = grant) (hrequests : heap.requests = a.requests + 3)
    (haccounted : Accounted heap (Function.update t.objects k (some o)) a.paths slots left) :
    RamFiles.Shows grant ⟨heap, disk, Function.update t.objects k (some o), t.removals⟩
      ⟨disk.read, Function.update a.opened k (some (filePath, cfg)), a.requests + 3, a.removals,
        a.paths⟩ := by
  refine ⟨?_, ?_, ?_, rfl, hgrant, hrequests, h.removals, slots, left, haccounted⟩
  · intro j o' ho'
    dsimp only at ho' ⊢
    rw [Function.update_apply] at ho' ⊢
    split_ifs at ho' ⊢
    · cases ho'
      exact ⟨_, rfl, hon⟩
    · obtain ⟨p, ha, hon'⟩ := h.opened j o' ho'
      exact ⟨p, ha, hon'.path, (hlinks _ (halone j p ha)).trans hon'.node, hon'.maxFileSize,
        hon'.deleteFiles⟩
  · intro j hj
    dsimp only at hj ⊢
    rw [Function.update_apply] at hj ⊢
    split_ifs at hj ⊢
    exact h.closed j hj
  · intro j j' p p' hj hj' hp
    dsimp only at hj hj'
    rw [Function.update_apply] at hj hj'
    split_ifs at hj hj' with h₁ h₂ h₂
    · exact h₁.trans h₂.symm
    · cases hj
      exact absurd hp.symm (halone j' p' hj')
    · cases hj'
      exact absurd hp (halone j p hj)
    · exact h.alone j j' p p' hj hj' hp

theorem create (h : t.Shows grant a) {k : ℕ} {filePath : String} {cfg : RamFileCfg}
    (he : a.Enabled (.create k filePath cfg)) :
    (t.answer removeErrno (.create k filePath cfg)).1 =
        (a.answer grant removeErrno (.create k filePath cfg)).1 ∧
      RamFiles.Shows grant (t.answer removeErrno (.create k filePath cfg)).2
        (a.answer grant removeErrno (.create k filePath cfg)).2 := by
  obtain ⟨hfree, halone⟩ := he
  have ho : t.objects k = none := by
    rcases h.cases k with ⟨ho, -⟩ | ⟨o, p, -, ha, -⟩
    · exact ho
    · cases hfree.symm.trans ha
  obtain ⟨slots, left, haccounted⟩ := h.accounted
  have houtcome := ramFileCreate_outcome (t.disk.read filePath) cfg t.heap
  rw [h.grant, h.requests] at houtcome
  have hleaves := ramFileCreate_accounts (t.disk.read filePath) cfg _ haccounted.owns
  have hdisk : a.disk filePath = t.disk.read filePath := congrFun h.disk filePath
  simp only [PathStore.answer, PathStore.create]
  cases hrun : (ramFileCreate (t.disk.read filePath) cfg).run t.heap with
  | error e heap =>
    rw [hrun] at houtcome hleaves
    obtain ⟨hgrant, hcases⟩ := houtcome
    obtain ⟨A, hA, howns⟩ := hleaves
    cases hA
    have hanswer : t.answer removeErrno (.create k filePath cfg) =
        (.error e, { t with heap }) := by
      simp [RamFiles.answer, FileTransfer.answer, RamFiles.create, onHeap, zoom_run, hrun]
    have hnext : ∀ n, heap.requests = n →
        RamFiles.Shows grant { t with heap } { a with requests := n } := fun n hn =>
      ⟨h.opened, h.closed, h.alone, h.disk, hgrant, hn, h.removals, slots, left,
        haccounted.live, haccounted.card, howns⟩
    rw [hanswer]
    rcases hcases with ⟨hn, rfl, h₁⟩ | ⟨hn, rfl, h₁, h₂⟩ | ⟨hn, rfl, h₁, h₂, h₃⟩
    · rw [if_neg h₁]
      exact ⟨rfl, hnext _ hn⟩
    · rw [if_pos h₁, if_neg h₂]
      exact ⟨rfl, hnext _ hn⟩
    · rw [if_pos h₁, if_pos h₂, if_neg h₃]
      exact ⟨rfl, hnext _ hn⟩
  | ok obj heap =>
    rw [hrun] at houtcome hleaves
    obtain ⟨hgrant, hn, h₁, h₂, h₃⟩ := houtcome
    obtain ⟨hmax, -, hdelete⟩ := ramFileCreate_ok hrun
    rw [if_pos h₁, if_pos h₂, if_pos h₃]
    cases hlinks : t.disk.links filePath with
    | some node =>
      have hanswer : t.answer removeErrno (.create k filePath cfg) = (.ok .done,
          ⟨heap, t.disk, Function.update t.objects k (some ⟨obj, filePath, node⟩),
            t.removals⟩) := by
        simp [RamFiles.answer, FileTransfer.answer, RamFiles.create, setObject, onHeap, zoom_run,
          hrun, hlinks]
      have hsame : Function.update a.disk filePath (some ((a.disk filePath).getD [])) =
          t.disk.read := by
        have hread : t.disk.read filePath = some (t.disk.content node) :=
          Disk.read_of_links hlinks
        rw [hdisk, hread, h.disk, Option.getD_some, ← hread, Function.update_eq_self]
      rw [hanswer, hsame]
      exact ⟨rfl, h.opened_pointer (fun k' p hp => halone k' p.1 p.2 hp)
        ⟨rfl, hlinks, hmax, hdelete⟩ (fun q _ => rfl) hgrant hn
        (haccounted.created ho _ hleaves)⟩
    | none =>
      have hanswer : t.answer removeErrno (.create k filePath cfg) = (.ok .done,
          ⟨heap, t.disk.make filePath [], Function.update t.objects k
            (some ⟨obj, filePath, t.disk.files⟩), t.removals⟩) := by
        simp [RamFiles.answer, FileTransfer.answer, RamFiles.create, setObject, onHeap, zoom_run,
          hrun, hlinks]
      have hmade : Function.update a.disk filePath (some ((a.disk filePath).getD [])) =
          (t.disk.make filePath []).read := by
        rw [hdisk, Disk.read_eq_none.mpr hlinks, Disk.read_make, h.disk]
        rfl
      rw [hanswer, hmade]
      exact ⟨rfl, h.opened_pointer (fun k' p hp => halone k' p.1 p.2 hp)
        ⟨rfl, Function.update_self _ _ _, hmax, hdelete⟩
        (fun q hq => Function.update_of_ne hq _ _) hgrant hn
        (haccounted.created ho _ hleaves)⟩

/-- One request. -/
theorem answer (h : t.Shows grant a) {r : RamFileRequest} (he : a.Enabled r) :
    (t.answer removeErrno r).1 = (a.answer grant removeErrno r).1 ∧
      RamFiles.Shows grant (t.answer removeErrno r).2 (a.answer grant removeErrno r).2 := by
  cases r with
  | create k filePath cfg => exact h.create he
  | destroy k => exact h.destroy k
  | write k offset data dataSize => exact h.write k offset data dataSize
  | read k offset dataOut dataSize => exact h.read k offset dataOut dataSize
  | exist filePath => exact h.exist filePath
  | sizeInBytes filePath => exact h.sizeInBytes filePath

end Shows

/-- As long as only one object at a time is for a path, the objects answer as if each call were
made on the bytes that are under its path: what one object has written, the next one for the path
finds. Nothing is used after its release, and what is allocated are three parts of each object in
use, and the paths of those that were destroyed without their files. -/
theorem paths_refine (grant : ℕ → Bool) (removeErrno : ℕ → Option Errno)
    (disk : Disk String (List UInt8)) (requests : List RamFileRequest)
    (hallowed : Allowed PathStore.Enabled (fun a r => (a.answer grant removeErrno r).2)
      (.start disk.read) requests) :
    let t := final (RamFiles.answer removeErrno) (.start grant disk) requests
    let a := final (PathStore.answer grant removeErrno) (.start disk.read) requests
    outputs (RamFiles.answer removeErrno) (.start grant disk) requests =
        outputs (PathStore.answer grant removeErrno) (.start disk.read) requests ∧
      a.disk = t.disk.read ∧
      ∃ (slots : Finset ℕ) (owned : Multiset ℕ), (∀ k, k ∈ slots ↔ a.opened k ≠ none) ∧
        t.heap.Owns owned ∧ owned.card = 3 * slots.card + a.paths := by
  have hstart : RamFiles.Shows grant (.start grant disk) (.start disk.read) :=
    ⟨nofun, fun _ _ => rfl, nofun, rfl, rfl, rfl, rfl, ∅, 0, by simp [start], rfl,
      .start grant 0⟩
  have hstep : ∀ t a r, RamFiles.Shows grant t a → PathStore.Enabled a r →
      (RamFiles.answer removeErrno t r).1 = (PathStore.answer grant removeErrno a r).1 ∧
        RamFiles.Shows grant (RamFiles.answer removeErrno t r).2
          (PathStore.answer grant removeErrno a r).2 := fun t a r h he => h.answer he
  obtain ⟨houtputs, hfinal⟩ := outputs_eq_of_allowed hstep hstart requests hallowed
  obtain ⟨slots, left, hlive, hcard, howns⟩ := hfinal.accounted
  refine ⟨houtputs, hfinal.disk, slots, _, fun k => ?_, howns, ?_⟩
  · rw [hlive]
    rcases hfinal.cases k with ⟨ho, ha⟩ | ⟨o, p, ho, ha, -⟩
    · simp [ho, ha]
    · simp [ho, ha]
  · rw [Multiset.card_add, hcard, owned, Multiset.card_sum]
    congr 1
    rw [Finset.sum_const_nat (m := 3), Nat.mul_comm]
    intro k hk
    obtain ⟨o, ho⟩ := Option.ne_none_iff_exists'.mp ((hlive k).mp hk)
    rw [ho]
    simp [RamFile.owned]

/-- The second object finds what the first one has written, and removes it. -/
theorem paths_refine_reopened : ∃ disk : Disk String (List UInt8), disk.read "data" = none ∧
    outputs (RamFiles.answer fun _ => none) (.start (fun _ => true) disk)
      [.create 0 "data" ⟨0, false⟩, .write 0 1 (some [5, 6]) 2, .destroy 0,
        .create 1 "data" ⟨0, true⟩, .read 1 0 (some [9, 9]) 2, .destroy 1, .exist "data"] =
      [.ok .done, .ok .done, .ok .done, .ok .done, .ok (.bytes [0, 5]), .ok .done,
        .error .ENOENT] := by
  refine ⟨⟨fun _ => none, fun _ => [], 0, nofun, nofun⟩, rfl, ?_⟩
  rw [(paths_refine (fun _ => true) (fun _ => none) _ _ ?_).1]
  · decide +kernel
  · refine ⟨⟨rfl, nofun⟩, trivial, trivial, ⟨rfl, ?_⟩, trivial, trivial, trivial, trivial⟩
    intro k filePath cfg hk
    change Function.update (Function.update (fun _ => none) 0 _) 0 none k = _ at hk
    rw [Function.update_idem, Function.update_apply] at hk
    split_ifs at hk

end RamFiles
end FileTransfer
