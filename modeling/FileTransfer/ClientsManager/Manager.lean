import FileTransfer.Infra.IdPool

/-! The client manager of `client_mngr.c`. A context pointer is an element of `κ`, or `none`
for NULL. The arrays are indexed by the 32-bit ids of the code. -/
namespace FileTransfer

structure FileData (κ : Type) where
  fileSize : UInt32
  ctx : Option κ

/-- `filesAddr` is where `files_data` points, in bytes from the start of the manager. -/
structure ClientData (κ : Type) where
  filesIdPool : IdPool
  filesAddr : ℕ
  filesData : UInt32 → FileData κ
  inUse : Bool

structure ClientMngr (κ : Type) where
  addr : ℕ
  maxClients : UInt32
  maxFiles : UInt32
  clientsIdPool : IdPool
  clientsData : UInt32 → ClientData κ

structure ClientMngrCfg where
  clientsCapacity : UInt32
  filesCapacity : UInt32
deriving DecidableEq, Repr

/-! The sizes of the structures on LP64. -/

def sizeofClientMngr : UInt32 := 16
def sizeofClientData : UInt32 := 24
def sizeofFileData : UInt32 := 16

/-! ### Creation and destruction -/

def clientMngrBaseSize : UInt32 := sizeofClientMngr
def clientsDataSize (cfg : ClientMngrCfg) : UInt32 := cfg.clientsCapacity * sizeofClientData
def filesDataSize (cfg : ClientMngrCfg) : UInt32 := cfg.filesCapacity * sizeofFileData

/-- The number of bytes that `client_mngr_create` asks for. -/
def clientMngrTotalSize (cfg : ClientMngrCfg) : ℕ :=
  (clientMngrBaseSize + clientsDataSize cfg + filesDataSize cfg).toNat

/-- `file_base + (i * max_files)`, from the start of the manager. -/
def filesDataAddr (cfg : ClientMngrCfg) (i : UInt32) : ℕ :=
  clientMngrBaseSize.toNat + (clientsDataSize cfg).toNat +
    sizeofFileData.toNat * (i * cfg.filesCapacity).toNat

/-- The rounds of the loop over the clients; `pools` are the pools of the clients before. -/
def createFilesIdPools (cfg : IdPoolCfg) : ℕ → List IdPool → HeapCall (List IdPool)
  | 0, pools => return pools
  | rounds + 1, pools => do
    match ← attempt (idPoolCreate cfg) with
    | .ok pool => createFilesIdPools cfg rounds (pools ++ [pool])
    | .error e =>
      pools.forM idPoolDestroy
      throw e

/-- There are no clients from `max_clients` on. -/
def clientMngrCreate {κ : Type} (cfg : ClientMngrCfg) : HeapCall (ClientMngr κ) := do
  match ← request with
  | none => throw .ENOMEM
  | some addr =>
    match ← attempt (idPoolCreate ⟨cfg.clientsCapacity, 0⟩) with
    | .error e =>
      release addr
      throw e
    | .ok clientsIdPool =>
      match ← attempt (createFilesIdPools ⟨cfg.filesCapacity, 0⟩ cfg.clientsCapacity.toNat []) with
      | .error e =>
        idPoolDestroy clientsIdPool
        release addr
        throw e
      | .ok pools =>
        return {
          addr, maxClients := cfg.clientsCapacity, maxFiles := cfg.filesCapacity, clientsIdPool
          clientsData := fun i => {
            filesIdPool := pools.getD i.toNat clientsIdPool
            filesAddr := filesDataAddr cfg i
            filesData := fun _ => ⟨0, none⟩
            inUse := false } }

namespace ClientMngr
variable {κ : Type} (m : ClientMngr κ)

def setClientsIdPool (pool : IdPool) : ClientMngr κ := { m with clientsIdPool := pool }

def setClient (c : UInt32) (data : ClientData κ) : ClientMngr κ :=
  { m with clientsData := Function.update m.clientsData c data }

def setFilesIdPool (c : UInt32) (pool : IdPool) : ClientMngr κ :=
  m.setClient c { m.clientsData c with filesIdPool := pool }

def setInUse (c : UInt32) (inUse : Bool) : ClientMngr κ :=
  m.setClient c { m.clientsData c with inUse }

def setFile (c f : UInt32) (data : FileData κ) : ClientMngr κ :=
  m.setClient c { m.clientsData c with
    filesData := Function.update (m.clientsData c).filesData f data }

/-- `*get_file_data(mgr, client_id, file_id)`. -/
def file (c f : UInt32) : FileData κ := (m.clientsData c).filesData f

/-- `get_file_data(mgr, client_id, file_id)`, in bytes from the start of the manager. -/
def getFileData (c f : UInt32) : ℕ :=
  (m.clientsData c).filesAddr + sizeofFileData.toNat * f.toNat

/-! What the setters leave alone. -/

variable {m} {c c' f f' : UInt32} {pool : IdPool} {data : FileData κ} {b : Bool}

/-- A part of the clients' data that the new data of one client agrees with is kept. -/
theorem setClient_same {α : Type} {client : ClientData κ} (part : ClientData κ → α)
    (h : part client = part (m.clientsData c)) (c' : UInt32) :
    part ((m.setClient c client).clientsData c') = part (m.clientsData c') := by
  dsimp only [setClient]
  rw [Function.update_apply]
  by_cases hc : c' = c
  · rw [if_pos hc, h, hc]
  · rw [if_neg hc]

theorem setClient_self {client : ClientData κ} : (m.setClient c client).clientsData c = client := by
  dsimp only [setClient]
  rw [Function.update_self]

theorem setClient_of_ne {client : ClientData κ} (h : c' ≠ c) :
    (m.setClient c client).clientsData c' = m.clientsData c' := by
  dsimp only [setClient]
  rw [Function.update_of_ne h]

@[simp] theorem file_setClientsIdPool : (m.setClientsIdPool pool).file c f = m.file c f := rfl

@[simp] theorem clientsIdPool_setInUse : (m.setInUse c b).clientsIdPool = m.clientsIdPool := rfl

@[simp] theorem file_setInUse : (m.setInUse c b).file c' f = m.file c' f :=
  setClient_same (·.filesData f) (by rfl) c'

theorem file_setInUse_setClientsIdPool :
    ((m.setClientsIdPool pool).setInUse c b).file = m.file := by
  funext c' f
  rw [file_setInUse, file_setClientsIdPool]

@[simp] theorem filesIdPool_setInUse :
    ((m.setInUse c b).clientsData c').filesIdPool = (m.clientsData c').filesIdPool :=
  setClient_same (·.filesIdPool) (by rfl) c'

@[simp] theorem file_setFilesIdPool : (m.setFilesIdPool c pool).file c' f = m.file c' f :=
  setClient_same (·.filesData f) (by rfl) c'

@[simp] theorem inUse_setFilesIdPool :
    ((m.setFilesIdPool c pool).clientsData c').inUse = (m.clientsData c').inUse :=
  setClient_same (·.inUse) (by rfl) c'

@[simp] theorem filesIdPool_setFile :
    ((m.setFile c f data).clientsData c').filesIdPool = (m.clientsData c').filesIdPool :=
  setClient_same (·.filesIdPool) (by rfl) c'

@[simp] theorem inUse_setFile :
    ((m.setFile c f data).clientsData c').inUse = (m.clientsData c').inUse :=
  setClient_same (·.inUse) (by rfl) c'

theorem inUse_setInUse : ((m.setInUse c b).clientsData c').inUse =
    if c' = c then b else (m.clientsData c').inUse := by
  by_cases hc : c' = c
  · rw [if_pos hc, hc, setInUse, setClient_self]
  · rw [if_neg hc, setInUse, setClient_of_ne hc]

theorem setClientsIdPool_eq_self (h : m.clientsIdPool = pool) : m.setClientsIdPool pool = m := by
  rw [← h]
  rfl

theorem setInUse_eq_self (h : (m.clientsData c).inUse = b) : m.setInUse c b = m := by
  rw [← h]
  unfold setInUse setClient
  rw [Function.update_eq_self]

theorem setFilesIdPool_eq_self (h : (m.clientsData c).filesIdPool = pool) :
    m.setFilesIdPool c pool = m := by
  rw [← h]
  unfold setFilesIdPool setClient
  rw [Function.update_eq_self]

theorem setFile_eq_self (h : m.file c f = data) : m.setFile c f data = m := by
  rw [← h]
  unfold setFile setClient file
  rw [Function.update_eq_self]
  exact congrArg (fun g => { m with clientsData := g }) (Function.update_eq_self c m.clientsData)

theorem setFile_setFilesIdPool :
    (m.setFilesIdPool c pool).setFile c f data = (m.setFile c f data).setFilesIdPool c pool := by
  unfold setFile setFilesIdPool setClient
  simp only [Function.update_self, Function.update_idem]

theorem filesIdPool_setFilesIdPool : ((m.setFilesIdPool c pool).clientsData c').filesIdPool =
    if c' = c then pool else (m.clientsData c').filesIdPool := by
  by_cases hc : c' = c
  · rw [if_pos hc, hc, setFilesIdPool, setClient_self]
  · rw [if_neg hc, setFilesIdPool, setClient_of_ne hc]

theorem file_setFile : (m.setFile c f data).file c' f' =
    if c' = c ∧ f' = f then data else m.file c' f' := by
  unfold setFile file
  by_cases hc : c' = c
  · rw [hc, setClient_self]
    dsimp only
    rw [Function.update_apply]
    simp
  · rw [setClient_of_ne hc, if_neg fun h => hc h.1]

end ClientMngr

section Interface
variable {κ : Type}

def onClientsIdPool {α : Type} : Call IdPool α → Call (ClientMngr κ) α :=
  zoom (·.clientsIdPool) (·.setClientsIdPool)

def onFilesIdPool {α : Type} (clientId : UInt32) : Call IdPool α → Call (ClientMngr κ) α :=
  zoom (fun m => (m.clientsData clientId).filesIdPool) (·.setFilesIdPool clientId)

/-- The tests of the ids at the start of the functions on a file. -/
def checkIds (clientId fileId : UInt32) : Call (ClientMngr κ) Unit := do
  let m ← get
  if m.maxClients ≤ clientId then throw .EINVAL
  if m.maxFiles ≤ fileId then throw .EINVAL

def clientMngrAllocate : Call (ClientMngr κ) UInt32 := do
  let cId ← onClientsIdPool idPoolAllocate
  if (← get).maxClients ≤ cId then throw .outOfBounds
  modify (·.setInUse cId true)
  return cId

def clientMngrFree (clientId : UInt32) : Call (ClientMngr κ) Unit := do
  let m ← get
  if m.maxClients ≤ clientId then throw .EINVAL
  match idPoolGetUsedIdCount (m.clientsData clientId).filesIdPool with
  | .error _ => throw .EACCES
  | .ok idCount =>
    if idCount ≠ 0 then throw .EACCES
    modify (·.setInUse clientId false)
    onClientsIdPool (idPoolFree clientId)

def clientMngrFileAllocate (clientId fileSize : UInt32) : Call (ClientMngr κ) UInt32 := do
  if (← get).maxClients ≤ clientId then throw .EINVAL
  let fId ← onFilesIdPool clientId idPoolAllocate
  if (← get).maxFiles ≤ fId then throw .outOfBounds
  modify (·.setFile clientId fId ⟨fileSize, none⟩)
  return fId

def clientMngrFileFree (clientId fileId : UInt32) : Call (ClientMngr κ) Unit := do
  checkIds clientId fileId
  let f := (← get).file clientId fileId
  if f.ctx.isSome then throw .EPERM
  modify (·.setFile clientId fileId { f with fileSize := 0 })
  onFilesIdPool clientId (idPoolFree fileId)

def clientMngrFileSetCtx (clientId fileId : UInt32) (ctx : Option κ) :
    Call (ClientMngr κ) Unit := do
  checkIds clientId fileId
  let f := (← get).file clientId fileId
  modify (·.setFile clientId fileId { f with ctx })

/-- A context that is NULL is an error, like an id out of range. -/
def clientMngrFileGetCtx (clientId fileId : UInt32) : Call (ClientMngr κ) κ := do
  checkIds clientId fileId
  match ((← get).file clientId fileId).ctx with
  | none => throw .EINVAL
  | some ctx => return ctx

def clientMngrFileGetSize (clientId fileId : UInt32) : Call (ClientMngr κ) UInt32 := do
  checkIds clientId fileId
  return ((← get).file clientId fileId).fileSize

/-! ### The operations as equations -/

variable {m : ClientMngr κ} {c f size : UInt32} {ctx : Option κ}

theorem clientMngrAllocate_run : clientMngrAllocate.run m =
    match idPoolAllocate.run m.clientsIdPool with
    | .error e pool => .error e (m.setClientsIdPool pool)
    | .ok c pool =>
      if m.maxClients ≤ c then .error .outOfBounds (m.setClientsIdPool pool)
      else .ok c ((m.setClientsIdPool pool).setInUse c true) := by
  unfold clientMngrAllocate onClientsIdPool
  rw [EStateM.run_bind, zoom_run]
  cases idPoolAllocate.run m.clientsIdPool with
  | error e pool => rfl
  | ok c pool =>
    dsimp only
    rw [EStateM.run_bind, EStateM.run_get]
    dsimp only [ClientMngr.setClientsIdPool]
    by_cases hc : m.maxClients ≤ c
    · rw [if_pos hc, if_pos hc]
      rfl
    · rw [if_neg hc, if_neg hc]
      rfl

theorem clientMngrFileAllocate_run : (clientMngrFileAllocate c size).run m =
    if m.maxClients ≤ c then .error .EINVAL m
    else match idPoolAllocate.run (m.clientsData c).filesIdPool with
      | .error e pool => .error e (m.setFilesIdPool c pool)
      | .ok f pool =>
        if m.maxFiles ≤ f then .error .outOfBounds (m.setFilesIdPool c pool)
        else .ok f ((m.setFilesIdPool c pool).setFile c f ⟨size, none⟩) := by
  unfold clientMngrFileAllocate onFilesIdPool
  rw [EStateM.run_bind, EStateM.run_get]
  dsimp only
  by_cases hc : m.maxClients ≤ c
  · rw [if_pos hc, if_pos hc]
    rfl
  · rw [if_neg hc, if_neg hc, EStateM.run_bind, zoom_run]
    cases idPoolAllocate.run (m.clientsData c).filesIdPool with
    | error e pool => rfl
    | ok f pool =>
      dsimp only
      rw [EStateM.run_bind, EStateM.run_get]
      dsimp only [ClientMngr.setFilesIdPool, ClientMngr.setClient]
      by_cases hf : m.maxFiles ≤ f
      · rw [if_pos hf, if_pos hf]
        rfl
      · rw [if_neg hf, if_neg hf]
        rfl

theorem clientMngrFree_run : (clientMngrFree c).run m =
    if m.maxClients ≤ c then .error .EINVAL m
    else match idPoolGetUsedIdCount (m.clientsData c).filesIdPool with
      | .error _ => .error .EACCES m
      | .ok idCount =>
        if idCount ≠ 0 then .error .EACCES m
        else match (idPoolFree c).run m.clientsIdPool with
          | .error e pool => .error e ((m.setInUse c false).setClientsIdPool pool)
          | .ok _ pool => .ok () ((m.setInUse c false).setClientsIdPool pool) := by
  unfold clientMngrFree onClientsIdPool
  rw [EStateM.run_bind, EStateM.run_get]
  dsimp only
  by_cases hc : m.maxClients ≤ c
  · rw [if_pos hc, if_pos hc]
    rfl
  · rw [if_neg hc, if_neg hc]
    cases hcount : idPoolGetUsedIdCount (m.clientsData c).filesIdPool with
    | error e => rfl
    | ok idCount =>
      dsimp only
      by_cases hz : idCount ≠ 0
      · rw [if_pos hz, if_pos hz]
        rfl
      · rw [if_neg hz, if_neg hz, EStateM.run_bind, run_modify]
        dsimp only
        rw [zoom_run, ClientMngr.clientsIdPool_setInUse]
        cases (idPoolFree c).run m.clientsIdPool <;> rfl

theorem checkIds_run : (checkIds c f).run m =
    if m.maxClients ≤ c ∨ m.maxFiles ≤ f then .error .EINVAL m else .ok () m := by
  unfold checkIds
  rw [EStateM.run_bind, EStateM.run_get]
  dsimp only
  by_cases hc : m.maxClients ≤ c
  · rw [if_pos hc, if_pos (Or.inl hc)]
    rfl
  · rw [if_neg hc]
    by_cases hf : m.maxFiles ≤ f
    · rw [if_pos hf, if_pos (Or.inr hf)]
      rfl
    · rw [if_neg hf, if_neg (not_or.mpr ⟨hc, hf⟩)]
      rfl

theorem checkIds_bind {α : Type} (k : Unit → Call (ClientMngr κ) α) : (checkIds c f >>= k).run m =
    if m.maxClients ≤ c ∨ m.maxFiles ≤ f then .error .EINVAL m else (k ()).run m := by
  rw [EStateM.run_bind, checkIds_run]
  by_cases hids : m.maxClients ≤ c ∨ m.maxFiles ≤ f
  · rw [if_pos hids, if_pos hids]
  · rw [if_neg hids, if_neg hids]

theorem clientMngrFileFree_run : (clientMngrFileFree c f).run m =
    if m.maxClients ≤ c ∨ m.maxFiles ≤ f then .error .EINVAL m
    else if (m.file c f).ctx.isSome then .error .EPERM m
    else match (idPoolFree f).run (m.clientsData c).filesIdPool with
      | .error e pool =>
        .error e ((m.setFile c f { m.file c f with fileSize := 0 }).setFilesIdPool c pool)
      | .ok _ pool =>
        .ok () ((m.setFile c f { m.file c f with fileSize := 0 }).setFilesIdPool c pool) := by
  unfold clientMngrFileFree onFilesIdPool
  rw [checkIds_bind, EStateM.run_bind, EStateM.run_get]
  dsimp only
  by_cases hctx : (m.file c f).ctx.isSome = true
  · rw [if_pos hctx, if_pos hctx]
    rfl
  · rw [if_neg hctx, if_neg hctx, EStateM.run_bind, run_modify]
    dsimp only
    rw [zoom_run, ClientMngr.filesIdPool_setFile]
    cases (idPoolFree f).run (m.clientsData c).filesIdPool <;> rfl

theorem clientMngrFileSetCtx_run : (clientMngrFileSetCtx c f ctx).run m =
    if m.maxClients ≤ c ∨ m.maxFiles ≤ f then .error .EINVAL m
    else .ok () (m.setFile c f { m.file c f with ctx }) := by
  unfold clientMngrFileSetCtx
  rw [checkIds_bind]
  rfl

theorem clientMngrFileGetCtx_run : (clientMngrFileGetCtx c f).run m =
    if m.maxClients ≤ c ∨ m.maxFiles ≤ f then .error .EINVAL m
    else match (m.file c f).ctx with
      | none => .error .EINVAL m
      | some ctx => .ok ctx m := by
  unfold clientMngrFileGetCtx
  rw [checkIds_bind, EStateM.run_bind, EStateM.run_get]
  dsimp only
  cases (m.file c f).ctx with
  | none => rfl
  | some ctx => rfl

theorem clientMngrFileGetSize_run : (clientMngrFileGetSize c f).run m =
    if m.maxClients ≤ c ∨ m.maxFiles ≤ f then .error .EINVAL m
    else .ok (m.file c f).fileSize m := by
  unfold clientMngrFileGetSize
  rw [checkIds_bind]
  rfl

end Interface
end FileTransfer
