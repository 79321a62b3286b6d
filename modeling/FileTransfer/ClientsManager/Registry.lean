import FileTransfer.ClientsManager.Create
import FileTransfer.Foundation.Run

/-! The client manager as a registry: a stack of the free clients and a table of files for each
client, in which only `client_mngr_free` looks into both. -/
namespace FileTransfer
open Run

/-- What can be asked of the files of one client. -/
inductive FileRequest (κ : Type)
  | allocate (fileSize : UInt32)
  | free (fileId : UInt32)
  | setCtx (fileId : UInt32) (ctx : Option κ)
  | getCtx (fileId : UInt32)
  | getSize (fileId : UInt32)

inductive ClientRequest (κ : Type)
  | allocate
  | free (clientId : UInt32)
  | file (clientId : UInt32) (request : FileRequest κ)

inductive ClientReply (κ : Type)
  | done
  | id (id : UInt32)
  | ctx (ctx : κ)
  | size (size : UInt32)

/-- The function of `client_mngr.c` for a request. -/
def clientMngrRequest {κ : Type} : ClientRequest κ → Call (ClientMngr κ) (ClientReply κ)
  | .allocate => .id <$> clientMngrAllocate
  | .free c => (fun _ => .done) <$> clientMngrFree c
  | .file c (.allocate size) => .id <$> clientMngrFileAllocate c size
  | .file c (.free f) => (fun _ => .done) <$> clientMngrFileFree c f
  | .file c (.setCtx f ctx) => (fun _ => .done) <$> clientMngrFileSetCtx c f ctx
  | .file c (.getCtx f) => .ctx <$> clientMngrFileGetCtx c f
  | .file c (.getSize f) => .size <$> clientMngrFileGetSize c f

def ClientMngr.answer {κ : Type} (m : ClientMngr κ) (r : ClientRequest κ) :
    Except Errno (ClientReply κ) × ClientMngr κ :=
  FileTransfer.answer (clientMngrRequest r) m

/-! ### The registry -/

/-- The ids that are free, the next one first, and what is stored for every id. -/
structure FileTable (κ : Type) where
  free : List UInt32
  data : UInt32 → FileData κ

structure Registry (κ : Type) where
  clients : List UInt32
  tables : UInt32 → FileTable κ

namespace FileTable
variable {κ : Type}

def new (capacity : UInt32) : FileTable κ := ⟨(⟨capacity, 0⟩ : IdPoolCfg).ids, fun _ => ⟨0, none⟩⟩

def store (t : FileTable κ) (f : UInt32) (data : FileData κ) : FileTable κ :=
  { t with data := Function.update t.data f data }

/-- The size of a file is cleared even when the file is not outstanding, and a context can be given
to such a file. -/
def answer (capacity : UInt32) (t : FileTable κ) :
    FileRequest κ → Except Errno (ClientReply κ) × FileTable κ
  | .allocate size =>
    match t.free with
    | [] => (.error .ENOENT, t)
    | f :: free => (.ok (.id f), { t with free }.store f ⟨size, none⟩)
  | .free f =>
    if capacity ≤ f then (.error .EINVAL, t)
    else if (t.data f).ctx.isSome then (.error .EPERM, t)
    else
      let t' := t.store f { t.data f with fileSize := 0 }
      if f ∈ t.free then (.error .EALREADY, t') else (.ok .done, { t' with free := f :: t.free })
  | .setCtx f ctx =>
    if capacity ≤ f then (.error .EINVAL, t)
    else (.ok .done, t.store f { t.data f with ctx })
  | .getCtx f =>
    if capacity ≤ f then (.error .EINVAL, t)
    else
      match (t.data f).ctx with
      | none => (.error .EINVAL, t)
      | some ctx => (.ok (.ctx ctx), t)
  | .getSize f =>
    if capacity ≤ f then (.error .EINVAL, t)
    else (.ok (.size (t.data f).fileSize), t)

end FileTable

namespace Registry
variable {κ : Type}

def new (cfg : ClientMngrCfg) : Registry κ :=
  ⟨cfg.clientsPool.ids, fun _ => .new cfg.filesCapacity⟩

def answer (cfg : ClientMngrCfg) (r : Registry κ) :
    ClientRequest κ → Except Errno (ClientReply κ) × Registry κ
  | .allocate =>
    match r.clients with
    | [] => (.error .ENOENT, r)
    | c :: clients => (.ok (.id c), { r with clients })
  | .free c =>
    if cfg.clientsCapacity ≤ c then (.error .EINVAL, r)
    else if Lifo.out cfg.filesPool.ids (r.tables c).free ≠ [] then (.error .EACCES, r)
    else if c ∈ r.clients then (.error .EALREADY, r)
    else (.ok .done, { r with clients := c :: r.clients })
  | .file c request =>
    if cfg.clientsCapacity ≤ c then (.error .EINVAL, r)
    else
      let (a, t) := (r.tables c).answer cfg.filesCapacity request
      (a, { r with tables := Function.update r.tables c t })

end Registry

/-! ### The manager answers as the registry does -/

/-- The manager holds what the registry does, for the clients that there are. -/
structure ClientMngr.Shows {κ : Type} (cfg : ClientMngrCfg) (m : ClientMngr κ) (r : Registry κ) :
    Prop where
  maxClients : m.maxClients = cfg.clientsCapacity
  maxFiles : m.maxFiles = cfg.filesCapacity
  clients : IdPool.Rep cfg.clientsPool m.clientsIdPool r.clients
  free : ∀ c < cfg.clientsCapacity,
    IdPool.Rep cfg.filesPool (m.clientsData c).filesIdPool (r.tables c).free
  data : ∀ c f, m.file c f = (r.tables c).data f

section Pools
variable {capacity : UInt32} {pool : IdPool} {stack : List UInt32} {id : UInt32}

/-- An id in the range of the pool is given back, unless it is in. -/
theorem IdPool.Rep.free_cases (h : IdPool.Rep ⟨capacity, 0⟩ pool stack) (hid : id < capacity) :
    (id ∈ stack ∧ (idPoolFree id).run pool = .error .EALREADY pool) ∨
      id ∉ stack ∧ ∃ pool', (idPoolFree id).run pool = .ok () pool' ∧
        IdPool.Rep ⟨capacity, 0⟩ pool' (id :: stack) := by
  have hids : id ∈ (⟨capacity, 0⟩ : IdPoolCfg).ids := IdPoolCfg.mem_ids_zero.mpr hid
  have hwrap : (0 : UInt32).toNat + capacity.toNat < 2 ^ 32 := by
    rw [UInt32.toNat_zero, Nat.zero_add]
    exact capacity.toNat_lt
  have hin := (IdPoolCfg.mem_ids_iff hwrap).mp hids
  rw [← h.capacity, ← h.start] at hin
  by_cases hs : id ∈ stack
  · exact Or.inl ⟨hs, h.free_alreadyIn hin hids hs⟩
  · exact Or.inr ⟨hs, h.free_given hin hids hs⟩

/-- The count is zero exactly if no id is out, also when it does not fit an `int`. -/
theorem IdPool.Rep.getUsedIdCount_eq_zero {cfg : IdPoolCfg} (h : IdPool.Rep cfg pool stack) :
    idPoolGetUsedIdCount pool = .ok 0 ↔ Lifo.out cfg.ids stack = [] := by
  constructor
  · intro hcount
    have hout : IdPool.Out cfg pool {id | id ∈ Lifo.out cfg.ids stack} :=
      ⟨stack, h, fun _ => Iff.rfl⟩
    rw [List.eq_nil_iff_forall_not_mem]
    intro id hid
    have hnone := hout.eq_empty hcount
    exact Set.eq_empty_iff_forall_notMem.mp hnone id hid
  · intro hnil
    have hlen := h.valid.length_out IdPoolCfg.nodup_ids
    rw [IdPoolCfg.length_ids, hnil, List.length_nil, Nat.zero_add] at hlen
    have htop : pool.top = pool.capacity := by
      apply UInt32.toNat_inj.mp
      rw [h.top_eq, hlen, h.capacity]
    unfold idPoolGetUsedIdCount
    rw [htop, UInt32.sub_self]
    rfl

end Pools

namespace ClientMngr.Shows
variable {κ : Type} {cfg : ClientMngrCfg} {m : ClientMngr κ} {r : Registry κ} {c f : UInt32}

theorem new (h : m.New cfg) : m.Shows cfg (.new cfg) where
  maxClients := h.maxClients
  maxFiles := h.maxFiles
  clients := h.clientsIdPool
  free := h.filesIdPool
  data := h.file

theorem client_lt (h : m.Shows cfg r) (hc : ¬ cfg.clientsCapacity ≤ c) :
    ¬ m.maxClients ≤ c ∧ c < cfg.clientsCapacity := by
  rw [h.maxClients]
  exact ⟨hc, UInt32.not_le.mp hc⟩

/-- One pool of clients for another. -/
theorem setClients (h : m.Shows cfg r) {m' : ClientMngr κ} {pool : IdPool} {b : Bool}
    {clients : List UInt32} (hrep : IdPool.Rep cfg.clientsPool pool clients)
    (hm : m' = (m.setClientsIdPool pool).setInUse c b) :
    m'.Shows cfg { r with clients } := by
  subst hm
  refine ⟨h.maxClients, h.maxFiles, hrep, ?_, ?_⟩
  · intro c' hc'
    rw [filesIdPool_setInUse]
    exact h.free c' hc'
  · intro c' f'
    rw [file_setInUse_setClientsIdPool]
    exact h.data c' f'

/-- The table of a client for another, after its pool and one of its entries were set. -/
theorem setTable (h : m.Shows cfg r) {pool : IdPool} {free : List UInt32} {data : FileData κ}
    (hrep : IdPool.Rep cfg.filesPool pool free) :
    ((m.setFile c f data).setFilesIdPool c pool).Shows cfg { r with
      tables := Function.update r.tables c ({ r.tables c with free }.store f data) } := by
  refine ⟨h.maxClients, h.maxFiles, h.clients, ?_, ?_⟩
  · intro c' hc'
    rw [filesIdPool_setFilesIdPool]
    dsimp only
    by_cases hcc : c' = c
    · rw [if_pos hcc, hcc, Function.update_self]
      exact hrep
    · rw [if_neg hcc, filesIdPool_setFile, Function.update_of_ne hcc]
      exact h.free c' hc'
  · intro c' f'
    rw [file_setFilesIdPool, file_setFile]
    dsimp only
    by_cases hcc : c' = c
    · rw [hcc, Function.update_self]
      dsimp only [FileTable.store]
      rw [Function.update_apply]
      by_cases hff : f' = f
      · rw [if_pos ⟨rfl, hff⟩, if_pos hff]
      · rw [if_neg fun hcf => hff hcf.2, if_neg hff]
        exact h.data c f'
    · rw [if_neg fun hcf => hcc hcf.1, Function.update_of_ne hcc]
      exact h.data c' f'

/-- The answers are the same, and so are the states after them. -/
def Agree (cfg : ClientMngrCfg) (x : Except Errno (ClientReply κ) × ClientMngr κ)
    (y : Except Errno (ClientReply κ) × Registry κ) : Prop :=
  x.1 = y.1 ∧ x.2.Shows cfg y.2

theorem allocate (h : m.Shows cfg r) :
    Agree cfg (m.answer .allocate) (r.answer cfg .allocate) := by
  have hrep := h.clients
  dsimp only [ClientMngr.answer, FileTransfer.answer, clientMngrRequest, Registry.answer]
  rw [run_map, clientMngrAllocate_run]
  cases hr : r.clients with
  | nil =>
    rw [hr] at hrep
    rw [hrep.allocate_nil]
    exact ⟨rfl, h⟩
  | cons c clients =>
    rw [hr] at hrep
    obtain ⟨pool, hrun, hrep'⟩ := hrep.allocate_cons
    have hids : c ∈ cfg.clientsPool.ids := hrep.valid.subset List.mem_cons_self
    have hc : ¬ m.maxClients ≤ c := by
      rw [h.maxClients, UInt32.not_le]
      exact IdPoolCfg.mem_ids_zero.mp hids
    rw [hrun]
    dsimp only
    rw [if_neg hc]
    exact ⟨rfl, h.setClients hrep' rfl⟩

theorem release (h : m.Shows cfg r) (c : UInt32) :
    Agree cfg (m.answer (.free c)) (r.answer cfg (.free c)) := by
  dsimp only [ClientMngr.answer, FileTransfer.answer, clientMngrRequest, Registry.answer]
  rw [run_map, clientMngrFree_run]
  by_cases hle : cfg.clientsCapacity ≤ c
  · rw [if_pos hle, if_pos (h.maxClients ▸ hle)]
    exact ⟨rfl, h⟩
  obtain ⟨hle', hc⟩ := h.client_lt hle
  have hzero := (h.free c hc).getUsedIdCount_eq_zero
  rw [if_neg hle, if_neg hle']
  by_cases hout : Lifo.out cfg.filesPool.ids (r.tables c).free = []
  · rw [hzero.mpr hout, if_neg (not_not.mpr hout)]
    dsimp only
    rw [if_neg (not_not.mpr rfl)]
    rcases h.clients.free_cases hc with ⟨hs, hrun⟩ | ⟨hs, pool, hrun, hrep⟩
    · rw [hrun, if_pos hs]
      exact ⟨rfl, h.setClients h.clients rfl⟩
    · rw [hrun, if_neg hs]
      exact ⟨rfl, h.setClients hrep rfl⟩
  · rw [if_pos hout]
    cases hcount : idPoolGetUsedIdCount (m.clientsData c).filesIdPool with
    | error e => exact ⟨rfl, h⟩
    | ok idCount =>
      have hne : idCount ≠ 0 := by
        intro hz
        rw [hz] at hcount
        exact hout (hzero.mp hcount)
      dsimp only
      rw [if_pos hne]
      exact ⟨rfl, h⟩

/-! ### The files of a client -/

/-- A request on the files of a client that there is, answered by its table. -/
def AgreeFile (cfg : ClientMngrCfg) (r : Registry κ) (c : UInt32)
    (x : Except Errno (ClientReply κ) × ClientMngr κ)
    (y : Except Errno (ClientReply κ) × FileTable κ) : Prop :=
  Agree cfg x (y.1, { r with tables := Function.update r.tables c y.2 })

theorem keepsTable (h : m.Shows cfg r) {a : Except Errno (ClientReply κ)} :
    AgreeFile cfg r c (a, m) (a, r.tables c) := by
  unfold AgreeFile
  rw [Function.update_eq_self]
  exact ⟨rfl, h⟩

theorem fileAllocate (h : m.Shows cfg r) (hc : ¬ cfg.clientsCapacity ≤ c) (size : UInt32) :
    AgreeFile cfg r c (m.answer (.file c (.allocate size)))
      ((r.tables c).answer cfg.filesCapacity (.allocate size)) := by
  obtain ⟨hle, hlt⟩ := h.client_lt hc
  have hrep := h.free c hlt
  dsimp only [ClientMngr.answer, FileTransfer.answer, clientMngrRequest, FileTable.answer]
  rw [run_map, clientMngrFileAllocate_run, if_neg hle]
  cases hfree : (r.tables c).free with
  | nil =>
    rw [hfree] at hrep
    rw [hrep.allocate_nil]
    dsimp only
    rw [setFilesIdPool_eq_self rfl]
    exact h.keepsTable
  | cons f free =>
    rw [hfree] at hrep
    obtain ⟨pool, hrun, hrep'⟩ := hrep.allocate_cons
    have hf : ¬ m.maxFiles ≤ f := by
      rw [h.maxFiles, UInt32.not_le]
      exact IdPoolCfg.mem_ids_zero.mp (hrep.valid.subset List.mem_cons_self)
    rw [hrun]
    dsimp only
    rw [if_neg hf, setFile_setFilesIdPool]
    exact ⟨rfl, h.setTable hrep'⟩

section Ids
variable (h : m.Shows cfg r) (hc : ¬ cfg.clientsCapacity ≤ c)

include h hc in
/-- The tests of the ids come out as those of the table. -/
theorem ids_iff : m.maxClients ≤ c ∨ m.maxFiles ≤ f ↔ cfg.filesCapacity ≤ f := by
  rw [h.maxFiles]
  exact or_iff_right (h.client_lt hc).1

include h hc in
theorem fileFree (f : UInt32) :
    AgreeFile cfg r c (m.answer (.file c (.free f)))
      ((r.tables c).answer cfg.filesCapacity (.free f)) := by
  have hids := h.ids_iff (f := f) hc
  dsimp only [ClientMngr.answer, FileTransfer.answer, clientMngrRequest, FileTable.answer]
  rw [run_map, clientMngrFileFree_run, h.data c f]
  by_cases hle : cfg.filesCapacity ≤ f
  · rw [if_pos hle, if_pos (hids.mpr hle)]
    exact h.keepsTable
  rw [if_neg hle, if_neg (hids.not.mpr hle)]
  by_cases hctx : ((r.tables c).data f).ctx.isSome = true
  · rw [if_pos hctx, if_pos hctx]
    exact h.keepsTable
  rw [if_neg hctx, if_neg hctx]
  have hrep := h.free c (h.client_lt hc).2
  rcases hrep.free_cases (UInt32.not_le.mp hle) with ⟨hs, hrun⟩ | ⟨hs, pool, hrun, hrep'⟩
  · rw [hrun, if_pos hs]
    exact ⟨rfl, h.setTable hrep⟩
  · rw [hrun, if_neg hs]
    exact ⟨rfl, h.setTable hrep'⟩

include h hc in
theorem fileSetCtx (f : UInt32) (ctx : Option κ) :
    AgreeFile cfg r c (m.answer (.file c (.setCtx f ctx)))
      ((r.tables c).answer cfg.filesCapacity (.setCtx f ctx)) := by
  have hids := h.ids_iff (f := f) hc
  dsimp only [ClientMngr.answer, FileTransfer.answer, clientMngrRequest, FileTable.answer]
  rw [run_map, clientMngrFileSetCtx_run, h.data c f]
  by_cases hle : cfg.filesCapacity ≤ f
  · rw [if_pos hle, if_pos (hids.mpr hle)]
    exact h.keepsTable
  rw [if_neg hle, if_neg (hids.not.mpr hle)]
  have hset : ((m.setFile c f ⟨((r.tables c).data f).fileSize, ctx⟩).setFilesIdPool c
      (m.clientsData c).filesIdPool).Shows cfg _ := h.setTable (h.free c (h.client_lt hc).2)
  rw [setFilesIdPool_eq_self filesIdPool_setFile] at hset
  exact ⟨rfl, hset⟩

include h hc in
theorem fileGetCtx (f : UInt32) :
    AgreeFile cfg r c (m.answer (.file c (.getCtx f)))
      ((r.tables c).answer cfg.filesCapacity (.getCtx f)) := by
  have hids := h.ids_iff (f := f) hc
  dsimp only [ClientMngr.answer, FileTransfer.answer, clientMngrRequest, FileTable.answer]
  rw [run_map, clientMngrFileGetCtx_run, h.data c f]
  by_cases hle : cfg.filesCapacity ≤ f
  · rw [if_pos hle, if_pos (hids.mpr hle)]
    exact h.keepsTable
  rw [if_neg hle, if_neg (hids.not.mpr hle)]
  cases ((r.tables c).data f).ctx with
  | none => exact h.keepsTable
  | some ctx => exact h.keepsTable

include h hc in
theorem fileGetSize (f : UInt32) :
    AgreeFile cfg r c (m.answer (.file c (.getSize f)))
      ((r.tables c).answer cfg.filesCapacity (.getSize f)) := by
  have hids := h.ids_iff (f := f) hc
  dsimp only [ClientMngr.answer, FileTransfer.answer, clientMngrRequest, FileTable.answer]
  rw [run_map, clientMngrFileGetSize_run, h.data c f]
  by_cases hle : cfg.filesCapacity ≤ f
  · rw [if_pos hle, if_pos (hids.mpr hle)]
    exact h.keepsTable
  · rw [if_neg hle, if_neg (hids.not.mpr hle)]
    exact h.keepsTable

include h hc in
theorem file (request : FileRequest κ) :
    AgreeFile cfg r c (m.answer (.file c request))
      ((r.tables c).answer cfg.filesCapacity request) := by
  cases request with
  | allocate size => exact h.fileAllocate hc size
  | free f => exact h.fileFree hc f
  | setCtx f ctx => exact h.fileSetCtx hc f ctx
  | getCtx f => exact h.fileGetCtx hc f
  | getSize f => exact h.fileGetSize hc f

end Ids

/-- The request is refused before anything is looked at. -/
theorem file_refused (h : m.Shows cfg r) (hc : cfg.clientsCapacity ≤ c)
    (request : FileRequest κ) : m.answer (.file c request) = (.error .EINVAL, m) := by
  rw [← h.maxClients] at hc
  dsimp only [ClientMngr.answer, FileTransfer.answer]
  cases request <;> dsimp only [clientMngrRequest]
  · rw [run_map, clientMngrFileAllocate_run, if_pos hc]
  · rw [run_map, clientMngrFileFree_run, if_pos (Or.inl hc)]
  · rw [run_map, clientMngrFileSetCtx_run, if_pos (Or.inl hc)]
  · rw [run_map, clientMngrFileGetCtx_run, if_pos (Or.inl hc)]
  · rw [run_map, clientMngrFileGetSize_run, if_pos (Or.inl hc)]

theorem answer (h : m.Shows cfg r) (request : ClientRequest κ) :
    Agree cfg (m.answer request) (r.answer cfg request) := by
  cases request with
  | allocate => exact h.allocate
  | free c => exact h.release c
  | file c request =>
    dsimp only [Registry.answer]
    by_cases hc : cfg.clientsCapacity ≤ c
    · rw [if_pos hc, h.file_refused hc]
      exact ⟨rfl, h⟩
    · rw [if_neg hc]
      exact h.file hc request

end ClientMngr.Shows

/-! ### Runs -/

/-- The request on the files of the client `c`, if it is one. -/
def ClientRequest.file? {κ : Type} (c : UInt32) : ClientRequest κ → Option (FileRequest κ)
  | .file c' request => if c' = c then some request else none
  | _ => none

section Runs
variable {κ : Type} {cfg : ClientMngrCfg} {m : ClientMngr κ} {heap heap' : Heap} {c : UInt32}

theorem Registry.answer_file {r : Registry κ} (hc : ¬ cfg.clientsCapacity ≤ c)
    (request : FileRequest κ) : r.answer cfg (.file c request) =
      let (a, t) := (r.tables c).answer cfg.filesCapacity request
      (a, { r with tables := Function.update r.tables c t }) :=
  if_neg hc

/-- A request that is not on the files of a client leaves its table as it is. -/
theorem Registry.tables_answer {r : Registry κ} {request : ClientRequest κ}
    (hother : request.file? c = none) : (r.answer cfg request).2.tables c = r.tables c := by
  cases request with
  | allocate =>
    dsimp only [Registry.answer]
    split <;> rfl
  | free c' =>
    dsimp only [Registry.answer]
    split_ifs <;> rfl
  | file c' request =>
    have hne : c' ≠ c := by
      intro he
      simp [ClientRequest.file?, he] at hother
    dsimp only [Registry.answer]
    split_ifs with hc'
    · rfl
    · exact Function.update_of_ne hne.symm _ _

/-- Along every run of requests with any ids the client manager answers as the registry does, and
what it answers about the files of one client is what a table of that client's own answers. -/
theorem requests_refine (hc : (clientMngrCreate cfg).run heap = .ok m heap')
    (requests : List (ClientRequest κ)) :
    outputs ClientMngr.answer m requests =
        outputs (Registry.answer cfg) (.new cfg) requests ∧
      ∀ c < cfg.clientsCapacity,
        outputsOf ClientMngr.answer (fun request => (request.file? c).isSome) m requests =
          outputs (FileTable.answer cfg.filesCapacity) (.new cfg.filesCapacity)
            (requests.filterMap (ClientRequest.file? c)) := by
  have hnew : m.Shows cfg (.new cfg) := .new (clientMngrCreate_ok hc)
  constructor
  · exact (outputs_eq_of_simulation (fun m r request h => ClientMngr.Shows.answer h request)
      hnew requests).1
  · intro c hlt
    have hc' : ¬ cfg.clientsCapacity ≤ c := UInt32.not_le.mpr hlt
    apply outputsOf_eq_outputs (R := fun m t => ∃ r, m.Shows cfg r ∧ r.tables c = t)
    · intro m t request file hR hown
      obtain ⟨r, h, rfl⟩ := hR
      obtain ⟨hsame, hshows⟩ := h.answer request
      cases request with
      | allocate => cases hown
      | free c' => cases hown
      | file c' request =>
        dsimp only [ClientRequest.file?] at hown
        split_ifs at hown with hcc
        cases hown
        subst hcc
        rw [Registry.answer_file hc'] at hsame hshows
        exact ⟨hsame, _, hshows, Function.update_self ..⟩
    · intro m t request hR hother
      obtain ⟨r, h, rfl⟩ := hR
      exact ⟨_, (h.answer request).2, Registry.tables_answer hother⟩
    · exact ⟨_, hnew, rfl⟩

theorem requests_refine_two : ∃ m : ClientMngr ℕ, ∃ heap,
    (clientMngrCreate ⟨2, 2⟩).run ⟨fun _ => true, 0, []⟩ = .ok m heap ∧
      outputs ClientMngr.answer m [.allocate, .file 0 (.allocate 5), .file 1 (.getSize 0)] =
        outputs (Registry.answer ⟨2, 2⟩) (.new ⟨2, 2⟩)
          [.allocate, .file 0 (.allocate 5), .file 1 (.getSize 0)] := by
  obtain ⟨m, heap, hc⟩ : ∃ m : ClientMngr ℕ, ∃ heap,
      (clientMngrCreate ⟨2, 2⟩).run ⟨fun _ => true, 0, []⟩ = .ok m heap := ⟨_, _, rfl⟩
  exact ⟨m, heap, hc, (requests_refine hc _).1⟩

end Runs
end FileTransfer
