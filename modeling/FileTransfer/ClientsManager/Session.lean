import FileTransfer.ClientsManager.Create

/-! Runs of a client manager: its operations with any ids, the clients that are allocated and
the files that are outstanding, each with its size and its context. -/
namespace FileTransfer
open Run

inductive ClientOp (κ : Type)
  | allocate
  | free (clientId : UInt32)
  | fileAllocate (clientId fileSize : UInt32)
  | fileFree (clientId fileId : UInt32)
  | fileSetCtx (clientId fileId : UInt32) (ctx : Option κ)

/-- `clients` and `files` follow the return codes alone. -/
structure ClientSession (κ : Type) where
  mngr : ClientMngr κ
  clients : UInt32 → Bool
  files : UInt32 → UInt32 → Option (FileData κ)

namespace ClientSession
variable {κ : Type}

def start (m : ClientMngr κ) : ClientSession κ := ⟨m, fun _ => false, fun _ _ => none⟩

variable (s : ClientSession κ)

def setClient (m : ClientMngr κ) (c : UInt32) (allocated : Bool) : ClientSession κ :=
  ⟨m, Function.update s.clients c allocated, s.files⟩

def setFile (m : ClientMngr κ) (c f : UInt32) (data : Option (FileData κ)) : ClientSession κ :=
  ⟨m, s.clients, Function.update s.files c (Function.update (s.files c) f data)⟩

/-- The return code of an operation, with the id that it hands out, and the state after it. -/
def step : ClientOp κ → Except Errno (Option UInt32) × ClientSession κ
  | .allocate =>
    match clientMngrAllocate.run s.mngr with
    | .ok c m => (.ok (some c), s.setClient m c true)
    | .error e m => (.error e, { s with mngr := m })
  | .free c =>
    match (clientMngrFree c).run s.mngr with
    | .ok _ m => (.ok none, s.setClient m c false)
    | .error e m => (.error e, { s with mngr := m })
  | .fileAllocate c size =>
    match (clientMngrFileAllocate c size).run s.mngr with
    | .ok f m => (.ok (some f), s.setFile m c f (some ⟨size, none⟩))
    | .error e m => (.error e, { s with mngr := m })
  | .fileFree c f =>
    match (clientMngrFileFree c f).run s.mngr with
    | .ok _ m => (.ok none, s.setFile m c f none)
    | .error e m => (.error e, { s with mngr := m })
  | .fileSetCtx c f ctx =>
    match (clientMngrFileSetCtx c f ctx).run s.mngr with
    | .ok _ m => (.ok none, s.setFile m c f ((s.files c f).map fun data => { data with ctx }))
    | .error e m => (.error e, { s with mngr := m })

def exec (op : ClientOp κ) : ClientSession κ := (s.step op).2

/-- The clients that are allocated. -/
def allocated : Set UInt32 := {c | s.clients c = true}

/-- The files of a client that are outstanding. -/
def outstanding (c : UInt32) : Set UInt32 := {f | (s.files c f).isSome = true}

section Ghost
variable {s : ClientSession κ} {m : ClientMngr κ} {c c' f f' : UInt32} {data : Option (FileData κ)}

theorem allocated_setClient_true : (s.setClient m c true).allocated = insert c s.allocated := by
  ext c'
  simp only [allocated, setClient, Set.mem_ofPred_eq, Set.mem_insert_iff, Function.update_apply]
  by_cases hc : c' = c
  · simp [hc]
  · simp [hc]

theorem allocated_setClient_false : (s.setClient m c false).allocated = s.allocated \ {c} := by
  ext c'
  simp only [allocated, setClient, Set.mem_ofPred_eq, Set.mem_sdiff, Set.mem_singleton_iff,
    Function.update_apply]
  by_cases hc : c' = c
  · simp [hc]
  · simp [hc]

theorem files_setFile : (s.setFile m c f data).files c' f' =
    if c' = c ∧ f' = f then data else s.files c' f' := by
  dsimp only [setFile]
  rw [Function.update_apply]
  by_cases hc : c' = c
  · simp [hc, Function.update_apply]
  · simp [hc]

/-- The manager may change while no file does. -/
theorem setFile_none (h : s.files c f = none) : s.setFile m c f none = { s with mngr := m } := by
  unfold setFile
  rw [← h, Function.update_eq_self, Function.update_eq_self]

theorem outstanding_setFile_of_ne (h : c' ≠ c) :
    (s.setFile m c f data).outstanding c' = s.outstanding c' := by
  ext f'
  simp [outstanding, files_setFile, h]

theorem outstanding_setFile_some {d : FileData κ} :
    (s.setFile m c f (some d)).outstanding c = insert f (s.outstanding c) := by
  ext f'
  simp only [outstanding, files_setFile, Set.mem_ofPred_eq, Set.mem_insert_iff, true_and]
  by_cases hf : f' = f
  · simp [hf]
  · simp [hf]

theorem outstanding_setFile_none :
    (s.setFile m c f none).outstanding c = s.outstanding c \ {f} := by
  ext f'
  simp only [outstanding, files_setFile, Set.mem_ofPred_eq, Set.mem_sdiff, Set.mem_singleton_iff,
    true_and]
  by_cases hf : f' = f
  · simp [hf]
  · simp [hf]

theorem outstanding_setFile_map {g : FileData κ → FileData κ} :
    (s.setFile m c f ((s.files c f).map g)).outstanding c' = s.outstanding c' := by
  ext f'
  simp only [outstanding, files_setFile, Set.mem_ofPred_eq]
  by_cases hf : c' = c ∧ f' = f
  · rw [if_pos hf, hf.1, hf.2, Option.isSome_map]
  · rw [if_neg hf]

end Ghost

/-! ### What the session knows of the manager -/

/-- The pools and the flags agree with the return codes, and an outstanding file is stored as it
was left. No condition on the operations is needed for this. -/
structure Tracks (cfg : ClientMngrCfg) (s : ClientSession κ) : Prop where
  maxClients : s.mngr.maxClients = cfg.clientsCapacity
  maxFiles : s.mngr.maxFiles = cfg.filesCapacity
  clientsIdPool : IdPool.Out cfg.clientsPool s.mngr.clientsIdPool s.allocated
  filesIdPool : ∀ c < cfg.clientsCapacity,
    IdPool.Out cfg.filesPool (s.mngr.clientsData c).filesIdPool (s.outstanding c)
  inUse : ∀ c, (s.mngr.clientsData c).inUse = s.clients c
  file : ∀ c f data, s.files c f = some data → s.mngr.file c f = data

/-- When an operation can be refused. -/
def Refusable (cfg : ClientMngrCfg) (s : ClientSession κ) : ClientOp κ → Prop
  | .allocate => ∀ c < cfg.clientsCapacity, c ∈ s.allocated
  | .free _ => True
  | .fileAllocate c _ => c < cfg.clientsCapacity → ∀ f < cfg.filesCapacity, f ∈ s.outstanding c
  | .fileFree c f =>
    c < cfg.clientsCapacity → f < cfg.filesCapacity → (s.mngr.file c f).ctx ≠ none
  | .fileSetCtx c f _ => ¬ (c < cfg.clientsCapacity ∧ f < cfg.filesCapacity)

/-- What an operation can answer, and what it does to the session. -/
inductive Effect (cfg : ClientMngrCfg) (s : ClientSession κ) :
    ClientOp κ → Except Errno (Option UInt32) × ClientSession κ → Prop
  | refused {op : ClientOp κ} (e : Errno) (hop : Refusable cfg s op) : Effect cfg s op (.error e, s)
  | allocate {c : UInt32} {m : ClientMngr κ} (hnew : s.clients c = false)
      (hfile : m.file = s.mngr.file) :
      Effect cfg s .allocate (.ok (some c), s.setClient m c true)
  | free {c : UInt32} {m : ClientMngr κ} (hnone : s.outstanding c = ∅)
      (hfile : m.file = s.mngr.file) :
      Effect cfg s (.free c) (.ok none, s.setClient m c false)
  | fileAllocate {c f : UInt32} {m : ClientMngr κ} (size : UInt32) (hc : c < cfg.clientsCapacity)
      (hnew : s.files c f = none) (hfile : m.file = (s.mngr.setFile c f ⟨size, none⟩).file) :
      Effect cfg s (.fileAllocate c size) (.ok (some f), s.setFile m c f (some ⟨size, none⟩))
  | fileFree {c f : UInt32} {m : ClientMngr κ} (size : UInt32)
      (hold : s.files c f = some ⟨size, none⟩)
      (hfile : m.file = (s.mngr.setFile c f ⟨0, none⟩).file) :
      Effect cfg s (.fileFree c f) (.ok none, s.setFile m c f none)
  | fileFreeRefused {c f : UInt32} {m : ClientMngr κ} (e : Errno) (hnone : s.files c f = none)
      (hctx : (s.mngr.file c f).ctx = none)
      (hfile : m.file = (s.mngr.setFile c f ⟨0, none⟩).file) :
      Effect cfg s (.fileFree c f) (.error e, { s with mngr := m })
  | fileSetCtx {c f : UInt32} (ctx : Option κ) (hc : c < cfg.clientsCapacity)
      (hf : f < cfg.filesCapacity) :
      Effect cfg s (.fileSetCtx c f ctx) (.ok none,
        s.setFile (s.mngr.setFile c f { s.mngr.file c f with ctx }) c f
          ((s.files c f).map fun data => { data with ctx }))

namespace Tracks
variable {cfg : ClientMngrCfg} {s : ClientSession κ} {c f : UInt32}

theorem start {m : ClientMngr κ} (h : m.New cfg) : Tracks cfg (ClientSession.start m) where
  maxClients := h.maxClients
  maxFiles := h.maxFiles
  clientsIdPool := by
    have hnone : (ClientSession.start m).allocated = ∅ := by
      ext c
      simp [allocated, ClientSession.start]
    rw [hnone]
    exact .of_new h.clientsIdPool
  filesIdPool := by
    intro c hc
    have hnone : (ClientSession.start m).outstanding c = ∅ := by
      ext f
      simp [outstanding, ClientSession.start]
    rw [hnone]
    exact .of_new (h.filesIdPool c hc)
  inUse := h.inUse
  file := fun _ _ _ hd => nomatch hd

theorem refused (h : Tracks cfg s) (op : ClientOp κ) (e : Errno) (hop : Refusable cfg s op)
    (hstep : s.step op = (.error e, s)) :
    Tracks cfg (s.step op).2 ∧ Effect cfg s op (s.step op) := by
  rw [hstep]
  exact ⟨h, .refused e hop⟩

/-! The tests of the ids fail exactly on the ids out of range. -/

theorem client_lt_iff (h : Tracks cfg s) :
    c < cfg.clientsCapacity ↔ ¬ s.mngr.maxClients ≤ c := by
  rw [h.maxClients, UInt32.not_le]

theorem file_lt_iff (h : Tracks cfg s) : f < cfg.filesCapacity ↔ ¬ s.mngr.maxFiles ≤ f := by
  rw [h.maxFiles, UInt32.not_le]

theorem in_range_iff (h : Tracks cfg s) :
    c < cfg.clientsCapacity ∧ f < cfg.filesCapacity ↔
      ¬ (s.mngr.maxClients ≤ c ∨ s.mngr.maxFiles ≤ f) := by
  rw [h.client_lt_iff, h.file_lt_iff, not_or]

/-- The pool of the clients and one flag change. -/
theorem setClient (h : Tracks cfg s) {m : ClientMngr κ} {pool : IdPool} {allocated : Bool}
    (hm : m = (s.mngr.setClientsIdPool pool).setInUse c allocated)
    (hout : IdPool.Out cfg.clientsPool pool (s.setClient m c allocated).allocated) :
    Tracks cfg (s.setClient m c allocated) := by
  have hmngr : (s.setClient m c allocated).mngr =
      (s.mngr.setClientsIdPool pool).setInUse c allocated := hm
  have hfile : ((s.mngr.setClientsIdPool pool).setInUse c allocated).file = s.mngr.file :=
    ClientMngr.file_setInUse_setClientsIdPool
  refine ⟨?_, ?_, ?_, ?_, ?_, ?_⟩
  · rw [hmngr]
    exact h.maxClients
  · rw [hmngr]
    exact h.maxFiles
  · rw [hmngr]
    exact hout
  · intro c' hc'
    rw [hmngr, ClientMngr.filesIdPool_setInUse]
    exact h.filesIdPool c' hc'
  · intro c'
    rw [hmngr, ClientMngr.inUse_setInUse]
    dsimp only [ClientSession.setClient]
    rw [Function.update_apply]
    by_cases hc : c' = c
    · rw [if_pos hc, if_pos hc]
    · rw [if_neg hc, if_neg hc]
      exact h.inUse c'
  · intro c' f' data hd
    rw [hmngr, hfile]
    exact h.file c' f' data hd

theorem allocate (h : Tracks cfg s) :
    Tracks cfg (s.step .allocate).2 ∧ Effect cfg s .allocate (s.step .allocate) := by
  rcases h.clientsIdPool.allocate with ⟨hrun, hall⟩ | ⟨c, pool, hrun, hids, hnew, hout⟩
  · apply h.refused .allocate .ENOENT fun c hc => hall c (IdPoolCfg.mem_ids_zero.mpr hc)
    simp only [ClientSession.step, clientMngrAllocate_run, hrun]
    rfl
  · have hc : ¬ s.mngr.maxClients ≤ c := h.client_lt_iff.mp (IdPoolCfg.mem_ids_zero.mp hids)
    have hstep : s.step .allocate = (.ok (some c),
        s.setClient ((s.mngr.setClientsIdPool pool).setInUse c true) c true) := by
      simp only [ClientSession.step, clientMngrAllocate_run, hrun, if_neg hc]
    rw [hstep]
    refine ⟨h.setClient rfl ?_, .allocate ?_ ClientMngr.file_setInUse_setClientsIdPool⟩
    · rw [allocated_setClient_true]
      exact hout
    · rw [← Bool.not_eq_true]
      exact hnew

theorem no_wrap (capacity : UInt32) : (0 : UInt32).toNat + capacity.toNat < 2 ^ 32 := by
  rw [UInt32.toNat_zero, Nat.zero_add]
  exact capacity.toNat_lt

theorem free (h : Tracks cfg s) :
    Tracks cfg (s.step (.free c)).2 ∧ Effect cfg s (.free c) (s.step (.free c)) := by
  by_cases hle : s.mngr.maxClients ≤ c
  · apply h.refused (.free c) .EINVAL trivial
    simp only [ClientSession.step, clientMngrFree_run, if_pos hle]
  have hc : c < cfg.clientsCapacity := h.client_lt_iff.mpr hle
  cases hcount : idPoolGetUsedIdCount (s.mngr.clientsData c).filesIdPool with
  | error e =>
    apply h.refused (.free c) .EACCES trivial
    simp only [ClientSession.step, clientMngrFree_run, if_neg hle, hcount]
  | ok idCount =>
    by_cases hz : idCount ≠ 0
    · apply h.refused (.free c) .EACCES trivial
      simp only [ClientSession.step, clientMngrFree_run, if_neg hle, hcount, if_pos hz]
    have hnone : s.outstanding c = ∅ := by
      apply (h.filesIdPool c hc).eq_empty
      rw [hcount, not_not.mp hz]
    by_cases hin : c ∈ s.allocated
    · obtain ⟨pool, hrun, hout⟩ := h.clientsIdPool.free hin (no_wrap _)
      have hstep : s.step (.free c) = (.ok none,
          s.setClient ((s.mngr.setInUse c false).setClientsIdPool pool) c false) := by
        simp only [ClientSession.step, clientMngrFree_run, if_neg hle, hcount, if_neg hz, hrun]
      rw [hstep]
      refine ⟨h.setClient rfl ?_, .free hnone ClientMngr.file_setInUse_setClientsIdPool⟩
      rw [allocated_setClient_false]
      exact hout
    · obtain ⟨e, hrun⟩ := h.clientsIdPool.free_of_notMem hin (no_wrap _)
      have hunused : (s.mngr.clientsData c).inUse = false := by
        rw [h.inUse, ← Bool.not_eq_true]
        exact hin
      apply h.refused (.free c) e trivial
      simp only [ClientSession.step, clientMngrFree_run, if_neg hle, hcount, if_neg hz, hrun,
        ClientMngr.setInUse_eq_self hunused, ClientMngr.setClientsIdPool_eq_self]

/-- The pools and the flags after a change of the ghost files of one client. -/
theorem setFile (h : Tracks cfg s) {m : ClientMngr κ} {pool : IdPool}
    {data : Option (FileData κ)} {stored : FileData κ}
    (hm : m = (s.mngr.setFile c f stored).setFilesIdPool c pool)
    (hout : IdPool.Out cfg.filesPool pool ((s.setFile m c f data).outstanding c))
    (hdata : ∀ d, data = some d → stored = d) : Tracks cfg (s.setFile m c f data) := by
  refine ⟨?_, ?_, ?_, ?_, ?_, ?_⟩
  · rw [hm]
    exact h.maxClients
  · rw [hm]
    exact h.maxFiles
  · rw [hm]
    exact h.clientsIdPool
  · intro c' hc'
    rw [show (s.setFile m c f data).mngr = m from rfl]
    by_cases hcc : c' = c
    · rw [hm, ClientMngr.filesIdPool_setFilesIdPool, if_pos hcc, hcc, ← hm]
      exact hout
    · rw [hm, ClientMngr.filesIdPool_setFilesIdPool, if_neg hcc, ClientMngr.filesIdPool_setFile,
        ← hm, outstanding_setFile_of_ne hcc]
      exact h.filesIdPool c' hc'
  · intro c'
    rw [show (s.setFile m c f data).mngr = m from rfl, hm, ClientMngr.inUse_setFilesIdPool,
      ClientMngr.inUse_setFile]
    exact h.inUse c'
  · intro c' f' d hd
    rw [files_setFile] at hd
    rw [show (s.setFile m c f data).mngr = m from rfl, hm, ClientMngr.file_setFilesIdPool,
      ClientMngr.file_setFile]
    by_cases hcf : c' = c ∧ f' = f
    · rw [if_pos hcf] at hd ⊢
      exact hdata d hd
    · rw [if_neg hcf] at hd ⊢
      exact h.file c' f' d hd

theorem fileAllocate (h : Tracks cfg s) {size : UInt32} :
    Tracks cfg (s.step (.fileAllocate c size)).2 ∧
      Effect cfg s (.fileAllocate c size) (s.step (.fileAllocate c size)) := by
  by_cases hle : s.mngr.maxClients ≤ c
  · apply h.refused (.fileAllocate c size) .EINVAL fun hc => absurd hle (h.client_lt_iff.mp hc)
    simp only [ClientSession.step, clientMngrFileAllocate_run, if_pos hle]
  have hc : c < cfg.clientsCapacity := h.client_lt_iff.mpr hle
  rcases (h.filesIdPool c hc).allocate with ⟨hrun, hall⟩ | ⟨f, pool, hrun, hids, hnew, hout⟩
  · apply h.refused (.fileAllocate c size) .ENOENT fun _ f hf =>
      hall f (IdPoolCfg.mem_ids_zero.mpr hf)
    simp only [ClientSession.step, clientMngrFileAllocate_run, if_neg hle, hrun,
      ClientMngr.setFilesIdPool_eq_self]
  · have hf : ¬ s.mngr.maxFiles ≤ f := h.file_lt_iff.mp (IdPoolCfg.mem_ids_zero.mp hids)
    have hstep : s.step (.fileAllocate c size) = (.ok (some f), s.setFile
        ((s.mngr.setFile c f ⟨size, none⟩).setFilesIdPool c pool) c f (some ⟨size, none⟩)) := by
      simp only [ClientSession.step, clientMngrFileAllocate_run, if_neg hle, hrun, if_neg hf,
        ClientMngr.setFile_setFilesIdPool]
    rw [hstep]
    refine ⟨h.setFile rfl ?_ fun d hd => Option.some.inj hd, .fileAllocate size hc ?_ ?_⟩
    · rw [outstanding_setFile_some]
      exact hout
    · rw [← Option.not_isSome_iff_eq_none]
      exact hnew
    · funext c' f'
      exact ClientMngr.file_setFilesIdPool

theorem fileFree (h : Tracks cfg s) :
    Tracks cfg (s.step (.fileFree c f)).2 ∧
      Effect cfg s (.fileFree c f) (s.step (.fileFree c f)) := by
  by_cases hle : s.mngr.maxClients ≤ c ∨ s.mngr.maxFiles ≤ f
  · apply h.refused (.fileFree c f) .EINVAL fun hc hf => absurd hle (h.in_range_iff.mp ⟨hc, hf⟩)
    simp only [ClientSession.step, clientMngrFileFree_run, if_pos hle]
  have hc : c < cfg.clientsCapacity := (h.in_range_iff.mpr hle).1
  by_cases hctx : (s.mngr.file c f).ctx.isSome = true
  · apply h.refused (.fileFree c f) .EPERM fun _ _ => Option.isSome_iff_ne_none.mp hctx
    simp only [ClientSession.step, clientMngrFileFree_run, if_neg hle, if_pos hctx]
  have hnull : (s.mngr.file c f).ctx = none := by
    rwa [Option.not_isSome_iff_eq_none] at hctx
  have hclear : (⟨0, (s.mngr.file c f).ctx⟩ : FileData κ) = ⟨0, none⟩ := by
    rw [hnull]
  cases hfile : s.files c f with
  | some data =>
    have hin : f ∈ s.outstanding c := by
      simp [outstanding, hfile]
    obtain ⟨pool, hrun, hout⟩ := (h.filesIdPool c hc).free hin (no_wrap _)
    have hstep : s.step (.fileFree c f) = (.ok none,
        s.setFile ((s.mngr.setFile c f ⟨0, none⟩).setFilesIdPool c pool) c f none) := by
      simp only [ClientSession.step, clientMngrFileFree_run, if_neg hle, if_neg hctx, hrun, hclear]
    have hold : s.files c f = some ⟨data.fileSize, none⟩ := by
      rw [hfile, ← hnull, h.file c f data hfile]
    rw [hstep]
    refine ⟨h.setFile rfl ?_ fun d hd => (nomatch hd), .fileFree _ hold ?_⟩
    · rw [outstanding_setFile_none]
      exact hout
    · funext c' f'
      exact ClientMngr.file_setFilesIdPool
  | none =>
    have hnotin : f ∉ s.outstanding c := by
      simp [outstanding, hfile]
    obtain ⟨e, hrun⟩ := (h.filesIdPool c hc).free_of_notMem hnotin (no_wrap _)
    have hstep : s.step (.fileFree c f) = (.error e, { s with
        mngr := (s.mngr.setFile c f ⟨0, none⟩).setFilesIdPool c
          (s.mngr.clientsData c).filesIdPool }) := by
      simp only [ClientSession.step, clientMngrFileFree_run, if_neg hle, if_neg hctx, hrun, hclear]
    rw [hstep]
    refine ⟨?_, .fileFreeRefused e hfile hnull ?_⟩
    · -- the files that are outstanding do not change, but the entry of the file does
      rw [← setFile_none hfile]
      refine h.setFile rfl ?_ fun d hd => (nomatch hd)
      rw [setFile_none hfile]
      exact h.filesIdPool c hc
    · funext c' f'
      exact ClientMngr.file_setFilesIdPool

theorem fileSetCtx (h : Tracks cfg s) {ctx : Option κ} :
    Tracks cfg (s.step (.fileSetCtx c f ctx)).2 ∧
      Effect cfg s (.fileSetCtx c f ctx) (s.step (.fileSetCtx c f ctx)) := by
  by_cases hle : s.mngr.maxClients ≤ c ∨ s.mngr.maxFiles ≤ f
  · apply h.refused (.fileSetCtx c f ctx) .EINVAL fun hin => h.in_range_iff.mp hin hle
    simp only [ClientSession.step, clientMngrFileSetCtx_run, if_pos hle]
  obtain ⟨hc, hf⟩ := h.in_range_iff.mpr hle
  have hstep : s.step (.fileSetCtx c f ctx) = (.ok none,
      s.setFile (s.mngr.setFile c f { s.mngr.file c f with ctx }) c f
        ((s.files c f).map fun data => { data with ctx })) := by
    simp only [ClientSession.step, clientMngrFileSetCtx_run, if_neg hle]
  rw [hstep]
  refine ⟨h.setFile (ClientMngr.setFilesIdPool_eq_self rfl).symm ?_ ?_, .fileSetCtx ctx hc hf⟩
  · rw [outstanding_setFile_map, ClientMngr.filesIdPool_setFile]
    exact h.filesIdPool c hc
  · intro d hd
    obtain ⟨data, hdata, rfl⟩ := Option.map_eq_some_iff.mp hd
    rw [h.file c f data hdata]

theorem step (h : Tracks cfg s) (op : ClientOp κ) :
    Tracks cfg (s.step op).2 ∧ Effect cfg s op (s.step op) := by
  cases op with
  | allocate => exact h.allocate
  | free c => exact h.free
  | fileAllocate c size => exact h.fileAllocate
  | fileFree c f => exact h.fileFree
  | fileSetCtx c f ctx => exact h.fileSetCtx

end Tracks

end ClientSession
end FileTransfer
