import FileTransfer.ClientsManager.Orphans

/-! The client manager as a map of the outstanding files, which its two queries read. -/
namespace FileTransfer
open Run

/-- The operations and the queries. -/
inductive ClientCall (κ : Type)
  | change (op : ClientOp κ)
  | getCtx (clientId fileId : UInt32)
  | getSize (clientId fileId : UInt32)

/-- The call names the given file to free it or to set its context. -/
def ClientCall.Touches {κ : Type} (c f : UInt32) : ClientCall κ → Prop
  | .change (.fileFree c' f') => c' = c ∧ f' = f
  | .change (.fileSetCtx c' f' _) => c' = c ∧ f' = f
  | _ => False

namespace ClientSession
variable {κ : Type} {cfg : ClientMngrCfg} {s : ClientSession κ} {c f : UInt32}

def call (s : ClientSession κ) : ClientCall κ → ClientSession κ
  | .change op => s.exec op
  | .getCtx c f =>
    match (clientMngrFileGetCtx c f).run s.mngr with
    | .ok _ m => { s with mngr := m }
    | .error _ m => { s with mngr := m }
  | .getSize c f =>
    match (clientMngrFileGetSize c f).run s.mngr with
    | .ok _ m => { s with mngr := m }
    | .error _ m => { s with mngr := m }

/-- The calls answer as those of a map from the outstanding files to sizes and contexts do. -/
structure AnswersAsMap (s : ClientSession κ) : Prop where
  getSize : ∀ c f data, s.files c f = some data →
    (clientMngrFileGetSize c f).run s.mngr = .ok data.fileSize s.mngr
  getCtx : ∀ c f size ctx, s.files c f = some ⟨size, some ctx⟩ →
    (clientMngrFileGetCtx c f).run s.mngr = .ok ctx s.mngr
  getCtxNull : ∀ c f size, s.files c f = some ⟨size, none⟩ →
    (clientMngrFileGetCtx c f).run s.mngr = .error .EINVAL s.mngr
  fileAllocate : ∀ c size f, (s.step (.fileAllocate c size)).1 = .ok (some f) →
    s.files c f = none ∧ (s.exec (.fileAllocate c size)).files c f = some ⟨size, none⟩
  fileSetCtx : ∀ c f ctx data, s.files c f = some data →
    (s.step (.fileSetCtx c f ctx)).1 = .ok none ∧
      (s.exec (.fileSetCtx c f ctx)).files c f = some { data with ctx }
  fileFree : ∀ c f, (s.step (.fileFree c f)).1 = .ok none →
    (∃ size, s.files c f = some ⟨size, none⟩) ∧ (s.exec (.fileFree c f)).files c f = none
  free : ∀ c, (s.step (.free c)).1 = .ok none → ∀ f, s.files c f = none

/-! ### Queries change nothing -/

theorem keeps_checkIds : Keeps (checkIds c f : Call (ClientMngr κ) Unit) := by
  intro m
  rw [checkIds_run]
  by_cases hids : m.maxClients ≤ c ∨ m.maxFiles ≤ f
  · rw [if_pos hids]
    rfl
  · rw [if_neg hids]
    rfl

theorem keeps_getCtx : Keeps (clientMngrFileGetCtx c f : Call (ClientMngr κ) κ) := by
  unfold clientMngrFileGetCtx
  apply keeps_checkIds.bind
  intro _
  apply Keeps.get.bind
  intro m
  cases (m.file c f).ctx with
  | none => exact .throw _
  | some ctx => exact .pure ctx

theorem keeps_getSize : Keeps (clientMngrFileGetSize c f : Call (ClientMngr κ) UInt32) := by
  unfold clientMngrFileGetSize
  apply keeps_checkIds.bind
  intro _
  apply Keeps.get.bind
  intro m
  exact .pure _

theorem call_getCtx : s.call (.getCtx c f) = s := by
  unfold call
  dsimp only
  rcases (keeps_getCtx (c := c) (f := f)).cases s.mngr with ⟨ctx, hrun⟩ | ⟨e, hrun⟩
  · rw [hrun]
  · rw [hrun]

theorem call_getSize : s.call (.getSize c f) = s := by
  unfold call
  dsimp only
  rcases (keeps_getSize (c := c) (f := f)).cases s.mngr with ⟨size, hrun⟩ | ⟨e, hrun⟩
  · rw [hrun]
  · rw [hrun]

/-! ### The files that are outstanding are entries of the arrays -/

/-- The client of an outstanding file is in range. -/
def FilesInRange (cfg : ClientMngrCfg) (s : ClientSession κ) : Prop :=
  ∀ c f, s.files c f ≠ none → c < cfg.clientsCapacity

theorem FilesInRange.setFile (h : FilesInRange cfg s) {m : ClientMngr κ}
    {data : Option (FileData κ)} (hc : data ≠ none → c < cfg.clientsCapacity) :
    FilesInRange cfg (s.setFile m c f data) := by
  intro c' f' hf
  rw [files_setFile] at hf
  by_cases hcf : c' = c ∧ f' = f
  · rw [if_pos hcf] at hf
    rw [hcf.1]
    exact hc hf
  · rw [if_neg hcf] at hf
    exact h c' f' hf

theorem FilesInRange.exec (h : FilesInRange cfg s) (ht : Tracks cfg s) (op : ClientOp κ) :
    FilesInRange cfg (s.exec op) := by
  obtain ⟨-, heffect⟩ := ht.step op
  unfold ClientSession.exec
  generalize s.step op = r at heffect ⊢
  cases heffect with
  | refused e _ => exact h
  | allocate _ _ => exact h
  | free _ _ => exact h
  | fileAllocate size hc _ _ => exact h.setFile fun _ => hc
  | fileFree size _ _ => exact h.setFile fun hne => absurd rfl hne
  | fileFreeRefused e _ _ _ => exact h
  | fileSetCtx ctx hc _ => exact h.setFile fun _ => hc

theorem call_invariant (h : Tracks cfg s ∧ FilesInRange cfg s) (op : ClientCall κ) :
    Tracks cfg (s.call op) ∧ FilesInRange cfg (s.call op) := by
  cases op with
  | change op => exact ⟨(h.1.step op).1, h.2.exec h.1 op⟩
  | getCtx c f => rwa [call_getCtx]
  | getSize c f => rwa [call_getSize]

namespace Tracks

theorem in_range (h : Tracks cfg s) (hr : FilesInRange cfg s) (hf : s.files c f ≠ none) :
    c < cfg.clientsCapacity ∧ f < cfg.filesCapacity := by
  have hc := hr c f hf
  have hout : f ∈ s.outstanding c := Option.isSome_iff_ne_none.mpr hf
  exact ⟨hc, IdPoolCfg.mem_ids_zero.mp ((h.filesIdPool c hc).mem_ids hout)⟩

theorem ids_pass (h : Tracks cfg s) (hr : FilesInRange cfg s) (hf : s.files c f ≠ none) :
    ¬ (s.mngr.maxClients ≤ c ∨ s.mngr.maxFiles ≤ f) :=
  h.in_range_iff.mp (h.in_range hr hf)

/-! ### Every call answers as the map does -/

theorem getSize_run (h : Tracks cfg s) (hr : FilesInRange cfg s) {data : FileData κ}
    (hf : s.files c f = some data) :
    (clientMngrFileGetSize c f).run s.mngr = .ok data.fileSize s.mngr := by
  have hids := h.ids_pass hr (hf ▸ Option.some_ne_none data)
  rw [clientMngrFileGetSize_run, if_neg hids, h.file c f data hf]

theorem getCtx_some (h : Tracks cfg s) (hr : FilesInRange cfg s) {size : UInt32} {ctx : κ}
    (hf : s.files c f = some ⟨size, some ctx⟩) :
    (clientMngrFileGetCtx c f).run s.mngr = .ok ctx s.mngr := by
  have hids := h.ids_pass hr (hf ▸ Option.some_ne_none _)
  rw [clientMngrFileGetCtx_run, if_neg hids, h.file c f _ hf]

theorem getCtx_none (h : Tracks cfg s) (hr : FilesInRange cfg s) {size : UInt32}
    (hf : s.files c f = some ⟨size, none⟩) :
    (clientMngrFileGetCtx c f).run s.mngr = .error .EINVAL s.mngr := by
  have hids := h.ids_pass hr (hf ▸ Option.some_ne_none _)
  rw [clientMngrFileGetCtx_run, if_neg hids, h.file c f _ hf]

theorem fileAllocate_ok (h : Tracks cfg s) {size : UInt32}
    (hok : (s.step (.fileAllocate c size)).1 = .ok (some f)) :
    s.files c f = none ∧ (s.exec (.fileAllocate c size)).files c f = some ⟨size, none⟩ := by
  obtain ⟨-, heffect⟩ := h.step (.fileAllocate c size)
  unfold exec
  generalize s.step (.fileAllocate c size) = r at heffect hok ⊢
  cases heffect with
  | refused e _ => cases hok
  | fileAllocate size hc hnew _ =>
    cases hok
    refine ⟨hnew, ?_⟩
    dsimp only
    rw [files_setFile, if_pos ⟨rfl, rfl⟩]

theorem fileSetCtx_ok (h : Tracks cfg s) (hr : FilesInRange cfg s) {ctx : Option κ}
    {data : FileData κ} (hf : s.files c f = some data) :
    (s.step (.fileSetCtx c f ctx)).1 = .ok none ∧
      (s.exec (.fileSetCtx c f ctx)).files c f = some { data with ctx } := by
  have hin := h.in_range hr (hf ▸ Option.some_ne_none data)
  obtain ⟨-, heffect⟩ := h.step (.fileSetCtx c f ctx)
  unfold exec
  generalize s.step (.fileSetCtx c f ctx) = r at heffect ⊢
  cases heffect with
  | refused e hout => exact absurd hin hout
  | fileSetCtx ctx _ _ =>
    refine ⟨rfl, ?_⟩
    dsimp only
    rw [files_setFile, if_pos ⟨rfl, rfl⟩, hf]
    rfl

theorem fileFree_ok (h : Tracks cfg s) (hok : (s.step (.fileFree c f)).1 = .ok none) :
    (∃ size, s.files c f = some ⟨size, none⟩) ∧ (s.exec (.fileFree c f)).files c f = none := by
  obtain ⟨-, heffect⟩ := h.step (.fileFree c f)
  unfold exec
  generalize s.step (.fileFree c f) = r at heffect hok ⊢
  cases heffect with
  | refused e _ => cases hok
  | fileFreeRefused e _ _ _ => cases hok
  | fileFree size hold _ =>
    refine ⟨⟨size, hold⟩, ?_⟩
    dsimp only
    rw [files_setFile, if_pos ⟨rfl, rfl⟩]

theorem free_ok (h : Tracks cfg s) (hok : (s.step (.free c)).1 = .ok none) (f : UInt32) :
    s.files c f = none := by
  obtain ⟨-, heffect⟩ := h.step (.free c)
  generalize s.step (.free c) = r at heffect hok
  cases heffect with
  | refused e _ => cases hok
  | free hnone _ =>
    have hnotin : f ∉ s.outstanding c := by
      rw [hnone]
      exact Set.notMem_empty f
    exact Option.not_isSome_iff_eq_none.mp hnotin

theorem answersAsMap (h : Tracks cfg s) (hr : FilesInRange cfg s) : s.AnswersAsMap where
  getSize _ _ _ hf := h.getSize_run hr hf
  getCtx _ _ _ _ hf := h.getCtx_some hr hf
  getCtxNull _ _ _ hf := h.getCtx_none hr hf
  fileAllocate _ _ _ := h.fileAllocate_ok
  fileSetCtx _ _ _ _ hf := h.fileSetCtx_ok hr hf
  fileFree _ _ := h.fileFree_ok
  free _ := h.free_ok

/-- Only an operation that names an outstanding file can end or change it. -/
theorem files_exec (h : Tracks cfg s) {op : ClientOp κ} {data : FileData κ}
    (hf : s.files c f = some data) (hop : ¬ (ClientCall.change op).Touches c f) :
    (s.exec op).files c f = some data := by
  obtain ⟨-, heffect⟩ := h.step op
  unfold exec
  generalize s.step op = r at heffect ⊢
  cases heffect with
  | refused e _ => exact hf
  | allocate _ _ => exact hf
  | free _ _ => exact hf
  | fileFreeRefused e _ _ _ => exact hf
  | fileAllocate size hc hnew _ =>
    dsimp only
    rw [files_setFile, if_neg]
    · exact hf
    · intro hcf
      rw [← hcf.1, ← hcf.2, hf] at hnew
      cases hnew
  | fileFree size _ _ =>
    dsimp only
    rw [files_setFile, if_neg]
    · exact hf
    · exact fun hcf => hop ⟨hcf.1.symm, hcf.2.symm⟩
  | fileSetCtx ctx _ _ =>
    dsimp only
    rw [files_setFile, if_neg]
    · exact hf
    · exact fun hcf => hop ⟨hcf.1.symm, hcf.2.symm⟩

theorem files_call (h : Tracks cfg s) {op : ClientCall κ} {data : FileData κ}
    (hf : s.files c f = some data) (hop : ¬ op.Touches c f) :
    (s.call op).files c f = some data := by
  cases op with
  | change op => exact h.files_exec hf hop
  | getCtx c' f' => rwa [call_getCtx]
  | getSize c' f' => rwa [call_getSize]

end Tracks

/-- After every run the calls answer as a map of the outstanding files, and a call changes
nothing of a file that it does not name. -/
theorem manager_is_file_map {m : ClientMngr κ} {heap heap' : Heap}
    (hc : (clientMngrCreate cfg).run heap = .ok m heap')
    (hr : Reach (fun _ _ => True) call (start m) s) :
    s.AnswersAsMap ∧ ∀ op c f data, s.files c f = some data → ¬ op.Touches c f →
      (s.call op).files c f = some data := by
  have hboth := hr.invariant (fun s => Tracks cfg s ∧ FilesInRange cfg s)
    ⟨.start (clientMngrCreate_ok hc), fun _ _ hf => absurd rfl hf⟩
    fun s op h _ => call_invariant h op
  exact ⟨hboth.1.answersAsMap hboth.2, fun _ _ _ _ => hboth.1.files_call⟩

theorem manager_is_file_map_two : ∃ m : ClientMngr ℕ, ∃ heap,
    (clientMngrCreate ⟨2, 2⟩).run ⟨fun _ => true, 0, []⟩ = .ok m heap ∧
      (((start m).call (.change (.fileAllocate 0 5))).call
        (.change (.fileSetCtx 0 0 (some 7)))).AnswersAsMap := by
  obtain ⟨m, heap, hc⟩ : ∃ m : ClientMngr ℕ, ∃ heap,
      (clientMngrCreate ⟨2, 2⟩).run ⟨fun _ => true, 0, []⟩ = .ok m heap := ⟨_, _, rfl⟩
  have hr : Reach (fun _ _ => True) call (start m)
      ((start m).call (.change (.fileAllocate 0 5))) := .step .start _ trivial
  exact ⟨m, heap, hc, (manager_is_file_map hc (hr.step _ trivial)).1⟩

end ClientSession
end FileTransfer
