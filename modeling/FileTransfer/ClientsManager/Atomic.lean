import FileTransfer.ClientsManager.Session

/-! A call that returns an error leaves the client manager as it was. Two of the functions
write before the id pool may still refuse the id: what they write is there already. -/
namespace FileTransfer
open Run

namespace ClientSession
variable {κ : Type} {cfg : ClientMngrCfg} {s : ClientSession κ} {c f : UInt32}

/-- A file that is not outstanding has size zero. -/
def SizesCleared (s : ClientSession κ) : Prop :=
  ∀ c f, s.files c f = none → (s.mngr.file c f).fileSize = 0

theorem SizesCleared.setClient (h : SizesCleared s) {m : ClientMngr κ} {c : UInt32}
    {allocated : Bool} (hfile : m.file = s.mngr.file) :
    SizesCleared (s.setClient m c allocated) := by
  intro c' f' hnone
  change (m.file c' f').fileSize = 0
  rw [hfile]
  exact h c' f' hnone

theorem SizesCleared.setFile (h : SizesCleared s) {m : ClientMngr κ} {c f : UInt32}
    {data : Option (FileData κ)} {stored : FileData κ}
    (hfile : m.file = (s.mngr.setFile c f stored).file)
    (hstored : data = none → stored.fileSize = 0) : SizesCleared (s.setFile m c f data) := by
  intro c' f' hnone
  change (m.file c' f').fileSize = 0
  rw [files_setFile] at hnone
  rw [hfile, ClientMngr.file_setFile]
  by_cases hcf : c' = c ∧ f' = f
  · rw [if_pos hcf] at hnone ⊢
    exact hstored hnone
  · rw [if_neg hcf] at hnone ⊢
    exact h c' f' hnone

/-- Every operation keeps the sizes cleared. -/
theorem SizesCleared.exec (h : SizesCleared s) (ht : Tracks cfg s) (op : ClientOp κ) :
    SizesCleared (s.exec op) := by
  obtain ⟨-, heffect⟩ := ht.step op
  unfold ClientSession.exec
  generalize s.step op = r at heffect ⊢
  cases heffect with
  | refused e _ => exact h
  | allocate _ hfile => exact h.setClient hfile
  | free _ hfile => exact h.setClient hfile
  | fileAllocate size _ _ hfile => exact h.setFile hfile fun hnone => nomatch hnone
  | fileFree size _ hfile => exact h.setFile hfile fun _ => rfl
  | fileFreeRefused e hnone _ hfile =>
    rw [← setFile_none hnone]
    exact h.setFile hfile fun _ => rfl
  | @fileSetCtx c f ctx _ _ =>
    apply h.setFile rfl
    intro hnone
    exact h c f (Option.map_eq_none_iff.mp hnone)

/-- The entry that a refused `client_mngr_file_free` clears was clear before. -/
theorem fileFree_refused (h : Tracks cfg s) (hz : SizesCleared s)
    (hnone : s.files c f = none) (hctx : (s.mngr.file c f).ctx = none) :
    (s.step (.fileFree c f)).2.mngr = s.mngr := by
  by_cases hids : s.mngr.maxClients ≤ c ∨ s.mngr.maxFiles ≤ f
  · simp only [ClientSession.step, clientMngrFileFree_run, if_pos hids]
  have hc : c < cfg.clientsCapacity := (h.in_range_iff.mpr hids).1
  have hnotin : f ∉ s.outstanding c := by
    simp [outstanding, hnone]
  obtain ⟨e', hrun⟩ := (h.filesIdPool c hc).free_of_notMem hnotin (Tracks.no_wrap _)
  have hsome : ¬ (s.mngr.file c f).ctx.isSome = true := by
    rwa [Option.not_isSome_iff_eq_none]
  have hclear : s.mngr.file c f = { s.mngr.file c f with fileSize := 0 } := by
    rw [← hz c f hnone]
  simp only [ClientSession.step, clientMngrFileFree_run, if_neg hids, if_neg hsome, hrun,
    ClientMngr.setFile_eq_self hclear, ClientMngr.setFilesIdPool_eq_self]

theorem step_error (h : Tracks cfg s) (hz : SizesCleared s) {op : ClientOp κ} {e : Errno}
    (hstep : (s.step op).1 = .error e) : (s.step op).2.mngr = s.mngr := by
  obtain ⟨-, heffect⟩ := h.step op
  generalize hr : s.step op = r at heffect hstep ⊢
  cases heffect with
  | refused e _ => rfl
  | allocate _ _ => cases hstep
  | free _ _ => cases hstep
  | fileAllocate size _ _ _ => cases hstep
  | fileFree size _ _ => cases hstep
  | fileFreeRefused e hnone hctx _ =>
    rw [← hr]
    exact fileFree_refused h hz hnone hctx
  | fileSetCtx ctx _ _ => cases hstep

/-- After every run, an operation with any ids that fails leaves the pools, the flags and the
files of the manager as they were. -/
theorem errors_leave_no_trace {m : ClientMngr κ} {heap heap' : Heap}
    (hc : (clientMngrCreate cfg).run heap = .ok m heap')
    (hr : Reach (fun _ _ => True) exec (start m) s) (op : ClientOp κ) (e : Errno)
    (hstep : (s.step op).1 = .error e) : (s.step op).2.mngr = s.mngr := by
  have hnew := clientMngrCreate_ok hc
  have hboth := hr.invariant (fun s => Tracks cfg s ∧ SizesCleared s)
    ⟨.start hnew, fun c f _ => congrArg FileData.fileSize (hnew.file c f)⟩
    fun s op h _ => ⟨(h.1.step op).1, h.2.exec h.1 op⟩
  exact step_error hboth.1 hboth.2 hstep

/-- A file is freed twice. -/
theorem errors_leave_no_trace_twice : ∃ m : ClientMngr ℕ, ∃ heap, ∃ s : ClientSession ℕ,
    (clientMngrCreate ⟨2, 2⟩).run ⟨fun _ => true, 0, []⟩ = .ok m heap ∧
      s = ((start m).exec (.fileAllocate 0 5)).exec (.fileFree 0 0) ∧
      (s.step (.fileFree 0 0)).1 = .error .EALREADY ∧
      (s.step (.fileFree 0 0)).2.mngr = s.mngr := by
  obtain ⟨m, heap, hc, hstep⟩ : ∃ m : ClientMngr ℕ, ∃ heap,
      (clientMngrCreate ⟨2, 2⟩).run ⟨fun _ => true, 0, []⟩ = .ok m heap ∧
        ((((start m).exec (.fileAllocate 0 5)).exec (.fileFree 0 0)).step (.fileFree 0 0)).1 =
          .error .EALREADY := ⟨_, _, rfl, rfl⟩
  have hr : Reach (fun _ _ => True) exec (start m) ((start m).exec (.fileAllocate 0 5)) :=
    .step .start _ trivial
  have hr' := hr.step (.fileFree 0 0) trivial
  exact ⟨m, heap, _, hc, rfl, hstep, errors_leave_no_trace hc hr' _ _ hstep⟩

end ClientSession
end FileTransfer
