import FileTransfer.ClientsManager.Session

/-! Files without a client and contexts without a file. The client manager does not test that
the client of a new file is allocated, nor that the file of a context is outstanding; its
callers have to. -/
namespace FileTransfer
open Run

namespace ClientSession
variable {κ : Type} {cfg : ClientMngrCfg} {s : ClientSession κ}

/-- New files are for allocated clients, and contexts are for outstanding files. Ids that the
code itself refuses are not restricted. -/
def Careful (s : ClientSession κ) : ClientOp κ → Prop
  | .fileAllocate c _ => c < s.mngr.maxClients → s.clients c = true
  | .fileSetCtx c f ctx =>
    ctx ≠ none → c < s.mngr.maxClients → f < s.mngr.maxFiles → s.files c f ≠ none
  | _ => True

/-- An outstanding file has an allocated client, and a context has an outstanding file. -/
structure NoOrphans (s : ClientSession κ) : Prop where
  client : ∀ c f, s.files c f ≠ none → s.clients c = true ∧
    (s.mngr.clientsData c).inUse = true ∧ s.mngr.clientsIdPool.inUse c.toNat = true
  ctx : ∀ c f, (s.mngr.file c f).ctx ≠ none → s.files c f ≠ none

/-- The flags follow from the return codes. -/
theorem Tracks.noOrphans (h : Tracks cfg s) (hclient : ∀ c f, s.files c f ≠ none → s.clients c = true)
    (hctx : ∀ c f, (s.mngr.file c f).ctx ≠ none → s.files c f ≠ none) : s.NoOrphans := by
  refine ⟨fun c f hf => ?_, hctx⟩
  have hc : c ∈ s.allocated := hclient c f hf
  have hflag := h.clientsIdPool.inUse hc
  rw [show cfg.clientsPool.idStartOffset = 0 from rfl, UInt32.sub_zero] at hflag
  refine ⟨hc, ?_, hflag⟩
  rw [h.inUse]
  exact hc

theorem NoOrphans.no_files (h : s.NoOrphans) {c : UInt32} (hc : s.clients c = false) (f : UInt32) :
    s.files c f = none := by
  by_contra hf
  have := (h.client c f hf).1
  rw [hc] at this
  cases this

/-- A client comes or goes, but none that has files goes. -/
theorem NoOrphans.setClient (h : s.NoOrphans) {m : ClientMngr κ} {c : UInt32} {allocated : Bool}
    (ht : Tracks cfg (s.setClient m c allocated)) (hfile : m.file = s.mngr.file)
    (hfiles : allocated = false → ∀ f, s.files c f = none) :
    (s.setClient m c allocated).NoOrphans := by
  apply ht.noOrphans
  · intro c' f hf
    have hf' : s.files c' f ≠ none := hf
    have hclient := (h.client c' f hf').1
    dsimp only [ClientSession.setClient]
    rw [Function.update_apply]
    by_cases hc : c' = c
    · rw [if_pos hc]
      by_contra hgone
      exact hf' (hc ▸ hfiles (Bool.not_eq_true _ ▸ hgone) f)
    · rwa [if_neg hc]
  · intro c' f hctx
    dsimp only [ClientSession.setClient] at hctx ⊢
    rw [hfile] at hctx
    exact h.ctx c' f hctx

/-- A file comes or goes or changes, and its stored entry with it. -/
theorem NoOrphans.setFile (h : s.NoOrphans) {m : ClientMngr κ} {c f : UInt32}
    {data : Option (FileData κ)} {stored : FileData κ} (ht : Tracks cfg (s.setFile m c f data))
    (hfile : m.file = (s.mngr.setFile c f stored).file)
    (hclient : data ≠ none → s.clients c = true) (hctx : stored.ctx ≠ none → data ≠ none) :
    (s.setFile m c f data).NoOrphans := by
  have hmngr : (s.setFile m c f data).mngr = m := rfl
  apply ht.noOrphans
  · intro c' f' hf
    have hclients : (s.setFile m c f data).clients = s.clients := rfl
    rw [files_setFile] at hf
    rw [hclients]
    by_cases hcf : c' = c ∧ f' = f
    · rw [if_pos hcf] at hf
      rw [hcf.1]
      exact hclient hf
    · rw [if_neg hcf] at hf
      exact (h.client c' f' hf).1
  · intro c' f' hc
    rw [hmngr, hfile, ClientMngr.file_setFile] at hc
    rw [files_setFile]
    by_cases hcf : c' = c ∧ f' = f
    · rw [if_pos hcf] at hc ⊢
      exact hctx hc
    · rw [if_neg hcf] at hc ⊢
      exact h.ctx c' f' hc

/-- A careful operation makes no orphan. -/
theorem NoOrphans.step (h : s.NoOrphans) (ht : Tracks cfg s) {op : ClientOp κ}
    (hop : s.Careful op) : (s.exec op).NoOrphans := by
  obtain ⟨ht', heffect⟩ := ht.step op
  unfold exec
  generalize s.step op = r at ht' heffect ⊢
  cases heffect with
  | refused e _ => exact h
  | allocate hnew hfile => exact h.setClient ht' hfile fun htrue => nomatch htrue
  | @free c m hnone hfile =>
    apply h.setClient ht' hfile
    intro _ f
    have hnotin : f ∉ s.outstanding c := by
      rw [hnone]
      exact Set.notMem_empty f
    exact Option.not_isSome_iff_eq_none.mp hnotin
  | fileAllocate size hc hnew hfile =>
    apply h.setFile ht' hfile
    · exact fun _ => hop (ht.maxClients ▸ hc)
    · exact fun hctx => absurd rfl hctx
  | fileFree size hold hfile =>
    apply h.setFile ht' hfile
    · exact fun hnone => absurd rfl hnone
    · exact fun hctx => absurd rfl hctx
  | fileFreeRefused e hnone hctx hfile =>
    dsimp only at ht' ⊢
    rw [← setFile_none hnone] at ht' ⊢
    apply h.setFile ht' hfile
    · exact fun hne => absurd rfl hne
    · exact fun hne => absurd rfl hne
  | @fileSetCtx c f ctx hc hf =>
    apply h.setFile ht' rfl
    · rw [ne_eq, Option.map_eq_none_iff]
      exact fun hne => (h.client c f hne).1
    · rw [ne_eq, ne_eq, Option.map_eq_none_iff]
      exact fun hne => hop hne (ht.maxClients ▸ hc) (ht.maxFiles ▸ hf)

/-- Any other operation makes one. -/
theorem NoOrphans.careful_of_step (h : s.NoOrphans) (ht : Tracks cfg s)
    (hne : cfg.filesCapacity ≠ 0) {op : ClientOp κ} (hexec : (s.exec op).NoOrphans) :
    s.Careful op := by
  obtain ⟨-, heffect⟩ := ht.step op
  unfold exec at hexec
  cases op with
  | allocate => trivial
  | free c => trivial
  | fileFree c f => trivial
  | fileAllocate c size =>
    intro hc
    rw [ht.maxClients] at hc
    by_contra hclient
    have hnone := h.no_files (Bool.not_eq_true _ ▸ hclient)
    generalize s.step (.fileAllocate c size) = r at heffect hexec
    cases heffect with
    | refused e hfull =>
      have hzero : (0 : UInt32) < cfg.filesCapacity := UInt32.pos_iff_ne_zero.mpr hne
      have hin : (s.files c 0).isSome = true := hfull hc 0 hzero
      rw [hnone] at hin
      cases hin
    | @fileAllocate _ f m _ hc hnew hfile =>
      refine hclient (hexec.client c f ?_).1
      dsimp only
      rw [files_setFile, if_pos ⟨rfl, rfl⟩]
      exact fun hsome => nomatch hsome
  | fileSetCtx c f ctx =>
    intro hctx hc hf
    rw [ht.maxClients] at hc
    rw [ht.maxFiles] at hf
    generalize s.step (.fileSetCtx c f ctx) = r at heffect hexec
    cases heffect with
    | refused e hout => exact absurd ⟨hc, hf⟩ hout
    | fileSetCtx _ _ _ =>
      have hfile := hexec.ctx c f
      dsimp only [ClientSession.setFile] at hfile
      rw [ClientMngr.file_setFile, if_pos ⟨rfl, rfl⟩, Function.update_self, Function.update_self]
        at hfile
      intro hnone
      refine hfile hctx ?_
      rw [hnone]
      rfl

theorem tracks_of_reach {ok : ClientSession κ → ClientOp κ → Prop} {m : ClientMngr κ}
    {heap heap' : Heap} (hc : (clientMngrCreate cfg).run heap = .ok m heap')
    (hr : Reach ok exec (start m) s) : Tracks cfg s := by
  apply hr.invariant (Tracks cfg) (.start (clientMngrCreate_ok hc))
  intro s op h _
  exact (h.step op).1

theorem NoOrphans.start {m : ClientMngr κ} (h : m.New cfg) : (start m).NoOrphans where
  client := fun _ _ hf => absurd rfl hf
  ctx := fun c f hctx => absurd (congrArg FileData.ctx (h.file c f)) hctx

/-- While the operations are careful there are no orphans; then a new client has no files and
no context is lost when a file is allocated. The first careless operation makes an orphan. -/
theorem no_orphan_files {m : ClientMngr κ} {heap heap' : Heap}
    (hc : (clientMngrCreate cfg).run heap = .ok m heap') (hr : Reach Careful exec (start m) s) :
    s.NoOrphans ∧
    (∀ c, (s.step .allocate).1 = .ok (some c) → ∀ f, (s.exec .allocate).files c f = none) ∧
    (∀ c size c' f', (s.mngr.file c' f').ctx ≠ none →
      (s.exec (.fileAllocate c size)).mngr.file c' f' = s.mngr.file c' f') ∧
    ∀ op, s.Careful op ↔ (s.exec op).NoOrphans := by
  have hnew := clientMngrCreate_ok hc
  have ht := tracks_of_reach hc hr
  have h : s.NoOrphans := by
    have hboth := hr.invariant (fun s => Tracks cfg s ∧ s.NoOrphans)
      ⟨.start hnew, .start hnew⟩ fun s op h hop => ⟨(h.1.step op).1, h.2.step h.1 hop⟩
    exact hboth.2
  refine ⟨h, ?_, ?_, fun op => ⟨h.step ht, h.careful_of_step ht hnew.files_ne⟩⟩
  · intro c hstep f
    obtain ⟨-, heffect⟩ := ht.step .allocate
    unfold exec
    generalize s.step .allocate = r at heffect hstep
    cases heffect with
    | refused e _ => cases hstep
    | allocate hfresh _ =>
      cases hstep
      exact h.no_files hfresh f
  · intro c size c' f' hctx
    obtain ⟨-, heffect⟩ := ht.step (.fileAllocate c size)
    unfold exec
    generalize s.step (.fileAllocate c size) = r at heffect
    cases heffect with
    | refused e _ => rfl
    | @fileAllocate _ f m _ _ hfresh hfile =>
      dsimp only [ClientSession.setFile]
      rw [hfile, ClientMngr.file_setFile, if_neg]
      rintro ⟨rfl, rfl⟩
      exact h.ctx _ _ hctx hfresh

theorem no_orphan_files_two : ∃ m : ClientMngr ℕ, ∃ heap,
    (clientMngrCreate ⟨2, 2⟩).run ⟨fun _ => true, 0, []⟩ = .ok m heap ∧
      (((start m).exec .allocate).exec (.fileAllocate 0 5)).NoOrphans := by
  obtain ⟨m, heap, hc, hcareful⟩ : ∃ m : ClientMngr ℕ, ∃ heap,
      (clientMngrCreate ⟨2, 2⟩).run ⟨fun _ => true, 0, []⟩ = .ok m heap ∧
        ((start m).exec .allocate).Careful (.fileAllocate 0 5) := ⟨_, _, rfl, fun _ => rfl⟩
  have hr : Reach Careful exec (start m) ((start m).exec .allocate) := .step .start _ trivial
  exact ⟨m, heap, hc, (no_orphan_files hc (hr.step _ hcareful)).1⟩

/-- A file for a client that was never allocated, and a context for a file that was never
allocated, which is lost when the file is. -/
theorem orphans_reached : ∃ m : ClientMngr ℕ, ∃ heap,
    (clientMngrCreate ⟨1, 1⟩).run ⟨fun _ => true, 0, []⟩ = .ok m heap ∧
      (∃ s, Reach (fun _ _ => True) exec (start m) s ∧ ¬ s.NoOrphans) ∧
      ∃ s, Reach (fun _ _ => True) exec (start m) s ∧ (s.mngr.file 0 0).ctx = some 7 ∧
        ((s.exec (.fileAllocate 0 5)).mngr.file 0 0).ctx = none := by
  obtain ⟨m, heap, hc, hclients, hfiles, hold, hlost⟩ : ∃ m : ClientMngr ℕ, ∃ heap,
      (clientMngrCreate ⟨1, 1⟩).run ⟨fun _ => true, 0, []⟩ = .ok m heap ∧
        ((start m).exec (.fileAllocate 0 5)).clients 0 = false ∧
        (((start m).exec (.fileAllocate 0 5)).files 0 0).isSome = true ∧
        (((start m).exec (.fileSetCtx 0 0 (some 7))).mngr.file 0 0).ctx = some 7 ∧
        ((((start m).exec (.fileSetCtx 0 0 (some 7))).exec (.fileAllocate 0 5)).mngr.file 0 0).ctx =
          none :=
    ⟨_, _, rfl, by decide +kernel, by decide +kernel, by decide +kernel, by decide +kernel⟩
  have hreach : ∀ op, Reach (fun _ _ => True) exec (start m) ((start m).exec op) := by
    intro op
    exact .step .start op trivial
  refine ⟨m, heap, hc, ⟨_, hreach (.fileAllocate 0 5), fun h => ?_⟩,
    _, hreach (.fileSetCtx 0 0 (some 7)), hold, hlost⟩
  have hclient := (h.client 0 0 (Option.isSome_iff_ne_none.mp hfiles)).1
  rw [hclients] at hclient
  cases hclient

end ClientSession
end FileTransfer
