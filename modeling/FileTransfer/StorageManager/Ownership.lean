import FileTransfer.BuddyAllocator.Ownership
import FileTransfer.StorageManager.StoreMngr

/-! Which objects a storage manager owns, and when its creation and its destruction release all
of them. -/
namespace FileTransfer
open Heap

def RamFile.owned (f : RamFile) : Multiset ℕ := {f.file, f.filePath, f.addr}

def StoreMngr.owned (m : StoreMngr) : Multiset ℕ :=
  m.bAlloc.owned + (m.rFileCtrl.owned + {m.addr})

section Calls
variable {heap : Heap} {E : Option (Multiset ℕ)}

theorem RamFile.owned_add (f : RamFile) (F : Multiset ℕ) :
    f.owned + F = f.file ::ₘ f.filePath ::ₘ f.addr ::ₘ F := by
  simp only [owned, Multiset.insert_eq_cons, Multiset.cons_add, Multiset.singleton_add]

theorem ramFileCreate_accounts (stored : Option (List UInt8)) (cfg : RamFileCfg)
    (F : Multiset ℕ) :
    Accounts heap F (ramFileCreate stored cfg) (fun f => f.owned + F) (some F) := by
  unfold ramFileCreate
  apply Accounts.request_bind
  · intro _
    apply Accounts.request_bind
    · intro _
      apply Accounts.request_bind
      · intro _
        apply Accounts.pure
        rw [RamFile.owned_add]
      · apply Accounts.release_bind
        intro heap₁
        apply Accounts.release_bind
        intro heap₂
        exact .throw .EIOERR
    · apply Accounts.release_bind
      intro heap₁
      exact .throw .ENOMEM
  · exact .throw .ENOMEM

/-- The path is released with the file only if the file is deleted. -/
theorem ramFileDestroy_accounts (f : RamFile) (F : Multiset ℕ) (hdelete : f.deleteFiles = true) :
    Accounts heap (f.owned + F) (ramFileDestroy f) (fun _ => F) E := by
  unfold ramFileDestroy
  rw [RamFile.owned_add]
  apply Accounts.access_bind
  · simp
  intro heap₁
  apply Accounts.release_bind
  intro heap₂
  apply Accounts.access_bind
  · simp
  intro heap₃
  rw [if_pos hdelete]
  apply Accounts.access_bind
  · simp
  intro heap₄
  apply Accounts.release_bind
  intro heap₅
  exact .release

/-- Without its deletion the path of a file is left. -/
theorem ramFileDestroy_accounts_path (f : RamFile) (F : Multiset ℕ)
    (hdelete : f.deleteFiles = false) :
    Accounts heap (f.owned + F) (ramFileDestroy f) (fun _ => f.filePath ::ₘ F) E := by
  have howned : f.owned + F = f.file ::ₘ f.addr ::ₘ f.filePath ::ₘ F := by
    rw [RamFile.owned_add, Multiset.cons_swap f.filePath]
  unfold ramFileDestroy
  rw [howned]
  apply Accounts.access_bind
  · simp
  intro heap₁
  apply Accounts.release_bind
  intro heap₂
  apply Accounts.access_bind
  · simp
  intro heap₃
  rw [if_neg (by simp [hdelete])]
  exact .release

theorem storeMngrDestroy_accounts (m : StoreMngr) (F : Multiset ℕ)
    (hdelete : m.rFileCtrl.deleteFiles = true) :
    Accounts heap (m.owned + F) (storeMngrDestroy m) (fun _ => F) E := by
  unfold storeMngrDestroy StoreMngr.owned
  rw [Multiset.add_assoc, Multiset.add_assoc]
  apply Accounts.access_bind
  · simp
  intro heap₁
  apply (buddyAllocDestroy_accounts m.bAlloc _).bind
  intro _ heap₂ _
  apply Accounts.access_bind
  · simp
  intro heap₃
  apply (ramFileDestroy_accounts m.rFileCtrl _ hdelete).bind
  intro _ heap₄ _
  exact .release

def StoreMngrCfg.buddy (cfg : StoreMngrCfg) : BuddyAllocCfg :=
  ⟨cfg.totalSize, cfg.minimumBlockSize⟩

/-- The manager, its allocator and the pool are granted, and the slots of the pool are not. -/
def StoreMngrCfg.SlotsRefused (cfg : StoreMngrCfg) (heap : Heap) : Prop :=
  heap.grant heap.requests = true ∧ cfg.buddy.SlotsRefused heap.granted

theorem storeMngrCreate_accounts (stored : Option (List UInt8)) (cfg : StoreMngrCfg)
    (F : Multiset ℕ) (hok : ¬ cfg.SlotsRefused heap) :
    Accounts heap F (storeMngrCreate stored cfg) (fun m => m.owned + F) (some F) := by
  unfold storeMngrCreate
  apply Accounts.request_bind
  · intro hg
    have hbuddy := buddyAllocCreate_accounts cfg.buddy (heap.requests ::ₘ F)
      fun hrefused => hok ⟨hg, hrefused⟩
    apply hbuddy.attempt.bind
    intro r heap₁ _
    cases r with
    | error e =>
      apply Accounts.access_bind (Multiset.mem_cons_self _ _)
      intro heap₂
      apply Accounts.release_bind
      intro heap₃
      exact .throw e
    | ok bAlloc =>
      apply (ramFileCreate_accounts stored _ _).attempt.bind
      intro r heap₂ _
      cases r with
      | error e =>
        dsimp only
        apply Accounts.access_bind
        · simp
        intro heap₃
        apply (buddyAllocDestroy_accounts bAlloc _).bind
        intro _ heap₄ _
        apply Accounts.access_bind (Multiset.mem_cons_self _ _)
        intro heap₅
        apply Accounts.release_bind
        intro heap₆
        exact .throw e
      | ok rFileCtrl =>
        apply Accounts.pure
        dsimp only [StoreMngr.owned]
        rw [← Multiset.singleton_add]
        ac_rfl
  · exact .throw .ENOMEM

theorem storeMngrCreate_error (stored : Option (List UInt8)) {cfg : StoreMngrCfg} {e : Errno}
    {heap₁ : Heap} (hg : heap.grant heap.requests = true)
    (hb : (buddyAllocCreate cfg.buddy).run heap.granted = .error e heap₁) :
    (storeMngrCreate stored cfg).run heap = .error e
      { heap₁ with
        events := .release heap.requests :: .access heap.requests :: heap₁.events } := by
  have hb' : (buddyAllocCreate ⟨cfg.totalSize, cfg.minimumBlockSize⟩).run
      { heap with requests := heap.requests + 1, events := .alloc heap.requests :: heap.events } =
        .error e heap₁ := hb
  unfold storeMngrCreate
  simp only [EStateM.run_bind, request_run, if_pos hg, attempt_run, hb']
  rfl

/-- Without its slots the pool is read after its release, and released twice. -/
theorem storeMngrCreate_slotsRefused (stored : Option (List UInt8)) {cfg : StoreMngrCfg}
    (h : cfg.SlotsRefused heap) : ∃ e heap₁, (storeMngrCreate stored cfg).run heap =
      .error e heap₁ ∧ ¬ HeapEvent.Settled heap₁.events := by
  refine ⟨_, _, storeMngrCreate_error stored h.1 (buddyAllocCreate_slotsRefused h.2), ?_⟩
  intro hsettled
  have hclean : HeapEvent.Clean _ := hsettled.clean
  simp [HeapEvent.clean_release, HeapEvent.clean_access, HeapEvent.released, Lifetime.freed,
    HeapEvent.releases] at hclean

end Calls

/-- Creation and destruction release everything exactly if the request for the slots of the pool
is not the first one that is refused. -/
theorem creation_releases_all_iff (stored : Option (List UInt8)) (cfg : StoreMngrCfg)
    (grant : ℕ → Bool) (n : ℕ) :
    ReleasesAll (storeMngrCreate stored cfg) storeMngrDestroy ⟨grant, n, []⟩ ↔
      ¬ cfg.SlotsRefused ⟨grant, n, []⟩ := by
  constructor
  · intro hall hrefused
    obtain ⟨e, heap₁, hrun, hbad⟩ := storeMngrCreate_slotsRefused stored hrefused
    unfold ReleasesAll at hall
    rw [hrun] at hall
    exact hbad hall
  · intro hok
    apply (storeMngrCreate_accounts stored cfg 0 hok).releasesAll
    intro m heap₁ hrun
    obtain ⟨-, _, _, hfile⟩ := storeMngrCreate_parts hrun
    exact storeMngrDestroy_accounts m 0 (ramFileCreate_ok hfile).2.2

/-- The fourth request is refused: the pool, number two, is released twice. -/
theorem pool_released_twice : ∃ e heap,
    (storeMngrCreate none ⟨1024, 512⟩).run ⟨fun n => n != 3, 0, []⟩ = .error e heap ∧
      heap.events = [.release 0, .access 0, .release 1, .release 2, .access 2, .access 1,
        .release 2, .alloc 2, .alloc 1, .alloc 0] ∧
      ¬ ReleasesAll (storeMngrCreate none ⟨1024, 512⟩) storeMngrDestroy
        ⟨fun n => n != 3, 0, []⟩ := by
  obtain ⟨e, heap, hrun, hevents⟩ : ∃ e heap,
      (storeMngrCreate none ⟨1024, 512⟩).run ⟨fun n => n != 3, 0, []⟩ = .error e heap ∧
        heap.events = [.release 0, .access 0, .release 1, .release 2, .access 2, .access 1,
          .release 2, .alloc 2, .alloc 1, .alloc 0] := ⟨_, _, rfl, rfl⟩
  refine ⟨e, heap, hrun, hevents, ?_⟩
  intro hall
  unfold ReleasesAll at hall
  rw [hrun] at hall
  have hclean : HeapEvent.Clean heap.events := hall.clean
  rw [hevents] at hclean
  simp [HeapEvent.clean_release, HeapEvent.clean_access, HeapEvent.released, Lifetime.freed,
    HeapEvent.releases] at hclean

end FileTransfer
