import FileTransfer.ClientsManager.Manager
import FileTransfer.Infra.IdPoolLifo

/-! What `client_mngr_create` makes, and where it places the files of a client. -/
namespace FileTransfer

def ClientMngrCfg.clientsPool (cfg : ClientMngrCfg) : IdPoolCfg := ⟨cfg.clientsCapacity, 0⟩
def ClientMngrCfg.filesPool (cfg : ClientMngrCfg) : IdPoolCfg := ⟨cfg.filesCapacity, 0⟩

/-- A manager as `client_mngr_create` leaves it. -/
structure ClientMngr.New {κ : Type} (cfg : ClientMngrCfg) (m : ClientMngr κ) : Prop where
  maxClients : m.maxClients = cfg.clientsCapacity
  maxFiles : m.maxFiles = cfg.filesCapacity
  clients_ne : cfg.clientsCapacity ≠ 0
  files_ne : cfg.filesCapacity ≠ 0
  clientsIdPool : IdPool.Rep cfg.clientsPool m.clientsIdPool cfg.clientsPool.ids
  filesIdPool : ∀ c < cfg.clientsCapacity,
    IdPool.Rep cfg.filesPool (m.clientsData c).filesIdPool cfg.filesPool.ids
  filesAddr : ∀ c, (m.clientsData c).filesAddr = filesDataAddr cfg c
  file : ∀ c f, m.file c f = ⟨0, none⟩
  inUse : ∀ c, (m.clientsData c).inUse = false

section Create
variable {κ : Type} {heap heap' : Heap}

theorem idPoolCreate_capacity_ne {cfg : IdPoolCfg} {pool : IdPool}
    (h : (idPoolCreate cfg).run heap = .ok pool heap') : cfg.capacity ≠ 0 := by
  intro hz
  unfold idPoolCreate at h
  rw [if_pos hz] at h
  cases h

theorem createFilesIdPools_ok {cfg : IdPoolCfg} {rounds : ℕ} {pools pools' : List IdPool}
    (h : (createFilesIdPools cfg rounds pools).run heap = .ok pools' heap')
    (hpools : ∀ pool ∈ pools, IdPool.Rep cfg pool cfg.ids) :
    pools'.length = pools.length + rounds ∧ (∀ pool ∈ pools', IdPool.Rep cfg pool cfg.ids) ∧
      (0 < rounds → cfg.capacity ≠ 0) := by
  induction rounds generalizing pools heap with
  | zero =>
    cases h
    exact ⟨rfl, hpools, fun h0 => absurd h0 (lt_irrefl 0)⟩
  | succ rounds ih =>
    rcases attempt_bind_ok h with ⟨pool, s, hc, h⟩ | ⟨e, s, -, h⟩
    · have hpools' : ∀ p ∈ pools ++ [pool], IdPool.Rep cfg p cfg.ids := by
        intro p hp
        rcases List.mem_append.mp hp with hp | hp
        · exact hpools p hp
        · rw [List.mem_singleton.mp hp]
          exact idPoolCreate_ok hc
      obtain ⟨hlen, hall, -⟩ := ih h hpools'
      refine ⟨?_, hall, fun _ => idPoolCreate_capacity_ne hc⟩
      rw [hlen, List.length_append, List.length_singleton]
      omega
    · simp only [EStateM.run_bind] at h
      split at h <;> cases h

theorem clientMngrCreate_ok {cfg : ClientMngrCfg} {m : ClientMngr κ}
    (h : (clientMngrCreate cfg).run heap = .ok m heap') : m.New cfg := by
  rcases request_bind_ok h with ⟨addr, s, h⟩ | ⟨s, h⟩
  · rcases attempt_bind_ok h with ⟨clientsIdPool, s, hclients, h⟩ | ⟨e, s, -, h⟩
    · rcases attempt_bind_ok h with ⟨pools, s, hfiles, h⟩ | ⟨e, s, -, h⟩
      · cases h
        have hne := idPoolCreate_capacity_ne hclients
        obtain ⟨hlen, hall, hfne⟩ := createFilesIdPools_ok hfiles (fun _ hp => nomatch hp)
        have hpos : 0 < cfg.clientsCapacity.toNat := Nat.pos_of_ne_zero fun h0 =>
          hne (UInt32.toNat_inj.mp h0)
        rw [List.length_nil, Nat.zero_add] at hlen
        refine ⟨rfl, rfl, hne, hfne hpos, idPoolCreate_ok hclients, ?_, fun _ => rfl,
          fun _ _ => rfl, fun _ => rfl⟩
        intro c hc
        have hlt : c.toNat < pools.length := by
          rw [hlen]
          exact UInt32.lt_iff_toNat_lt.mp hc
        show IdPool.Rep cfg.filesPool (pools.getD c.toNat clientsIdPool) cfg.filesPool.ids
        rw [List.getD_eq_getElem _ _ hlt]
        exact hall _ (List.getElem_mem hlt)
      · cases h
    · cases h
  · cases h

end Create
/-! ### The layout of the manager's memory -/

/-- Two ranges of bytes that do not meet. -/
def Apart (a n b k : ℕ) : Prop := a + n ≤ b ∨ b + k ≤ a

/-- Every file entry lies inside the memory of the manager, apart from its header, from the
entries of the clients and from the other file entries. -/
def ClientMngr.LaidOut {κ : Type} (cfg : ClientMngrCfg) (m : ClientMngr κ) : Prop :=
  ∀ c < m.maxClients, ∀ f < m.maxFiles,
    m.getFileData c f + sizeofFileData.toNat ≤ clientMngrTotalSize cfg ∧
    Apart (m.getFileData c f) sizeofFileData.toNat 0 sizeofClientMngr.toNat ∧
    (∀ c' < m.maxClients, Apart (m.getFileData c f) sizeofFileData.toNat
      (sizeofClientMngr.toNat + sizeofClientData.toNat * c'.toNat) sizeofClientData.toNat) ∧
    ∀ c' < m.maxClients, ∀ f' < m.maxFiles, (c', f') ≠ (c, f) →
      Apart (m.getFileData c f) sizeofFileData.toNat (m.getFileData c' f') sizeofFileData.toNat

section Layout
variable {κ : Type} {cfg : ClientMngrCfg} {m : ClientMngr κ}

theorem ClientMngr.New.getFileData_eq (h : m.New cfg) (c f : UInt32) :
    m.getFileData c f = 16 + (clientsDataSize cfg).toNat + 16 * (c * cfg.filesCapacity).toNat +
      16 * f.toNat := by
  rw [ClientMngr.getFileData, h.filesAddr]
  rfl

theorem clientMngrTotalSize_le (cfg : ClientMngrCfg) :
    clientMngrTotalSize cfg ≤ 16 + (clientsDataSize cfg).toNat + 16 * cfg.filesCapacity.toNat := by
  have h1 := Nat.mod_le ((clientMngrBaseSize + clientsDataSize cfg).toNat + (filesDataSize cfg).toNat)
    (2 ^ 32)
  have h2 := Nat.mod_le (clientMngrBaseSize.toNat + (clientsDataSize cfg).toNat) (2 ^ 32)
  have h3 := Nat.mod_le (cfg.filesCapacity.toNat * sizeofFileData.toNat) (2 ^ 32)
  have hbase : clientMngrBaseSize.toNat = 16 := rfl
  have hfile : sizeofFileData.toNat = 16 := rfl
  rw [← UInt32.toNat_add] at h1 h2
  rw [← UInt32.toNat_mul, hfile] at h3
  unfold clientMngrTotalSize
  unfold filesDataSize at h1 ⊢
  omega

/-- With one client nothing wraps as long as the sum of the sizes fits 32 bits. -/
theorem clientMngrTotalSize_eq (hc : cfg.clientsCapacity = 1)
    (hf : 40 + 16 * cfg.filesCapacity.toNat < 2 ^ 32) :
    clientMngrTotalSize cfg = 40 + 16 * cfg.filesCapacity.toNat := by
  have hbase : (clientMngrBaseSize + clientsDataSize cfg).toNat = 40 := by
    rw [clientsDataSize, hc]
    rfl
  have hfiles : (filesDataSize cfg).toNat = 16 * cfg.filesCapacity.toNat := by
    rw [filesDataSize, UInt32.toNat_mul, show sizeofFileData.toNat = 16 from rfl,
      Nat.mod_eq_of_lt (by omega), mul_comm]
  rw [clientMngrTotalSize, UInt32.toNat_add, hbase, hfiles, Nat.mod_eq_of_lt hf]

theorem ClientMngr.New.laidOut (h : m.New cfg) (hc : cfg.clientsCapacity = 1)
    (hf : 40 + 16 * cfg.filesCapacity.toNat < 2 ^ 32) : m.LaidOut cfg := by
  have hclients : (clientsDataSize cfg).toNat = 24 := by
    rw [clientsDataSize, hc]
    rfl
  have hzero : ∀ c, c < m.maxClients → c = 0 := by
    intro c hlt
    rw [h.maxClients, hc, UInt32.lt_iff_toNat_lt, UInt32.toNat_one, Nat.lt_one_iff] at hlt
    exact UInt32.toNat_inj.mp hlt
  have hentry : ∀ f, m.getFileData 0 f = 40 + 16 * f.toNat := by
    intro f
    rw [h.getFileData_eq, hclients, UInt32.zero_mul]
    rfl
  have hfile : sizeofFileData.toNat = 16 := rfl
  have hheader : sizeofClientMngr.toNat = 16 := rfl
  have hclient : sizeofClientData.toNat = 24 := rfl
  intro c hclt f hflt
  rw [hzero c hclt, hentry, clientMngrTotalSize_eq hc hf, hfile, hheader, hclient]
  rw [h.maxFiles, UInt32.lt_iff_toNat_lt] at hflt
  unfold Apart
  refine ⟨by omega, by omega, ?_, ?_⟩
  · intro c' hc'
    rw [hzero c' hc']
    exact Or.inr (Nat.le_add_right 40 _)
  · intro c' hc' f' _ hne
    rw [hzero c' hc'] at hne ⊢
    have hff : f'.toNat ≠ f.toNat := fun he => hne (by rw [UInt32.toNat_inj.mp he])
    rw [hentry]
    omega

/-- The entries are laid out as intended for a single client only. -/
theorem files_laid_out_iff {heap heap' : Heap}
    (hc : (clientMngrCreate cfg).run heap = .ok m heap') : m.LaidOut cfg ↔
      cfg.clientsCapacity = 1 ∧ 40 + 16 * cfg.filesCapacity.toNat < 2 ^ 32 := by
  have h := clientMngrCreate_ok hc
  have hfile : sizeofFileData.toNat = 16 := rfl
  have hcpos : 0 < cfg.clientsCapacity.toNat :=
    Nat.pos_of_ne_zero fun h0 => h.clients_ne (UInt32.toNat_inj.mp h0)
  have hfpos : 0 < cfg.filesCapacity.toNat :=
    Nat.pos_of_ne_zero fun h0 => h.files_ne (UInt32.toNat_inj.mp h0)
  constructor
  · intro hlaid
    have hone : cfg.clientsCapacity = 1 := by
      -- the first entry of a second client would start where the memory ends
      by_contra hne
      have htwo : 1 < cfg.clientsCapacity.toNat := by
        have : cfg.clientsCapacity.toNat ≠ 1 := fun h1 => hne (UInt32.toNat_inj.mp h1)
        omega
      have hin := (hlaid 1 (by rw [h.maxClients, UInt32.lt_iff_toNat_lt]; exact htwo) 0
        (by rw [h.maxFiles, UInt32.lt_iff_toNat_lt]; exact hfpos)).1
      have htotal := clientMngrTotalSize_le cfg
      rw [h.getFileData_eq, UInt32.one_mul, hfile] at hin
      omega
    refine ⟨hone, ?_⟩
    have hlast : (cfg.filesCapacity - 1).toNat = cfg.filesCapacity.toNat - 1 := by
      have hle : (1 : UInt32) ≤ cfg.filesCapacity := UInt32.le_iff_toNat_le.mpr hfpos
      rw [UInt32.toNat_sub_of_le _ _ hle, UInt32.toNat_one]
    have hin := (hlaid 0 (by rw [h.maxClients, UInt32.lt_iff_toNat_lt]; exact hcpos)
      (cfg.filesCapacity - 1) (by rw [h.maxFiles, UInt32.lt_iff_toNat_lt, hlast]; omega)).1
    have hclients : (clientsDataSize cfg).toNat = 24 := by
      rw [clientsDataSize, hone]
      rfl
    have htotal : clientMngrTotalSize cfg < 2 ^ 32 := UInt32.toNat_lt _
    rw [h.getFileData_eq, hclients, UInt32.zero_mul, hlast, hfile, UInt32.toNat_zero] at hin
    omega
  · intro hcond
    exact h.laidOut hcond.1 hcond.2

theorem files_laid_out_iff_single : ∃ m : ClientMngr ℕ, ∃ heap,
    (clientMngrCreate ⟨1, 4⟩).run ⟨fun _ => true, 0, []⟩ = .ok m heap ∧ m.LaidOut ⟨1, 4⟩ := by
  obtain ⟨m, heap, hc⟩ : ∃ m : ClientMngr ℕ, ∃ heap,
      (clientMngrCreate ⟨1, 4⟩).run ⟨fun _ => true, 0, []⟩ = .ok m heap := ⟨_, _, rfl⟩
  exact ⟨m, heap, hc, (files_laid_out_iff hc).mpr (by decide)⟩

/-- Two clients with one file each: the second file lies behind the memory that was asked for. -/
theorem files_not_laid_out : ∃ m : ClientMngr ℕ, ∃ heap,
    (clientMngrCreate ⟨2, 1⟩).run ⟨fun _ => true, 0, []⟩ = .ok m heap ∧
      clientMngrTotalSize ⟨2, 1⟩ = 80 ∧ m.getFileData 1 0 = 80 ∧ ¬ m.LaidOut ⟨2, 1⟩ := by
  obtain ⟨m, heap, hc, hm, hf, hentry⟩ : ∃ m : ClientMngr ℕ, ∃ heap,
      (clientMngrCreate ⟨2, 1⟩).run ⟨fun _ => true, 0, []⟩ = .ok m heap ∧
        1 < m.maxClients ∧ 0 < m.maxFiles ∧ m.getFileData 1 0 = 80 :=
    ⟨_, _, rfl, by decide, by decide, rfl⟩
  have htotal : clientMngrTotalSize ⟨2, 1⟩ = 80 := rfl
  refine ⟨m, heap, hc, htotal, hentry, fun hlaid => ?_⟩
  have hin := (hlaid 1 hm 0 hf).1
  rw [htotal, hentry] at hin
  exact absurd hin (by decide)

end Layout
end FileTransfer
