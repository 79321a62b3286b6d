import FileTransfer.StorageManager.PoolStore

/-! Writes and reads through the handles of a storage manager over the words of its pool: which
writes leave the other blocks alone, and what is read back. -/
namespace FileTransfer.PoolMemory
open Run

namespace StoreSession
variable {elementsArray : Location} {stored : Option (List UInt8)} {cfg : StoreMngrCfg}
  {m : StoreMngr} {heap heap' : Heap} {s : StoreSession} {q : ℕ} {blk : StoreMngrBlock}
  {offset : UInt32} {data : StoreMngrData}

/-! ### Isolation -/

/-- No byte of the file in the block of another handle changes, and a write that would leave
the block of its own handle is refused. -/
structure Isolated (s : StoreSession) (q : ℕ) (blk : StoreMngrBlock) (offset : UInt32)
    (data : StoreMngrData) : Prop where
  others : ∀ q' blk', q' ≠ q → s.live q' = some blk' → ∀ x, s.mngr.InBlock blk' x →
    x < s.mngr.rFileCtrl.content.length →
    (s.exec (.blockWrite q offset data)).mngr.rFileCtrl.content[x]? =
      s.mngr.rFileCtrl.content[x]?
  refused : s.mngr.blockSize blk < offset.toNat + data.dataLen.toNat →
    ∃ e m, (storeMngrBlockWrite blk offset data).run s.mngr = .error e m

theorem Encodes.isolated_iff {A : Layout} {t : FileTransfer.StoreSession} {blk' : StoreMngrBlock}
    (h : Encodes A s t) (hlevels : 0 < A.levels) (hblk : SameHandle A (some blk) (some blk')) :
    s.Isolated q blk offset data ↔ t.Isolated q blk' offset data := by
  have hfile := h.mngr.rFileCtrl
  have hfile' := (h.exec hlevels (.blockWrite q offset data)).mngr.rFileCtrl
  have hagree := h.mngr.blockWrite_agree hblk offset data
  have hsize := h.mngr.blockSize_eq hblk
  constructor
  · rintro ⟨hothers, hrefused⟩
    refine ⟨fun q' blk₁ hne hq' x hx hlt => ?_, fun hout => ?_⟩
    · obtain ⟨blk₂, hq₂, hsame⟩ := h.live_some' hq'
      rw [← hfile] at hlt ⊢
      rw [← hfile']
      exact hothers q' blk₂ hne hq₂ x ((h.mngr.inBlock_iff hsame x).mpr hx) hlt
    · rw [← hsize] at hout
      obtain ⟨e, m, hrun⟩ := hrefused hout
      rw [hrun] at hagree
      obtain ⟨m', hrun', -⟩ := hagree.error_right
      exact ⟨e, m', hrun'⟩
  · rintro ⟨hothers, hrefused⟩
    refine ⟨fun q' blk₁ hne hq' x hx hlt => ?_, fun hout => ?_⟩
    · obtain ⟨blk₂, hq₂, hsame⟩ := h.live_some hq'
      rw [hfile] at hlt ⊢
      rw [hfile']
      exact hothers q' blk₂ hne hq₂ x ((h.mngr.inBlock_iff hsame x).mp hx) hlt
    · rw [hsize] at hout
      obtain ⟨e, m', hrun⟩ := hrefused hout
      rw [hrun] at hagree
      obtain ⟨m, hrun', -⟩ := hagree.error_left
      exact ⟨e, m, hrun'⟩

/-- A write is isolated as long as it ends inside of its block, or fails for another reason:
there is nothing to write, or the position, as the code computes it, leaves the whole pool. -/
theorem write_isolated_iff (hc : (storeMngrCreate elementsArray stored cfg).run heap = .ok m heap')
    (hfits : cfg.totalSize.toNat ≤ 2 ^ 26 * cfg.minimumBlockSize.toNat)
    (hr : Reach Usable exec (start m) s) (hq : s.live q = some blk)
    (hdata : ∀ bytes, data.data = some bytes → data.dataLen.toNat ≤ bytes.length) :
    s.Isolated q blk offset data ↔
      offset.toNat + data.dataLen.toNat ≤ s.mngr.blockSize blk ∨
      data.data = none ∨ data.dataLen.toNat = 0 ∨
      cfg.totalSize.toNat <
        (s.mngr.blockOffset blk + offset.toNat) % 2 ^ 32 + data.dataLen.toNat := by
  obtain ⟨S, A, m', ht, hlevels, henc, hstart⟩ := storeMngrCreate_encodes hc hfits
  obtain ⟨t, hr', ht'⟩ := hr.simulates
    (fun s t op h hop => ⟨op, h.usable hop, h.exec hlevels op⟩) henc
  obtain ⟨a, hshows⟩ := FileTransfer.StoreSession.shows_of_start hstart hr'
  obtain ⟨blk', hq', hblk⟩ := ht'.live_some hq
  rw [ht'.isolated_iff hlevels hblk, ht'.mngr.blockSize_eq hblk, ht'.mngr.blockOffset_eq hblk, ht,
    Shape.toNat_total]
  exact hshows.isolated_iff hq' hdata

/-- Beside a live block, after a write through it and the release of a third block, bytes up to the
end of a block are written. -/
theorem write_isolated_iff_inside : ∃ m heap s blk blk',
    (storeMngrCreate AllocSession.page none ⟨1024, 256⟩).run ⟨fun _ => true, 0, []⟩ = .ok m heap ∧
      Reach Usable exec (start m) s ∧ s.live 7 = some blk ∧ s.live 8 = some blk' ∧
      s.mngr.blockOffset blk = 0 ∧ s.mngr.blockOffset blk' = 256 ∧
      s.mngr.rFileCtrl.content[256]? = some 5 ∧ s.Isolated 7 blk 254 ⟨some [1, 2], 2⟩ := by
  let ops : List StoreOp := [.blockAlloc (some 7) 256, .blockAlloc (some 8) 200,
    .blockAlloc (some 9) 512, .blockWrite 8 0 ⟨some [5], 1⟩, .blockFree 9]
  obtain ⟨m, heap, s, hc, hr, hq, hq', hoffset, hoffset', hold, hin⟩ : ∃ m heap s,
      (storeMngrCreate AllocSession.page none ⟨1024, 256⟩).run ⟨fun _ => true, 0, []⟩ = .ok m heap ∧
        Reach Usable exec (start m) s ∧ s.live 7 = some ⟨7, 4168⟩ ∧ s.live 8 = some ⟨8, 4192⟩ ∧
        s.mngr.blockOffset ⟨7, 4168⟩ = 0 ∧ s.mngr.blockOffset ⟨8, 4192⟩ = 256 ∧
        s.mngr.rFileCtrl.content[256]? = some 5 ∧ 256 ≤ s.mngr.blockSize ⟨7, 4168⟩ :=
    AllocSession.exists_run ops (by decide +kernel)
  refine ⟨m, heap, s, _, _, hc, hr, hq, hq', hoffset, hoffset', hold, ?_⟩
  refine (write_isolated_iff hc (by decide) hr hq fun bytes he => ?_).mpr (Or.inl hin)
  rw [← Option.some.inj he]
  exact le_rfl

/-- Of two neighbouring blocks the first one is written behind its end, and the write succeeds
and changes the other block. -/
theorem write_not_isolated : ∃ m heap s blk blk',
    (storeMngrCreate AllocSession.page none ⟨1024, 512⟩).run ⟨fun _ => true, 0, []⟩ = .ok m heap ∧
      Reach Usable exec (start m) s ∧ s.live 7 = some blk ∧ s.live 8 = some blk' ∧
      s.mngr.InBlock blk' 512 ∧ s.mngr.rFileCtrl.content[512]? = some 5 ∧
      (s.exec (.blockWrite 7 512 ⟨some [1], 1⟩)).mngr.rFileCtrl.content[512]? = some 1 ∧
      ¬ s.Isolated 7 blk 512 ⟨some [1], 1⟩ := by
  let ops : List StoreOp := [.blockAlloc (some 7) 512, .blockAlloc (some 8) 512,
    .blockWrite 8 0 ⟨some [5], 1⟩]
  obtain ⟨m, heap, s, hc, hr, hq, hq', hin, hold, hnew⟩ : ∃ m heap s,
      (storeMngrCreate AllocSession.page none ⟨1024, 512⟩).run ⟨fun _ => true, 0, []⟩ = .ok m heap ∧
        Reach Usable exec (start m) s ∧ s.live 7 = some ⟨7, 4120⟩ ∧ s.live 8 = some ⟨8, 4144⟩ ∧
        s.mngr.InBlock ⟨8, 4144⟩ 512 ∧ s.mngr.rFileCtrl.content[512]? = some 5 ∧
        (s.exec (.blockWrite 7 512 ⟨some [1], 1⟩)).mngr.rFileCtrl.content[512]? = some 1 :=
    AllocSession.exists_run ops (by decide +kernel)
  refine ⟨m, heap, s, _, _, hc, hr, hq, hq', hin, hold, hnew, fun hiso => ?_⟩
  have hlt : 512 < s.mngr.rFileCtrl.content.length := (List.getElem?_eq_some_iff.mp hold).1
  have hsame := hiso.others 8 _ (by decide) hq' 512 hin hlt
  rw [hnew, hold] at hsame
  exact absurd hsame (by decide)

/-! ### What is read back -/

/-- In every state of a run whose accesses stay inside of their blocks, such a write succeeds, and
such a read of bytes that were written through its handle gives the byte written there last. -/
theorem stored_data_reads_back
    (hc : (storeMngrCreate elementsArray stored cfg).run heap = .ok m heap')
    (hfits : cfg.totalSize.toNat ≤ 2 ^ 26 * cfg.minimumBlockSize.toNat)
    (hr : Reach Tame exec (start m) s) (hq : s.live q = some blk) :
    (∀ offset data, s.Inside q offset data.dataLen data.data →
      ∃ m', (storeMngrBlockWrite blk offset data).run s.mngr = .ok () m') ∧
    ∀ offset readSize dataOut, s.Inside q offset readSize dataOut.data →
      (∀ i < readSize.toNat, s.written q (offset.toNat + i) ≠ none) →
      ∃ out m', (storeMngrBlockRead blk offset readSize dataOut).run s.mngr =
          .ok ⟨some out, readSize⟩ m' ∧
        ∀ i < readSize.toNat, out[i]? = s.written q (offset.toNat + i) := by
  obtain ⟨S, A, m', -, hlevels, henc, hstart⟩ := storeMngrCreate_encodes hc hfits
  obtain ⟨t, hr', ht'⟩ := hr.simulates
    (fun s t op h hop => ⟨op, h.tame hop, h.exec hlevels op⟩) henc
  obtain ⟨⟨a, hshows⟩, hkept⟩ := FileTransfer.StoreSession.kept_of_reach hstart hr'
  obtain ⟨blk', hq', hblk⟩ := ht'.live_some hq
  obtain ⟨hwrite, hread⟩ := hkept.reads_back hshows hq'
  constructor
  · intro offset data hin
    obtain ⟨m₁, hrun⟩ := hwrite offset data (ht'.inside_iff.mp hin)
    have hagree := ht'.mngr.blockWrite_agree hblk offset data
    rw [hrun] at hagree
    obtain ⟨_, m₂, hrun', -, -⟩ := hagree.exists_left
    exact ⟨m₂, hrun'⟩
  · intro offset readSize dataOut hin hwritten
    rw [ht'.written] at hwritten ⊢
    obtain ⟨out, hrun, hout⟩ := hread offset readSize dataOut (ht'.inside_iff.mp hin) hwritten
    have hagree := ht'.mngr.blockRead_agree hblk offset readSize dataOut
    rw [hrun] at hagree
    obtain ⟨_, m₂, hrun', -, rfl⟩ := hagree.exists_left
    exact ⟨out, m₂, hrun', hout⟩

/-- Two bytes are read back after a write through another handle, the release of a third one, and a
new block in its place. -/
theorem stored_data_reads_back_two : ∃ m heap s blk out m',
    (storeMngrCreate AllocSession.page none ⟨1024, 256⟩).run ⟨fun _ => true, 0, []⟩ = .ok m heap ∧
      Reach Tame exec (start m) s ∧ s.live 7 = some blk ∧ s.live 8 ≠ none ∧
      (storeMngrBlockRead blk 3 2 ⟨some [0, 0], 2⟩).run s.mngr = .ok ⟨some out, 2⟩ m' ∧
      out[0]? = some 5 ∧ out[1]? = some 6 := by
  let ops : List StoreOp := [.blockAlloc (some 9) 256, .blockAlloc (some 7) 200,
    .blockAlloc (some 8) 512, .blockWrite 9 254 ⟨some [1, 2], 2⟩, .blockWrite 7 3 ⟨some [4, 6], 2⟩,
    .blockFree 9, .blockWrite 8 0 ⟨some [3], 1⟩, .blockWrite 7 3 ⟨some [5], 1⟩,
    .blockAlloc (some 9) 250, .blockWrite 9 255 ⟨some [8], 1⟩]
  obtain ⟨m, heap, s, hc, hr, hq, hq', hin, h0, h1⟩ : ∃ m heap s,
      (storeMngrCreate AllocSession.page none ⟨1024, 256⟩).run ⟨fun _ => true, 0, []⟩ = .ok m heap ∧
        Reach Tame exec (start m) s ∧ s.live 7 = some ⟨7, 4192⟩ ∧ s.live 8 ≠ none ∧
        s.Inside 7 3 2 (some [0, 0]) ∧ s.written 7 3 = some 5 ∧ s.written 7 4 = some 6 :=
    AllocSession.exists_run ops (by decide +kernel)
  obtain ⟨out, m', hread, hout⟩ := (stored_data_reads_back hc (by decide) hr hq).2 3 2
    ⟨some [0, 0], 2⟩ hin (by
      intro i hi
      have hi' : i < 2 := hi
      rcases (by omega : i = 0 ∨ i = 1) with rfl | rfl
      · exact fun hnone => nomatch hnone.symm.trans h0
      · exact fun hnone => nomatch hnone.symm.trans h1)
  exact ⟨m, heap, s, _, out, m', hc, hr, hq, hq', hread, (hout 0 (by decide)).trans h0,
    (hout 1 (by decide)).trans h1⟩

/-- In a pool of 28 levels a request for one byte overwrites the slot of a live block, whose bytes
lie from then on where those of another block do. -/
theorem stored_data_lost : ∃ m heap s blk out m',
    (storeMngrCreate AllocSession.page none ⟨134217728, 1⟩).run ⟨fun _ => true, 0, []⟩ =
        .ok m heap ∧
      Reach Tame exec (start m) s ∧ s.live 3 = some blk ∧ s.Inside 3 0 1 (some [0]) ∧
      s.written 3 0 = some 5 ∧
      (storeMngrBlockRead blk 0 1 ⟨some [0], 1⟩).run s.mngr = .ok out m' ∧
      out.data = some [7] := by
  let ops : List StoreOp := [.blockAlloc (some 1) 67108864, .blockAlloc (some 2) 67108864,
    .blockFree 1, .blockAlloc (some 3) 33554432, .blockAlloc (some 4) 8388608,
    .blockAlloc (some 5) 2097152, .blockAlloc (some 6) 524288, .blockAlloc (some 7) 131072,
    .blockAlloc (some 8) 32768, .blockAlloc (some 9) 8192, .blockAlloc (some 10) 2048,
    .blockAlloc (some 11) 512, .blockAlloc (some 12) 128, .blockAlloc (some 13) 32,
    .blockAlloc (some 14) 8, .blockAlloc (some 15) 4, .blockAlloc (some 16) 2,
    .blockAlloc (some 17) 1, .blockWrite 3 0 ⟨some [5], 1⟩, .blockWrite 2 0 ⟨some [7], 1⟩]
  obtain ⟨m, heap, s, hc, hr, hq, hin, hwritten, hread⟩ : ∃ m heap s,
      (storeMngrCreate AllocSession.page none ⟨134217728, 1⟩).run ⟨fun _ => true, 0, []⟩ =
          .ok m heap ∧
        Reach Tame exec (start m) s ∧ s.live 3 = some ⟨3, 4168⟩ ∧ s.Inside 3 0 1 (some [0]) ∧
        s.written 3 0 = some 5 ∧
        Leaves (fun out _ => out.data = some [7]) (fun _ => False)
          ((storeMngrBlockRead ⟨3, 4168⟩ 0 1 ⟨some [0], 1⟩).run s.mngr) :=
    AllocSession.exists_run ops (by decide +kernel)
  obtain ⟨out, m', hrun, hout⟩ := hread.exists_ok
  exact ⟨m, heap, s, _, out, m', hc, hr, hq, hin, hwritten, hrun, hout⟩

end StoreSession
end FileTransfer.PoolMemory
