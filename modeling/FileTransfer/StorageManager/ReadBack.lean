import FileTransfer.StorageManager.Isolation

/-! While every access stays inside of the block of its handle, what is written through a handle
is read back through it, whatever happens to the other handles. -/
namespace FileTransfer
open Overlay Run

namespace StoreSession
variable {S : Shape} {s : StoreSession} {a : Bisection.Pool} {q : ℕ} {blk : StoreMngrBlock}
  {offset len : UInt32}

/-- An access of `len` bytes, more than none, that a buffer has and the block of the handle has. -/
def Inside (s : StoreSession) (q : ℕ) (offset len : UInt32) (data : Option (List UInt8)) : Prop :=
  ∃ blk bytes, s.live q = some blk ∧ data = some bytes ∧ 0 < len.toNat ∧ len.toNat ≤ bytes.length ∧
    offset.toNat + len.toNat ≤ s.mngr.blockSize blk

/-- Every access stays inside of its block. -/
def Tame (s : StoreSession) : StoreOp → Prop
  | .blockAlloc handler _ => ∀ q, handler = some q → s.live q = none
  | .blockFree q => s.live q ≠ none
  | .blockWrite q offset data => s.Inside q offset data.dataLen data.data
  | .blockRead q offset readSize dataOut => s.Inside q offset readSize dataOut.data

theorem Inside.usable {data : Option (List UInt8)} (h : s.Inside q offset len data) :
    s.live q ≠ none ∧ ∀ bytes, data = some bytes → len.toNat ≤ bytes.length := by
  obtain ⟨blk, bytes, hq, rfl, -, hlen, -⟩ := h
  refine ⟨?_, fun bytes' he => ?_⟩
  · rw [hq]
    exact Option.some_ne_none blk
  · rwa [← Option.some.inj he]

theorem Tame.usable {op : StoreOp} (h : s.Tame op) : s.Usable op := by
  cases op with
  | blockAlloc handler fileSize => exact h
  | blockFree q => exact h
  | blockWrite q offset data => exact Inside.usable h
  | blockRead q offset readSize dataOut => exact Inside.usable h

/-- An access inside of a block never leaves the pool. -/
theorem Shows.admits (h : Shows S s a) (hq : s.live q = some blk) (hpos : 0 < len.toNat)
    (hin : offset.toNat + len.toNat ≤ s.mngr.blockSize blk) : s.mngr.Admits blk offset len := by
  have hinside := h.inside hq
  refine ⟨hpos, ?_⟩
  rw [h.totalOffset_eq hq hin, h.maxFileSize]
  omega

/-- The file holds what was written, at its place in the block of the handle. -/
def Kept (s : StoreSession) : Prop :=
  ∀ q blk i v, s.live q = some blk → s.written q i = some v → i < s.mngr.blockSize blk ∧
    s.mngr.rFileCtrl.content[s.mngr.blockOffset blk + i]? = some v

/-- The file is kept, and so are the blocks of the handles that stay live. -/
theorem Kept.of_same (h : s.Kept) {t : StoreSession}
    (hfile : t.mngr.rFileCtrl = s.mngr.rFileCtrl) (hblocks : Shows.SameBlocks s t)
    (hold : ∀ q blk i v, t.live q = some blk → t.written q i = some v →
      s.live q = some blk ∧ s.written q i = some v) : t.Kept := by
  intro q blk i v hq hv
  obtain ⟨hq', hv'⟩ := hold q blk i v hq hv
  obtain ⟨hlt, hat⟩ := h q blk i v hq' hv'
  obtain ⟨hoffset, hsize⟩ := hblocks q blk hq' hq
  rw [hfile, hoffset, hsize]
  exact ⟨hlt, hat⟩

theorem Kept.wrote (h : s.Kept) (hs : Shows S s a) (hq : s.live q = some blk) {pos : ℕ}
    {bytes : List UInt8} (hin : pos + bytes.length ≤ s.mngr.blockSize blk) :
    (s.wrote (s.mngr.writeFile (s.mngr.blockOffset blk + pos) bytes) q pos bytes).Kept := by
  intro q' blk' i v hq' hv
  have hq'' : s.live q' = some blk' := hq'
  dsimp only [StoreSession.wrote] at hv
  rw [Function.update_apply] at hv
  show i < s.mngr.blockSize blk' ∧
    (writeAt 0 s.mngr.rFileCtrl.content (s.mngr.blockOffset blk + pos) bytes)[
      s.mngr.blockOffset blk' + i]? = some v
  by_cases he : q' = q
  · subst he
    obtain rfl : blk' = blk := Option.some.inj (hq''.symm.trans hq)
    rw [if_pos rfl, overwrite] at hv
    by_cases hnew : pos ≤ i ∧ i < pos + bytes.length
    · rw [if_pos hnew] at hv
      refine ⟨by omega, ?_⟩
      rw [writeAt_inside (by omega) (by omega), Nat.add_sub_add_left]
      exact hv
    · rw [if_neg hnew] at hv
      obtain ⟨hlt, hat⟩ := h q' blk' i v hq'' hv
      have hlen := (List.getElem?_eq_some_iff.mp hat).1
      refine ⟨hlt, ?_⟩
      rw [writeAt_outside (by omega) hlen]
      exact hat
  · rw [if_neg he] at hv
    obtain ⟨hlt, hat⟩ := h q' blk' i v hq'' hv
    have hlen := (List.getElem?_eq_some_iff.mp hat).1
    have hx : s.mngr.InBlock blk' (s.mngr.blockOffset blk' + i) :=
      ⟨Nat.le_add_right _ i, Nat.add_lt_add_left hlt _⟩
    refine ⟨hlt, ?_⟩
    rw [hs.writeAt_other hq hq'' (Ne.symm he) hin hx hlen]
    exact hat

/-- One tame operation. -/
theorem Kept.exec (h : s.Kept) (hs : Shows S s a) {op : StoreOp} (hop : s.Tame op) :
    (s.exec op).Kept := by
  cases op with
  | blockAlloc handler fileSize =>
    rcases hs.blockAlloc hop.usable with hexec | ⟨p, slot, m, a', hnew, hexec, -, hfile, hblocks⟩
    · rwa [hexec]
    · rw [hexec]
      apply h.of_same hfile hblocks
      intro q blk i v hq hv
      dsimp only [allocated] at hq hv
      rw [Function.update_apply] at hq hv
      by_cases he : q = p
      · rw [if_pos he] at hv
        cases hv
      · rw [if_neg he] at hq hv
        exact ⟨hq, hv⟩
  | blockFree p =>
    obtain ⟨m, a', hexec, -, hfile, hblocks⟩ := hs.blockFree hop.usable
    rw [hexec]
    apply h.of_same hfile hblocks
    intro q blk i v hq hv
    dsimp only [freed] at hq hv
    rw [Function.update_apply] at hq
    split_ifs at hq with he
    exact ⟨hq, hv⟩
  | blockWrite p offset data =>
    have husable := hop.usable
    obtain ⟨blk, bytes, hp, hdata, hpos, hlen, hin⟩ := hop
    rcases hs.blockWrite hp husable with ⟨bytes', hdata', -, hexec⟩ | ⟨-, hexec⟩
    · obtain rfl : bytes' = bytes := Option.some.inj (hdata'.symm.trans hdata)
      rw [hexec, hs.totalOffset_eq hp hin]
      apply h.wrote hs hp
      rwa [List.length_take_of_le hlen]
    · rwa [hexec]
  | blockRead p offset readSize dataOut => rwa [Shows.blockRead]

theorem kept_of_reach {m : StoreMngr} (hstart : Shows S (start m) a)
    (hr : Reach Tame StoreSession.exec (start m) s) : (∃ a, Shows S s a) ∧ s.Kept := by
  apply hr.invariant (fun s => (∃ a, Shows S s a) ∧ s.Kept)
  · refine ⟨⟨_, hstart⟩, fun q blk i v hq => ?_⟩
    cases hq
  · rintro s op ⟨⟨a, hs⟩, hkept⟩ hop
    obtain ⟨a', hs', -⟩ := hs.exec hop.usable
    exact ⟨⟨a', hs'⟩, hkept.exec hs hop⟩

/-- While the file is kept, a write inside of a block succeeds, and a read inside of it of bytes that
were written through its handle gives the byte written there last. -/
theorem Kept.reads_back (hkept : s.Kept) (hs : Shows S s a) (hq : s.live q = some blk) :
    (∀ offset data, s.Inside q offset data.dataLen data.data →
      ∃ m', (storeMngrBlockWrite blk offset data).run s.mngr = .ok () m') ∧
    ∀ offset readSize dataOut, s.Inside q offset readSize dataOut.data →
      (∀ i < readSize.toNat, s.written q (offset.toNat + i) ≠ none) →
      ∃ out, (storeMngrBlockRead blk offset readSize dataOut).run s.mngr =
          .ok ⟨some out, readSize⟩ s.mngr ∧
        ∀ i < readSize.toNat, out[i]? = s.written q (offset.toNat + i) := by
  constructor
  · rintro offset ⟨data, len⟩ ⟨blk', bytes, hq', rfl, hpos, hlen, hin⟩
    obtain rfl : blk' = blk := Option.some.inj (hq'.symm.trans hq)
    exact ⟨_, StoreMngr.blockWrite_ok hs.max_lt (hs.admits hq hpos hin) hlen⟩
  · rintro offset readSize ⟨dataOut, old⟩ ⟨blk', buffer, hq', rfl, hpos, hlen, hin⟩ hwritten
    obtain rfl : blk' = blk := Option.some.inj (hq'.symm.trans hq)
    have hadmits := hs.admits hq hpos hin
    have htotal := hs.totalOffset_eq hq hin
    have hat : ∀ i < readSize.toNat,
        s.mngr.rFileCtrl.content[(s.mngr.totalOffset blk' offset).toNat + i]? =
          s.written q (offset.toNat + i) := by
      intro i hi
      obtain ⟨v, hv⟩ := Option.ne_none_iff_exists'.mp (hwritten i hi)
      rw [htotal, Nat.add_assoc, (hkept q blk' _ v hq hv).2, hv]
    have hend : (s.mngr.totalOffset blk' offset).toNat + readSize.toNat ≤
        s.mngr.rFileCtrl.content.length := by
      -- the last byte that is read lies in the file
      obtain ⟨v, hv⟩ := Option.ne_none_iff_exists'.mp (hwritten (readSize.toNat - 1) (by omega))
      have hlast := hat (readSize.toNat - 1) (by omega)
      rw [hv] at hlast
      have := (List.getElem?_eq_some_iff.mp hlast).1
      omega
    refine ⟨_, StoreMngr.blockRead_ok hs.max_lt hadmits hlen hend old, fun i hi => ?_⟩
    have htake : ((s.mngr.rFileCtrl.content.drop (s.mngr.totalOffset blk' offset).toNat).take
        readSize.toNat).length = readSize.toNat := by
      apply List.length_take_of_le
      rw [List.length_drop]
      omega
    rw [List.getElem?_append_left (by rwa [htake]), List.getElem?_take_of_lt hi,
      List.getElem?_drop, hat i hi]

end StoreSession
end FileTransfer
