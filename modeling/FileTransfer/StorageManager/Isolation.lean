import FileTransfer.StorageManager.Session

/-! Which writes through a handle leave the blocks of the other handles alone. The only bound
that the code applies to a write is the size of the whole pool. -/
namespace FileTransfer
open Overlay Run

namespace StoreSession
variable {S : Shape} {s : StoreSession} {a : Bisection.Pool} {q q' : ℕ}
  {blk blk' : StoreMngrBlock} {offset : UInt32} {data : StoreMngrData}

/-- A write inside of a block leaves the bytes of the other blocks as they are. -/
theorem Shows.writeAt_other (h : Shows S s a) (hq : s.live q = some blk)
    (hq' : s.live q' = some blk') (hne : q ≠ q') {pos : ℕ} {bytes : List UInt8}
    (hin : pos + bytes.length ≤ s.mngr.blockSize blk) {x : ℕ} (hx : s.mngr.InBlock blk' x)
    (hlt : x < s.mngr.rFileCtrl.content.length) :
    (writeAt 0 s.mngr.rFileCtrl.content (s.mngr.blockOffset blk + pos) bytes)[x]? =
      s.mngr.rFileCtrl.content[x]? := by
  apply writeAt_outside _ hlt
  by_contra hmeet
  apply h.apart hq hq' hne _ hx
  unfold StoreMngr.InBlock
  omega

/-- No byte of the file in the block of another handle changes, and a write that would leave
the block of its own handle is refused. -/
structure Isolated (s : StoreSession) (q : ℕ) (blk : StoreMngrBlock) (offset : UInt32)
    (data : StoreMngrData) : Prop where
  others : ∀ q' blk', q' ≠ q → s.live q' = some blk' → ∀ x, s.mngr.InBlock blk' x →
    x < s.mngr.rFileCtrl.content.length →
    (s.exec (.blockWrite q offset data)).mngr.rFileCtrl.content[x]? =
      s.mngr.rFileCtrl.content[x]?
  refused : s.mngr.blockSize blk < offset.toNat + data.dataLen.toNat →
    ∃ e m, (storeMngrBlockWrite blk offset data).run s.mngr = .error e m

theorem Shows.isolated_of_not_admits (h : Shows S s a) (hq : s.live q = some blk)
    (hop : s.Usable (.blockWrite q offset data))
    (hadmits : data.data ≠ none → ¬ s.mngr.Admits blk offset data.dataLen) :
    s.Isolated q blk offset data := by
  have hexec : s.exec (.blockWrite q offset data) = s := by
    rcases h.blockWrite hq hop with ⟨bytes, hdata, hyes, -⟩ | ⟨-, hexec⟩
    · refine absurd hyes (hadmits ?_)
      rw [hdata]
      exact Option.some_ne_none bytes
    · exact hexec
  refine ⟨fun _ _ _ _ _ _ _ => ?_, fun _ => ?_⟩
  · rw [hexec]
  · obtain ⟨e, he⟩ := StoreMngr.blockWrite_refused h.max_lt hadmits
    exact ⟨e, s.mngr, he⟩

theorem Shows.isolated_of_inside (h : Shows S s a) (hq : s.live q = some blk)
    (hop : s.Usable (.blockWrite q offset data))
    (hin : offset.toNat + data.dataLen.toNat ≤ s.mngr.blockSize blk) :
    s.Isolated q blk offset data := by
  refine ⟨fun q' blk' hne hq' x hx hlt => ?_, fun hout => absurd hin (Nat.not_le.mpr hout)⟩
  rcases h.blockWrite hq hop with ⟨bytes, hdata, -, hexec⟩ | ⟨-, hexec⟩
  · have hlen : (bytes.take data.dataLen.toNat).length = data.dataLen.toNat :=
      List.length_take_of_le (hop.2 bytes hdata)
    rw [hexec, h.totalOffset_eq hq hin]
    exact h.writeAt_other hq hq' hne.symm (by rwa [hlen]) hx hlt
  · rw [hexec]

/-- A write is isolated as long as it ends inside of its block, or fails for another reason:
there is nothing to write, or the position, as the code computes it, leaves the whole pool. -/
theorem Shows.isolated_iff (h : Shows S s a) (hq : s.live q = some blk)
    (hdata : ∀ bytes, data.data = some bytes → data.dataLen.toNat ≤ bytes.length) :
    s.Isolated q blk offset data ↔
      offset.toNat + data.dataLen.toNat ≤ s.mngr.blockSize blk ∨
      data.data = none ∨ data.dataLen.toNat = 0 ∨
      2 ^ S.top < (s.mngr.blockOffset blk + offset.toNat) % 2 ^ 32 + data.dataLen.toNat := by
  have hop : s.Usable (.blockWrite q offset data) := by
    refine ⟨?_, hdata⟩
    rw [hq]
    exact Option.some_ne_none blk
  have hadmits : s.mngr.Admits blk offset data.dataLen ↔ 0 < data.dataLen.toNat ∧
      (s.mngr.blockOffset blk + offset.toNat) % 2 ^ 32 + data.dataLen.toNat ≤ 2 ^ S.top := by
    unfold StoreMngr.Admits StoreMngr.totalOffset StoreMngr.blockOffset
    rw [h.maxFileSize, UInt32.toNat_add]
  constructor
  · intro hiso
    by_contra hno
    push Not at hno
    obtain ⟨hout, hsome, hlen, hpool⟩ := hno
    obtain ⟨bytes, hbytes⟩ := Option.ne_none_iff_exists'.mp hsome
    have hok := StoreMngr.blockWrite_ok h.max_lt
      (hadmits.mpr ⟨Nat.pos_of_ne_zero hlen, hpool⟩) (hdata bytes hbytes)
    obtain ⟨e, m', he⟩ := hiso.refused hout
    rw [← hbytes] at hok
    rw [hok] at he
    cases he
  · rintro (hin | hnone | hzero | hpool)
    · exact h.isolated_of_inside hq hop hin
    · exact h.isolated_of_not_admits hq hop fun hsome => absurd hnone hsome
    · exact h.isolated_of_not_admits hq hop fun _ hyes => (hadmits.mp hyes).1.ne' hzero
    · exact h.isolated_of_not_admits hq hop fun _ hyes =>
        absurd (hadmits.mp hyes).2 (Nat.not_le.mpr hpool)

end StoreSession
end FileTransfer
