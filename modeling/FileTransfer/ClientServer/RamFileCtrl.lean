import FileTransfer.Foundation.Overlay
import FileTransfer.Foundation.Word
import FileTransfer.Infra.Heap

/-! The bounded file of `ram_file_ctrl.c` on LP64, where `size_t` and `long` have 64 bits. A
buffer is the list of the bytes that it holds, or `none` for NULL. The file of an object is
always open. Its stream transfers in full: `fread` gives all bytes up to the end of the file, and
`fwrite` and `fflush` neither stop short nor fail, so that what `ram_file_write` returns when they do
has no counterpart. -/
namespace FileTransfer
open Overlay

structure RamFileCfg where
  maxFileSize : UInt64
  deleteFiles : Bool

structure RamFile where
  addr : ℕ
  file : ℕ
  filePath : ℕ
  maxFileSize : UInt64
  deleteFiles : Bool
  /-- The bytes of the file. -/
  content : List UInt8

/-- 10 MB. -/
def DEFAULT_MAX_FILE_SIZE : UInt64 := 10 * 1024 * 1024

/-- `stored` is the content of the file at `file_path`, or `none` if it is missing. -/
def ramFileCreate (stored : Option (List UInt8)) (cfg : RamFileCfg) : HeapCall RamFile := do
  match ← request with
  | none => throw .ENOMEM
  | some addr =>
    match ← request with
    | none =>
      release addr
      throw .ENOMEM
    | some filePath =>
      match ← request with
      | none =>
        release filePath
        release addr
        throw .EIOERR
      | some file =>
        return {
          addr, file, filePath
          maxFileSize := if cfg.maxFileSize = 0 then DEFAULT_MAX_FILE_SIZE else cfg.maxFileSize
          deleteFiles := cfg.deleteFiles
          content := stored.getD [] }

def ramFileDestroy (f : RamFile) : HeapCall Unit := do
  access f.addr
  release f.file
  access f.addr
  if f.deleteFiles then
    access f.filePath
    release f.filePath
  release f.addr

/-- Whether `fseek` takes an offset: as a `long` it must not be negative. -/
def seekable (offset : UInt64) : Bool := 0 ≤ offset.toInt64

/-- Gives what the buffer holds afterwards. -/
def ramFileRead (offset : UInt64) (dataOut : Option (List UInt8)) (dataSize : UInt64) :
    Call RamFile (List UInt8) := do
  let f ← get
  match dataOut with
  | none => throw .EINVAL
  | some buffer =>
    if dataSize = 0 then throw .EINVAL
    if f.maxFileSize < offset + dataSize then throw .EFBIG
    if !seekable offset then throw .EIOERR
    if buffer.length < dataSize.toNat then throw .outOfBounds
    let bytes := (f.content.drop offset.toNat).take dataSize.toNat
    if bytes.length ≠ dataSize.toNat then throw .EIOERR
    return bytes ++ buffer.drop dataSize.toNat

/-- After `fseek` failed `errno` is `EINVAL`. -/
def ramFileWrite (offset : UInt64) (data : Option (List UInt8)) (dataSize : UInt64) :
    Call RamFile Unit := do
  match data with
  | none => throw .EINVAL
  | some bytes =>
    if dataSize = 0 then throw .EINVAL
    let writeEnd := offset + dataSize
    if (← get).maxFileSize < writeEnd then throw .EFBIG
    if !seekable offset then throw .EINVAL
    if bytes.length < dataSize.toNat then throw .outOfBounds
    modify fun f => { f with
      content := writeAt 0 f.content offset.toNat (bytes.take dataSize.toNat) }

/-- A `ssize_t`. -/
def ramFileSizeInBytes (stored : List UInt8) : Int64 := (UInt64.ofNat stored.length).toInt64

theorem ramFileCreate_ok {stored : Option (List UInt8)} {cfg : RamFileCfg} {f : RamFile}
    {heap heap' : Heap} (hc : (ramFileCreate stored cfg).run heap = .ok f heap') :
    f.maxFileSize = (if cfg.maxFileSize = 0 then DEFAULT_MAX_FILE_SIZE else cfg.maxFileSize) ∧
      f.content = stored.getD [] ∧ f.deleteFiles = cfg.deleteFiles := by
  rcases request_bind_ok hc with ⟨addr, h₁, hc⟩ | ⟨h₁, hc⟩
  · rcases request_bind_ok hc with ⟨filePath, h₂, hc⟩ | ⟨h₂, hc⟩
    · rcases request_bind_ok hc with ⟨file, h₃, hc⟩ | ⟨h₃, hc⟩
      · cases hc
        exact ⟨rfl, rfl, rfl⟩
      · cases hc
    · cases hc
  · cases hc

section Access
variable {f : RamFile} {offset dataSize : UInt64} {bytes buffer : List UInt8}

theorem seekable_iff : seekable offset = true ↔ offset.toNat < 2 ^ 63 := by
  unfold seekable
  rw [decide_eq_true_eq, ← Int64.not_lt, Word.toInt64_neg_iff, Nat.not_le]

/-- The range that is accessed, without wrapping. -/
def RamFile.Fits (f : RamFile) (offset dataSize : UInt64) : Prop :=
  0 < dataSize.toNat ∧ offset.toNat + dataSize.toNat ≤ f.maxFileSize.toNat

/-- The file with bytes written at a position. -/
def RamFile.write (f : RamFile) (pos : ℕ) (bytes : List UInt8) : RamFile :=
  { f with content := writeAt 0 f.content pos bytes }

/-- The tests let an access pass exactly if it fits. A sum that wraps has an offset that `fseek`
refuses. -/
theorem RamFile.fits_iff (hmax : f.maxFileSize.toNat < 2 ^ 63) (hsize : dataSize.toNat < 2 ^ 63) :
    f.Fits offset dataSize ↔
      dataSize ≠ 0 ∧ ¬ f.maxFileSize < offset + dataSize ∧ seekable offset = true := by
  have hzero : dataSize ≠ 0 ↔ 0 < dataSize.toNat := by
    rw [Nat.pos_iff_ne_zero, ne_eq, ne_eq, ← UInt64.toNat_inj, UInt64.toNat_zero]
  rw [hzero, seekable_iff, UInt64.lt_iff_toNat_lt, UInt64.toNat_add]
  unfold Fits
  omega

/-- The first test that an access fails if it does not fit. -/
theorem RamFile.not_fits_cases (hmax : f.maxFileSize.toNat < 2 ^ 63)
    (hsize : dataSize.toNat < 2 ^ 63) (h : ¬ f.Fits offset dataSize) :
    dataSize = 0 ∨ dataSize ≠ 0 ∧ f.maxFileSize < offset + dataSize ∨
      dataSize ≠ 0 ∧ ¬ f.maxFileSize < offset + dataSize ∧ seekable offset = false := by
  rw [fits_iff hmax hsize] at h
  by_cases hzero : dataSize = 0
  · exact Or.inl hzero
  by_cases hend : f.maxFileSize < offset + dataSize
  · exact Or.inr (Or.inl ⟨hzero, hend⟩)
  · refine Or.inr (Or.inr ⟨hzero, hend, ?_⟩)
    rw [← Bool.not_eq_true]
    exact fun hseek => h ⟨hzero, hend, hseek⟩

theorem RamFile.Fits.size_lt (h : f.Fits offset dataSize) (hmax : f.maxFileSize.toNat < 2 ^ 63) :
    dataSize.toNat < 2 ^ 63 := by
  have := h.2
  omega

theorem ramFileWrite_fits (hmax : f.maxFileSize.toNat < 2 ^ 63) (h : f.Fits offset dataSize)
    (hlen : dataSize.toNat ≤ bytes.length) :
    (ramFileWrite offset (some bytes) dataSize).run f =
      .ok () (f.write offset.toNat (bytes.take dataSize.toNat)) := by
  obtain ⟨hzero, hend, hseek⟩ := (RamFile.fits_iff hmax (h.size_lt hmax)).mp h
  simp only [ramFileWrite, if_neg hzero, EStateM.run_bind, EStateM.run_get, if_neg hend, hseek,
    if_neg (Nat.not_lt.mpr hlen)]
  rfl

theorem ramFileRead_fits (hmax : f.maxFileSize.toNat < 2 ^ 63) (h : f.Fits offset dataSize)
    (hlen : dataSize.toNat ≤ buffer.length) : (ramFileRead offset (some buffer) dataSize).run f =
      if offset.toNat + dataSize.toNat ≤ f.content.length then
        .ok ((f.content.drop offset.toNat).take dataSize.toNat ++ buffer.drop dataSize.toNat) f
      else .error .EIOERR f := by
  obtain ⟨hzero, hend, hseek⟩ := (RamFile.fits_iff hmax (h.size_lt hmax)).mp h
  have hpos := h.1
  have hbytes : ((f.content.drop offset.toNat).take dataSize.toNat).length ≠ dataSize.toNat ↔
      ¬ offset.toNat + dataSize.toNat ≤ f.content.length := by
    rw [List.length_take, List.length_drop]
    omega
  simp only [ramFileRead, if_neg hzero, EStateM.run_bind, EStateM.run_get, if_neg hend, hseek,
    if_neg (Nat.not_lt.mpr hlen)]
  by_cases hin : offset.toNat + dataSize.toNat ≤ f.content.length
  · rw [if_pos hin, if_neg (hbytes.not_left.mpr hin)]
    rfl
  · rw [if_neg hin, if_pos (hbytes.mpr hin)]
    rfl

/-- Whatever does not fit is refused before the file is touched. -/
theorem ramFileWrite_refused (hmax : f.maxFileSize.toNat < 2 ^ 63)
    (hsize : dataSize.toNat < 2 ^ 63) (data : Option (List UInt8))
    (h : data ≠ none → ¬ f.Fits offset dataSize) :
    ∃ e, (ramFileWrite offset data dataSize).run f = .error e f := by
  cases data with
  | none => exact ⟨.EINVAL, rfl⟩
  | some bytes =>
    rcases RamFile.not_fits_cases hmax hsize (h (Option.some_ne_none bytes)) with
      hzero | ⟨hzero, hend⟩ | ⟨hzero, hend, hseek⟩
    · refine ⟨.EINVAL, ?_⟩
      simp only [ramFileWrite, if_pos hzero]
      rfl
    · refine ⟨.EFBIG, ?_⟩
      simp only [ramFileWrite, if_neg hzero, EStateM.run_bind, EStateM.run_get, if_pos hend]
      rfl
    · refine ⟨.EINVAL, ?_⟩
      simp only [ramFileWrite, if_neg hzero, EStateM.run_bind, EStateM.run_get, if_neg hend, hseek]
      rfl

theorem ramFileRead_refused (hmax : f.maxFileSize.toNat < 2 ^ 63) (hsize : dataSize.toNat < 2 ^ 63)
    (buffer : List UInt8) (h : ¬ f.Fits offset dataSize) :
    ∃ e, (ramFileRead offset (some buffer) dataSize).run f = .error e f := by
  rcases RamFile.not_fits_cases hmax hsize h with
    hzero | ⟨hzero, hend⟩ | ⟨hzero, hend, hseek⟩
  · refine ⟨.EINVAL, ?_⟩
    simp only [ramFileRead, EStateM.run_bind, EStateM.run_get, if_pos hzero]
    rfl
  · refine ⟨.EFBIG, ?_⟩
    simp only [ramFileRead, EStateM.run_bind, EStateM.run_get, if_neg hzero, if_pos hend]
    rfl
  · refine ⟨.EIOERR, ?_⟩
    simp only [ramFileRead, EStateM.run_bind, EStateM.run_get, if_neg hzero, if_neg hend, hseek]
    rfl

/-- A read leaves the file as it is. -/
theorem ramFileRead_keeps (offset : UInt64) (dataOut : Option (List UInt8)) (dataSize : UInt64) :
    Keeps (ramFileRead offset dataOut dataSize) := by
  unfold ramFileRead
  apply Keeps.get.bind
  intro f
  cases dataOut with
  | none => exact Keeps.throw _
  | some buffer =>
    apply (Keeps.throw _).ite
    apply (Keeps.throw _).ite
    apply (Keeps.throw _).ite
    apply (Keeps.throw _).ite
    apply (Keeps.throw _).ite
    exact Keeps.pure _

end Access
end FileTransfer
