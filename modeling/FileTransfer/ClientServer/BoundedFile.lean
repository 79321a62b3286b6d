import FileTransfer.ClientServer.RamFileCtrl
import FileTransfer.Foundation.Run

/-! A file of `ram_file_ctrl.c` is an array of bytes with a bound, as long as the bound is a
`long` and the buffers are objects of C. -/
namespace FileTransfer
open Overlay Run

/-- The calls on a file, each with its buffer and the number of bytes to copy. -/
inductive RamFileOp
  | write (offset : UInt64) (data : List UInt8) (dataSize : UInt64)
  | read (offset : UInt64) (buffer : List UInt8) (dataSize : UInt64)

/-- The buffer has the bytes that the call is told of, which are at most `PTRDIFF_MAX`. -/
def Holds (buffer : List UInt8) (dataSize : UInt64) : Prop :=
  dataSize.toNat ≤ buffer.length ∧ dataSize.toNat < 2 ^ 63

def RamFileCfg.effectiveMax (cfg : RamFileCfg) : UInt64 :=
  if cfg.maxFileSize = 0 then DEFAULT_MAX_FILE_SIZE else cfg.maxFileSize

namespace RamFile

/-- The file after a call. -/
def exec (f : RamFile) : RamFileOp → RamFile
  | .write offset data dataSize =>
    match (ramFileWrite offset (some data) dataSize).run f with
    | .ok _ f => f
    | .error _ f => f
  | .read offset buffer dataSize =>
    match (ramFileRead offset (some buffer) dataSize).run f with
    | .ok _ f => f
    | .error _ f => f

def sound (_ : RamFile) : RamFileOp → Prop
  | .write _ data dataSize => Holds data dataSize
  | .read _ buffer dataSize => Holds buffer dataSize

/-- What a write does to an array of at most `max` bytes. -/
structure BoundedWrite (max : ℕ) (f : RamFile) (offset : UInt64) (data : List UInt8)
    (dataSize : UInt64) : Prop where
  succeeds : (∃ f', (ramFileWrite offset (some data) dataSize).run f = .ok () f') ↔
    0 < dataSize.toNat ∧ offset.toNat + dataSize.toNat ≤ max
  written : ∀ f', (ramFileWrite offset (some data) dataSize).run f = .ok () f' →
    Written 0 f.content offset.toNat (data.take dataSize.toNat) f'.content
  refused : ∀ e f', (ramFileWrite offset (some data) dataSize).run f = .error e f' →
    f'.content = f.content

/-- What a read delivers of such an array. -/
structure BoundedRead (max : ℕ) (f : RamFile) (offset : UInt64) (buffer : List UInt8)
    (dataSize : UInt64) : Prop where
  succeeds : (∃ a f', (ramFileRead offset (some buffer) dataSize).run f = .ok a f') ↔
    0 < dataSize.toNat ∧ offset.toNat + dataSize.toNat ≤ max ∧
      offset.toNat + dataSize.toNat ≤ f.content.length
  delivered : ∀ a f', (ramFileRead offset (some buffer) dataSize).run f = .ok a f' →
    a.take dataSize.toNat = (f.content.drop offset.toNat).take dataSize.toNat ∧
    a.drop dataSize.toNat = buffer.drop dataSize.toNat
  kept : Leaves (fun _ f' => f'.content = f.content) (fun f' => f'.content = f.content)
    ((ramFileRead offset (some buffer) dataSize).run f)

section Step
variable {f : RamFile} {offset dataSize : UInt64} {data buffer : List UInt8}

theorem boundedWrite (hmax : f.maxFileSize.toNat < 2 ^ 63) (hbuf : Holds data dataSize) :
    BoundedWrite f.maxFileSize.toNat f offset data dataSize := by
  by_cases hfits : f.Fits offset dataSize
  · have hrun := ramFileWrite_fits hmax hfits hbuf.1
    constructor
    · exact iff_of_true ⟨_, hrun⟩ hfits
    · intro f' h
      rw [hrun] at h
      cases h
      exact written_writeAt
    · intro e f' h
      rw [hrun] at h
      cases h
  · obtain ⟨e, hrun⟩ := ramFileWrite_refused hmax hbuf.2 (some data) fun _ => hfits
    constructor
    · apply iff_of_false _ hfits
      intro h
      obtain ⟨f', h⟩ := h
      rw [hrun] at h
      cases h
    · intro f' h
      rw [hrun] at h
      cases h
    · intro e' f' h
      rw [hrun] at h
      cases h
      rfl

/-- A read that is an error, on a file that it leaves alone. -/
theorem BoundedRead.of_error {max : ℕ} {e : Errno}
    (hrun : (ramFileRead offset (some buffer) dataSize).run f = .error e f)
    (hout : ¬ (0 < dataSize.toNat ∧ offset.toNat + dataSize.toNat ≤ max ∧
      offset.toNat + dataSize.toNat ≤ f.content.length)) :
    BoundedRead max f offset buffer dataSize := by
  have hno : ∀ a f', (ramFileRead offset (some buffer) dataSize).run f ≠ .ok a f' := by
    intro a f' h
    rw [hrun] at h
    cases h
  constructor
  · apply iff_of_false _ hout
    intro h
    obtain ⟨a, f', h⟩ := h
    exact hno a f' h
  · intro a f' h
    exact absurd h (hno a f')
  · rw [hrun]
    rfl

theorem boundedRead (hmax : f.maxFileSize.toNat < 2 ^ 63) (hbuf : Holds buffer dataSize) :
    BoundedRead f.maxFileSize.toNat f offset buffer dataSize := by
  by_cases hfits : f.Fits offset dataSize
  · have hrun := ramFileRead_fits hmax hfits hbuf.1
    by_cases hin : offset.toNat + dataSize.toNat ≤ f.content.length
    · rw [if_pos hin] at hrun
      have hlen : ((f.content.drop offset.toNat).take dataSize.toNat).length = dataSize.toNat := by
        rw [List.length_take, List.length_drop]
        omega
      constructor
      · exact iff_of_true ⟨_, _, hrun⟩ ⟨hfits.1, hfits.2, hin⟩
      · intro a f' h
        rw [hrun] at h
        cases h
        constructor
        · rw [List.take_append_of_le_length hlen.ge, List.take_of_length_le hlen.le]
        · rw [List.drop_append_of_le_length hlen.ge, List.drop_of_length_le hlen.le,
            List.nil_append]
      · rw [hrun]
        rfl
    · rw [if_neg hin] at hrun
      exact .of_error hrun fun h => hin h.2.2
  · obtain ⟨e, hrun⟩ := ramFileRead_refused hmax hbuf.2 buffer hfits
    exact .of_error hrun fun h => hfits ⟨h.1, h.2.1⟩

/-- No call changes the bound. -/
theorem maxFileSize_exec (hmax : f.maxFileSize.toNat < 2 ^ 63) {op : RamFileOp}
    (hop : f.sound op) : (f.exec op).maxFileSize = f.maxFileSize := by
  cases op with
  | write offset data dataSize =>
    unfold exec
    by_cases hfits : f.Fits offset dataSize
    · simp only [ramFileWrite_fits hmax hfits hop.1]
      rfl
    · obtain ⟨e, hrun⟩ := ramFileWrite_refused hmax hop.2 (some data) fun _ => hfits
      simp only [hrun]
  | read offset buffer dataSize =>
    unfold exec
    rcases (ramFileRead_keeps offset (some buffer) dataSize).cases f with ⟨a, hrun⟩ | ⟨e, hrun⟩
    · simp only [hrun]
    · simp only [hrun]

end Step

/-- From the creation on, whatever calls came before, the file is an array of bytes that starts
with the stored content and is bounded by the configuration. -/
theorem ram_file_is_bounded_array {stored : Option (List UInt8)} {cfg : RamFileCfg}
    {heap heap' : Heap} {f₀ : RamFile} (hc : (ramFileCreate stored cfg).run heap = .ok f₀ heap')
    (hmax : cfg.effectiveMax.toNat < 2 ^ 63) :
    f₀.content = stored.getD [] ∧ ∀ f, Reach sound exec f₀ f →
      (∀ offset data dataSize, Holds data dataSize →
        f.BoundedWrite cfg.effectiveMax.toNat offset data dataSize) ∧
      ∀ offset buffer dataSize, Holds buffer dataSize →
        f.BoundedRead cfg.effectiveMax.toNat offset buffer dataSize := by
  obtain ⟨hmax₀, hcontent, -⟩ := ramFileCreate_ok hc
  refine ⟨hcontent, ?_⟩
  intro f hr
  have hbound : f.maxFileSize = cfg.effectiveMax := by
    apply hr.invariant fun f => f.maxFileSize = cfg.effectiveMax
    · exact hmax₀
    · intro f op h hop
      rw [← h] at hmax
      rw [maxFileSize_exec hmax hop, h]
  rw [← hbound] at hmax ⊢
  constructor
  · intro offset data dataSize hbuf
    exact boundedWrite hmax hbuf
  · intro offset buffer dataSize hbuf
    exact boundedRead hmax hbuf

/-- Two bytes are written behind the end of a file of three, which leaves a gap. -/
theorem ram_file_is_bounded_array_gap : ∃ f₀ heap,
    (ramFileCreate (some [1, 2, 3]) ⟨8, false⟩).run ⟨fun _ => true, 0, []⟩ = .ok f₀ heap ∧
      (f₀.exec (.write 5 [7, 8] 2)).content = [1, 2, 3, 0, 0, 7, 8] ∧
      (f₀.exec (.write 5 [7, 8] 2)).BoundedRead 8 3 [9, 9, 9] 3 := by
  obtain ⟨f₀, heap, hc, hcontent⟩ : ∃ f₀ heap,
      (ramFileCreate (some [1, 2, 3]) ⟨8, false⟩).run ⟨fun _ => true, 0, []⟩ = .ok f₀ heap ∧
        (f₀.exec (.write 5 [7, 8] 2)).content = [1, 2, 3, 0, 0, 7, 8] := ⟨_, _, rfl, rfl⟩
  have hr : Reach sound exec f₀ (f₀.exec (.write 5 [7, 8] 2)) :=
    .step .start _ ⟨by decide, by decide⟩
  have hall := (ram_file_is_bounded_array hc (by decide)).2 _ hr
  exact ⟨f₀, heap, hc, hcontent, hall.2 3 [9, 9, 9] 3 ⟨by decide, by decide⟩⟩

end RamFile
end FileTransfer
