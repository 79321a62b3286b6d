import FileTransfer.Foundation.OutputStream
import FileTransfer.Infra.Numeral
import FileTransfer.Infra.Ownership

/-! `file_creator.c`, which fills a file with random bytes. What `rand` returns at call number `i`
is given, and so is what the stream and the file do with what `fwrite` hands to them. The numbers
-1 and `EXIT_FAILURE` are both shown as `EPERM`, which is the number one. -/
namespace FileTransfer
open Heap

/-- `kept i` is how many bytes the stream may hold back in its buffer at call number `i` of
`fwrite`, and `room i` how many the file takes at call number `i` of `fwrite` or `fclose`. -/
structure Stdio where
  kept : ℕ → ℕ
  room : ℕ → ℕ

/-- The process, the stream on the file at its path, and how often it has called `rand` and the
stream. -/
structure FileCreator where
  heap : Heap
  stream : OutputStream UInt8
  rands : ℕ
  calls : ℕ

def FILE_BUFFER_SIZE : UInt64 := 1024

namespace FileCreator

def start (grant : ℕ → Bool) (stored : List UInt8) : FileCreator :=
  ⟨⟨grant, 0, []⟩, ⟨stored, []⟩, 0, 0⟩

/-- The bytes of the file. -/
def file (p : FileCreator) : List UInt8 := p.stream.sink

def onHeap {α : Type} : HeapCall α → Call FileCreator α :=
  zoom (·.heap) fun p heap => { p with heap }

variable (rand : ℕ → ℕ) (stdio : Stdio)

def randByte : Call FileCreator UInt8 := do
  let p ← get
  set { p with rands := p.rands + 1 }
  return UInt8.ofNat (rand p.rands % 256)

/-- Gives the number of the items that are written completely. -/
def fwrite (data : List UInt8) (size count : ℕ) : Call FileCreator ℕ := do
  let p ← get
  let bytes := data.take (size * count)
  let kept := stdio.kept p.calls
  let room := stdio.room p.calls
  set { p with stream := p.stream.write bytes kept room, calls := p.calls + 1 }
  if p.stream.due bytes kept ≤ room then return count
  return (room - p.stream.pending.length) / size

/-- `creating_data_file` ignores what it returns. -/
def fclose (file : ℕ) : Call FileCreator Unit := do
  modify fun p => { p with stream := p.stream.close (stdio.room p.calls), calls := p.calls + 1 }
  onHeap (release file)

/-- `for (j = 0; j < n; j++) buffer[j] = rand() % 256`, from `j` on. -/
def fillBuffer : ℕ → ℕ → List UInt8 → Call FileCreator (List UInt8)
  | 0, _, buffer => return buffer
  | n + 1, j, buffer => do
    let byte ← randByte rand
    fillBuffer n (j + 1) (buffer.set j byte)

/-- Filling the buffer and writing it, as so many items of that size. -/
def writePart (file size count : ℕ) (buffer : List UInt8) : Call FileCreator (List UInt8) := do
  let buffer ← fillBuffer rand (size * count) 0 buffer
  onHeap (access file)
  if (← fwrite stdio buffer size count) ≠ count then
    fclose stdio file
    throw .EPERM
  return buffer

def writeChunks (file : ℕ) : ℕ → List UInt8 → Call FileCreator (List UInt8)
  | 0, buffer => return buffer
  | n + 1, buffer => do
    let buffer ← writePart rand stdio file FILE_BUFFER_SIZE.toNat 1 buffer
    writeChunks file n buffer

def writeRemaining (file remaining : ℕ) (buffer : List UInt8) : Call FileCreator (List UInt8) :=
  if 0 < remaining then writePart rand stdio file 1 remaining buffer else return buffer

/-- `buffer` is what the array happens to hold. -/
def creatingDataFile (buffer : List UInt8) (fSize : UInt64) : Call FileCreator Unit := do
  match ← onHeap request with
  | none => throw .EPERM
  | some file =>
    modify fun p => { p with stream := ⟨[], []⟩ }
    let buffer ← writeChunks rand stdio file (fSize / FILE_BUFFER_SIZE).toNat buffer
    let _ ← writeRemaining rand stdio file (fSize % FILE_BUFFER_SIZE).toNat buffer
    fclose stdio file

def main (buffer : List UInt8) : List String → Call FileCreator Unit
  | [_, _, size] => do
    let (fileSize, endptr) := strtoull size.toList
    if endptr ≠ [] ∨ fileSize = 0 then throw .EPERM
    match ← attempt (creatingDataFile rand stdio buffer fileSize) with
    | .error _ => throw .EPERM
    | .ok _ => return
  | _ => throw .EPERM

/-! ### What is written -/

/-- The bytes of the calls of `rand` from number `i` on. -/
def randomBytes (i n : ℕ) : List UInt8 := (List.range' i n).map fun j => UInt8.ofNat (rand j % 256)

/-- The part of a file that is written at once. -/
def partSize (size k : ℕ) : ℕ := min 1024 (size - 1024 * k)

/-- The number of the parts. -/
def parts (size : ℕ) : ℕ := (size + 1023) / 1024

/-- How many bytes the stream holds back after `k` parts. -/
def pending (size : ℕ) : ℕ → ℕ
  | 0 => 0
  | k + 1 => min (stdio.kept k) (pending size k + partSize size k)

/-- The file takes what the stream does not hold back of part number `k`. -/
def Accepts (size k : ℕ) : Prop :=
  pending stdio size k + partSize size k ≤ stdio.kept k + stdio.room k

instance (size : ℕ) : DecidablePred (Accepts stdio size) := fun k =>
  inferInstanceAs (Decidable (pending stdio size k + partSize size k ≤ stdio.kept k + stdio.room k))

/-- The file is closed. It has the bytes that were asked for, but for those that `fclose` finds no
room for; or those that the file took until a part was not accepted. -/
def Created (size : ℕ) : EStateM.Result Errno FileCreator Unit → Prop
  | .ok _ p => p.heap.Owns 0 ∧ p.rands = size ∧ (∀ k, 1024 * k < size → Accepts stdio size k) ∧
    p.file = randomBytes rand 0 (size - (pending stdio size (parts size) - stdio.room (parts size)))
  | .error _ p => p.heap.Owns 0 ∧ ∃ k, 1024 * k < size ∧ (∀ j < k, Accepts stdio size j) ∧
    ¬ Accepts stdio size k ∧ p.file = randomBytes rand 0 (min (1024 * (k + 1)) size -
      (pending stdio size k + partSize size k - stdio.room k - stdio.room (k + 1)))

/-- The arguments ask for a file of that size. -/
def Asks (argv : List String) (size : UInt64) : Prop :=
  ∃ program filePath argument blanks sign digits, argv = [program, filePath, argument] ∧
    IsNumeral argument.toList blanks sign digits ∧ size = numeralValue sign digits ∧ size ≠ 0

variable {rand stdio} {p : FileCreator} {buffer : List UInt8} {file size k : ℕ}

theorem length_randomBytes (i n : ℕ) : (randomBytes rand i n).length = n := by
  simp [randomBytes]

theorem randomBytes_append (i m n : ℕ) :
    randomBytes rand i m ++ randomBytes rand (i + m) n = randomBytes rand i (m + n) := by
  unfold randomBytes
  rw [← List.map_append, ← List.range'_append_1]

theorem take_randomBytes (i : ℕ) {m n : ℕ} (h : m ≤ n) :
    (randomBytes rand i n).take m = randomBytes rand i m := by
  obtain ⟨k, rfl⟩ := Nat.exists_eq_add_of_le h
  rw [← randomBytes_append]
  exact List.take_left' (length_randomBytes i m)

theorem fillBuffer_run (n : ℕ) {j : ℕ} (h : j + n ≤ buffer.length) :
    (fillBuffer rand n j buffer).run p =
      .ok (buffer.take j ++ (randomBytes rand p.rands n ++ buffer.drop (j + n)))
        { p with rands := p.rands + n } := by
  induction n generalizing j buffer p with
  | zero => simp [fillBuffer, randomBytes]
  | succ n ih =>
    let byte := UInt8.ofNat (rand p.rands % 256)
    have hset : buffer.set j byte = (buffer.take j ++ [byte]) ++ buffer.drop (j + 1) := by
      rw [List.set_eq_take_append_cons_drop, if_pos (by omega), List.append_assoc]
      rfl
    have hlen : (buffer.take j ++ [byte]).length = j + 1 := by
      rw [List.length_append, List.length_take_of_le (by omega), List.length_singleton]
    have hbytes : randomBytes rand p.rands (n + 1) = byte :: randomBytes rand (p.rands + 1) n := by
      unfold randomBytes
      rw [List.range'_succ, List.map_cons]
    have hrand : (randByte rand).run p = .ok byte { p with rands := p.rands + 1 } := rfl
    have hroom : j + 1 + n ≤ (buffer.set j byte).length := by
      rw [List.length_set]
      omega
    rw [fillBuffer, EStateM.run_bind, hrand]
    dsimp only
    rw [ih hroom, hset, List.take_left' hlen, ← List.drop_drop, List.drop_left' hlen,
      List.drop_drop, hbytes, List.append_assoc, Nat.add_right_comm j 1 n,
      Nat.add_right_comm p.rands 1 n]
    rfl

theorem partSize_le (size k : ℕ) : partSize size k ≤ 1024 := min_le_left _ _

theorem partSize_full (h : k < size / 1024) : partSize size k = 1024 := by
  unfold partSize
  omega

theorem partSize_last : partSize size (size / 1024) = size % 1024 := by
  unfold partSize
  omega

theorem add_partSize (size k : ℕ) :
    min (1024 * k) size + partSize size k = min (1024 * (k + 1)) size := by
  unfold partSize
  omega

/-- The first `k` parts were written, and the file is open. -/
structure Wrote (rand : ℕ → ℕ) (stdio : Stdio) (size file : ℕ) (p : FileCreator) (k : ℕ) :
    Prop where
  heap : p.heap.Owns {file}
  written : p.stream.written = randomBytes rand 0 (min (1024 * k) size)
  pending : p.stream.pending.length = pending stdio size k
  rands : p.rands = min (1024 * k) size
  calls : p.calls = k

/-- The first part that is not accepted ends the program, with the file closed. -/
structure Refused (rand : ℕ → ℕ) (stdio : Stdio) (size k : ℕ) (p : FileCreator) : Prop where
  heap : p.heap.Owns 0
  accepts : ¬ Accepts stdio size k
  file : p.file = randomBytes rand 0 (min (1024 * (k + 1)) size -
    (FileCreator.pending stdio size k + partSize size k - stdio.room k - stdio.room (k + 1)))

theorem fclose_run (file : ℕ) (p : FileCreator) : (fclose stdio file).run p = .ok () { p with
    heap := { p.heap with events := .release file :: p.heap.events }
    stream := p.stream.close (stdio.room p.calls)
    calls := p.calls + 1 } := rfl

theorem fwrite_run {data bytes : List UInt8} {itemSize count : ℕ}
    (h : data.take (itemSize * count) = bytes) (p : FileCreator) :
    (fwrite stdio data itemSize count).run p =
      .ok (if p.stream.due bytes (stdio.kept p.calls) ≤ stdio.room p.calls then count
          else (stdio.room p.calls - p.stream.pending.length) / itemSize)
        { p with
          stream := p.stream.write bytes (stdio.kept p.calls) (stdio.room p.calls)
          calls := p.calls + 1 } := by
  subst h
  unfold fwrite
  rw [EStateM.run_bind, EStateM.run_get]
  dsimp only
  rw [EStateM.run_bind, EStateM.run_set]
  dsimp only
  split <;> rfl

/-- What `fclose` leaves of the bytes that were written. -/
theorem file_close {n : ℕ} {stream : OutputStream UInt8}
    (h : stream.written = randomBytes rand 0 n) (room : ℕ) :
    (stream.close room).sink = randomBytes rand 0 (n - (stream.pending.length - room)) := by
  rw [OutputStream.sink_close, h, length_randomBytes, take_randomBytes 0 (Nat.sub_le n _)]

/-- A part is written, and none of its bytes is one that the buffer held before; or it is not
accepted, and the file is closed. -/
theorem Wrote.writePart (h : Wrote rand stdio size file p k) (hk : 1024 * k < size)
    (hbuffer : buffer.length = 1024) {itemSize count : ℕ}
    (hpart : itemSize * count = partSize size k) :
    (Accepts stdio size k ∧ ∃ buffer' p', buffer'.length = 1024 ∧
      Wrote rand stdio size file p' (k + 1) ∧
      (writePart rand stdio file itemSize count buffer).run p = .ok buffer' p') ∨
    ∃ e p', Refused rand stdio size k p' ∧
      (writePart rand stdio file itemSize count buffer).run p = .error e p' := by
  obtain ⟨hheap, hwritten, hpending, hrands, rfl⟩ := h
  have hle := partSize_le size p.calls
  have hpos : 0 < partSize size p.calls := by
    unfold partSize
    omega
  have hsum := add_partSize size p.calls
  generalize hm : partSize size p.calls = m at hpart hle hpos hsum
  let bytes := randomBytes rand p.rands m
  let stream := p.stream.write bytes (stdio.kept p.calls) (stdio.room p.calls)
  have hbytes : bytes.length = m := length_randomBytes _ _
  have hfill : (fillBuffer rand m 0 buffer).run p =
      .ok (bytes ++ buffer.drop m) { p with rands := p.rands + m } := by
    rw [fillBuffer_run m (by omega), List.take_zero, List.nil_append, Nat.zero_add]
  have hfilled : (bytes ++ buffer.drop m).length = 1024 := by
    rw [List.length_append, hbytes, List.length_drop]
    omega
  have haccess : ∀ q : FileCreator, (onHeap (access file)).run q =
      .ok () { q with heap := { q.heap with events := .access file :: q.heap.events } } :=
    fun _ => rfl
  have haccessed := hheap.accessed (Multiset.mem_singleton_self file)
  have htake : (bytes ++ buffer.drop m).take (itemSize * count) = bytes := by
    rw [hpart, List.take_left' hbytes]
  have hnew : stream.written = randomBytes rand 0 (min (1024 * (p.calls + 1)) size) := by
    have happend : randomBytes rand 0 p.rands ++ randomBytes rand (0 + p.rands) m = _ :=
      randomBytes_append 0 p.rands m
    rw [Nat.zero_add] at happend
    rw [OutputStream.written_write, hwritten, ← hrands, happend, hrands, hsum]
  have hdue : p.stream.due bytes (stdio.kept p.calls) ≤ stdio.room p.calls ↔
      Accepts stdio size p.calls := by
    rw [OutputStream.due_le_iff, hpending, hbytes, Accepts, hm]
  unfold FileCreator.writePart
  rw [hpart, EStateM.run_bind, hfill]
  dsimp only
  rw [EStateM.run_bind, haccess]
  dsimp only
  rw [EStateM.run_bind, fwrite_run htake]
  dsimp only
  by_cases haccepts : Accepts stdio size p.calls
  · rw [if_pos (hdue.mpr haccepts), if_neg (not_not.mpr rfl)]
    refine Or.inl ⟨haccepts, _, _, hfilled, ⟨haccessed, hnew, ?_, ?_, rfl⟩, rfl⟩
    · rw [FileCreator.pending, hm, ← hpending, ← hbytes]
      exact OutputStream.length_pending_of_due_le (hdue.mpr haccepts)
    · rw [← hsum, ← hrands]
  · have hlt := not_le.mp (mt hdue.mp haccepts)
    have hshort : (stdio.room p.calls - p.stream.pending.length) / itemSize < count := by
      apply Nat.div_lt_of_lt_mul
      unfold OutputStream.due at hlt
      rw [List.length_append, hbytes] at hlt
      omega
    rw [if_neg (mt hdue.mp haccepts), if_pos hshort.ne]
    refine Or.inr ⟨.EPERM, _, ⟨haccessed.released, haccepts, ?_⟩, rfl⟩
    rw [hm, ← hpending, ← hbytes, ← OutputStream.length_pending_of_lt_due hlt]
    exact file_close hnew _

/-- The chunks from number `k` on, up to the first one that is not accepted. -/
theorem Wrote.writeChunks (h : Wrote rand stdio size file p k) (hbuffer : buffer.length = 1024)
    (n : ℕ) (hn : 1024 * (k + n) ≤ size) :
    ((∀ j, k ≤ j → j < k + n → Accepts stdio size j) ∧ ∃ buffer' p', buffer'.length = 1024 ∧
      Wrote rand stdio size file p' (k + n) ∧
      (writeChunks rand stdio file n buffer).run p = .ok buffer' p') ∨
    ∃ j, j < k + n ∧ (∀ i, k ≤ i → i < j → Accepts stdio size i) ∧
      ∃ e p', Refused rand stdio size j p' ∧
        (writeChunks rand stdio file n buffer).run p = .error e p' := by
  induction n generalizing k p buffer with
  | zero => exact Or.inl ⟨by omega, buffer, p, hbuffer, h, rfl⟩
  | succ n ih =>
    have hpart : FILE_BUFFER_SIZE.toNat * 1 = partSize size k := by
      rw [partSize_full (by omega)]
      rfl
    unfold writeChunks
    rw [EStateM.run_bind]
    rcases h.writePart (by omega) hbuffer hpart with ⟨haccepts, buffer₁, p₁, hbuffer₁, h₁, hrun⟩ |
      ⟨e, p₁, hrefused, hrun⟩
    · rw [hrun]
      dsimp only
      have hk : k + 1 + n = k + (n + 1) := by omega
      have hall : ∀ {m : ℕ}, (∀ j, k + 1 ≤ j → j < m → Accepts stdio size j) →
          ∀ j, k ≤ j → j < m → Accepts stdio size j := by
        intro m hlater j hj hjm
        rcases Nat.eq_or_lt_of_le hj with rfl | hlt
        · exact haccepts
        · exact hlater j hlt hjm
      rcases ih h₁ hbuffer₁ (by omega) with ⟨hlater, buffer₂, p₂, hbuffer₂, h₂, hrun₂⟩ |
        ⟨j, hjn, hlater, hrefused⟩
      · rw [hk] at hlater h₂
        exact Or.inl ⟨hall hlater, buffer₂, p₂, hbuffer₂, h₂, hrun₂⟩
      · exact Or.inr ⟨j, by omega, hall hlater, hrefused⟩
    · rw [hrun]
      exact Or.inr ⟨k, by omega, by omega, e, p₁, hrefused, rfl⟩

theorem Refused.created {r : EStateM.Result Errno FileCreator Unit} {e : Errno}
    (h : Refused rand stdio size k p) (hk : 1024 * k < size)
    (hall : ∀ j < k, Accepts stdio size j) (hr : r = .error e p) : Created rand stdio size r := by
  rw [hr]
  exact ⟨h.heap, k, hk, hall, h.accepts, h.file⟩

/-- After the last part the file is closed. -/
theorem Wrote.created (h : Wrote rand stdio size file p k) (hk : k = parts size)
    (hall : ∀ j < k, Accepts stdio size j) :
    Created rand stdio size ((fclose stdio file).run p) := by
  have hmin : min (1024 * k) size = size := by
    unfold parts at hk
    omega
  obtain ⟨hheap, hwritten, hpending, hrands, rfl⟩ := h
  rw [hmin] at hwritten hrands
  rw [fclose_run]
  refine ⟨hheap.released, hrands, fun j hj => hall j ?_, ?_⟩
  · unfold parts at hk
    omega
  · rw [← hk, ← hpending]
    exact file_close hwritten _

theorem created_of_open (stdio : Stdio) (stored : List UInt8) (fSize : UInt64) {grant : ℕ → Bool}
    (hbuffer : buffer.length = 1024) (hgrant : grant 0 = true) :
    Created rand stdio fSize.toNat
      ((creatingDataFile rand stdio buffer fSize).run (start grant stored)) := by
  have hchunks : (fSize / FILE_BUFFER_SIZE).toNat = fSize.toNat / 1024 := UInt64.toNat_div _ _
  have hremaining : (fSize % FILE_BUFFER_SIZE).toNat = fSize.toNat % 1024 := UInt64.toNat_mod _ _
  generalize fSize.toNat = size at hchunks hremaining ⊢
  have hopen : (onHeap request).run (start grant stored) =
      .ok (some 0) { start grant stored with heap := (start grant stored).heap.granted } := by
    have hgrant' : (start grant stored).heap.grant (start grant stored).heap.requests = true :=
      hgrant
    unfold onHeap
    rw [zoom_run, request_run, if_pos hgrant']
    rfl
  have hwrote : Wrote rand stdio size 0 { start grant stored with
      heap := (start grant stored).heap.granted
      stream := ⟨[], []⟩ } 0 := by
    refine ⟨(Owns.start grant 0).granted, ?_, rfl, ?_, rfl⟩
    · rw [Nat.mul_zero, Nat.zero_min]
      rfl
    · rw [Nat.mul_zero, Nat.zero_min]
      rfl
  unfold creatingDataFile
  rw [EStateM.run_bind, hopen]
  dsimp only
  rw [EStateM.run_bind, run_modify]
  dsimp only
  rw [EStateM.run_bind, hchunks, hremaining]
  rcases hwrote.writeChunks hbuffer (size / 1024) (by omega) with
    ⟨hall, buffer₁, p₁, hbuffer₁, h₁, hrun⟩ | ⟨j, hj, hall, e, p₁, hrefused, hrun⟩
  · rw [Nat.zero_add] at hall h₁
    rw [hrun]
    dsimp only
    rw [EStateM.run_bind]
    unfold writeRemaining
    by_cases hrem : 0 < size % 1024
    · rw [if_pos hrem]
      have hpart : 1 * (size % 1024) = partSize size (size / 1024) := by
        rw [partSize_last, Nat.one_mul]
      rcases h₁.writePart (by omega) hbuffer₁ hpart with
        ⟨haccepts, buffer₂, p₂, -, h₂, hrun₂⟩ | ⟨e, p₂, hrefused, hrun₂⟩
      · rw [hrun₂]
        refine h₂.created ?_ fun j hj => ?_
        · unfold parts
          omega
        · rcases Nat.lt_succ_iff_lt_or_eq.mp hj with hlt | rfl
          · exact hall j (Nat.zero_le j) hlt
          · exact haccepts
      · rw [hrun₂]
        exact hrefused.created (by omega) (fun j hj => hall j (Nat.zero_le j) hj) rfl
    · rw [if_neg hrem]
      refine h₁.created ?_ fun j hj => hall j (Nat.zero_le j) hj
      unfold parts
      omega
  · rw [hrun]
    exact hrefused.created (by omega) (fun j hj => hall j (Nat.zero_le j) hj) rfl

theorem creatingDataFile_refused {grant : ℕ → Bool} {stored : List UInt8} {fSize : UInt64}
    (hgrant : ¬ grant 0 = true) :
    (creatingDataFile rand stdio buffer fSize).run (start grant stored) =
      .error .EPERM { start grant stored with heap := (start grant stored).heap.refused } := by
  have hgrant' : ¬ (start grant stored).heap.grant (start grant stored).heap.requests = true :=
    hgrant
  unfold creatingDataFile onHeap
  rw [EStateM.run_bind, zoom_run, request_run, if_neg hgrant']
  rfl

/-- What the file has, whether it was completed or not. -/
theorem file_of_created {x : Call FileCreator Unit} (h : Created rand stdio size (x.run p)) :
    ∃ n ≤ size, (answer x p).2.file = randomBytes rand 0 n := by
  cases hrun : x.run p with
  | ok u p' =>
    rw [hrun] at h
    rw [answer_ok hrun]
    exact ⟨_, Nat.sub_le _ _, h.2.2.2⟩
  | error e p' =>
    rw [hrun] at h
    obtain ⟨-, k, -, -, -, hfile⟩ := h
    rw [answer_error hrun]
    exact ⟨_, (Nat.sub_le _ _).trans (min_le_right _ _), hfile⟩

theorem pending_le (stdio : Stdio) (size k : ℕ) : pending stdio size k ≤ min (1024 * k) size := by
  induction k with
  | zero => exact Nat.zero_le _
  | succ k ih =>
    have hsum := add_partSize size k
    rw [pending]
    omega

/-- The file is complete if it has room for all of its bytes at any time. -/
theorem complete_of_room {x : Call FileCreator Unit} (h : Created rand stdio size (x.run p))
    (hroom : ∀ k, size ≤ stdio.room k) :
    (answer x p).1 = .ok () ∧ (answer x p).2.file = randomBytes rand 0 size := by
  cases hrun : x.run p with
  | ok u p' =>
    rw [hrun] at h
    obtain ⟨-, -, -, hfile⟩ := h
    have hpending := pending_le stdio size (parts size)
    have hclose := hroom (parts size)
    have hall : pending stdio size (parts size) - stdio.room (parts size) = 0 := by omega
    rw [hall, Nat.sub_zero] at hfile
    rw [answer_ok hrun]
    exact ⟨rfl, hfile⟩
  | error e p' =>
    rw [hrun] at h
    obtain ⟨-, k, -, -, hno, -⟩ := h
    refine absurd ?_ hno
    have hpending := pending_le stdio size k
    have hsum := add_partSize size k
    have hnow := hroom k
    unfold Accepts
    omega

/-- The size that a number is written as is the number. -/
theorem asks_toString (program filePath : String) (size : UInt64) (hne : size ≠ 0) :
    Asks [program, filePath, toString size.toNat] size := by
  have hlist : (toString size.toNat).toList = Nat.toDigits 10 size.toNat := by
    rw [Nat.toString_eq_ofList_toDigits, String.toList_ofList]
  obtain ⟨blanks, sign, digits, hnumeral, hsize⟩ :=
    isNumeral_of_strtoull (strtoull_toDigits size) hne
  exact ⟨program, filePath, _, blanks, sign, digits, rfl, hlist ▸ hnumeral, hsize, hne⟩

theorem created_of_asks (stdio : Stdio) {grant : ℕ → Bool} (stored : List UInt8)
    {argv : List String} {size : UInt64} (hbuffer : buffer.length = 1024)
    (h : Asks argv size) (hgrant : grant 0 = true) :
    Created rand stdio size.toNat ((main rand stdio buffer argv).run (start grant stored)) := by
  obtain ⟨program, filePath, argument, blanks, sign, digits, rfl, hnumeral, rfl, hne⟩ := h
  have hcreated : Created rand stdio (numeralValue sign digits).toNat _ :=
    created_of_open stdio stored (numeralValue sign digits) hbuffer hgrant
  dsimp only [main]
  rw [strtoull_of_isNumeral hnumeral]
  dsimp only
  rw [if_neg (by simp [hne]), EStateM.run_bind, attempt_run]
  cases hrun : (creatingDataFile rand stdio buffer (numeralValue sign digits)).run
    (start grant stored) with
  | ok u p =>
    rw [hrun] at hcreated
    exact hcreated
  | error e p =>
    rw [hrun] at hcreated
    exact hcreated

theorem fails_of_not_asks (rand : ℕ → ℕ) (stdio : Stdio) (buffer : List UInt8) {grant : ℕ → Bool}
    (stored : List UInt8) {argv : List String}
    (hno : ∀ size, ¬ (Asks argv size ∧ grant 0 = true)) :
    ∃ e p, (main rand stdio buffer argv).run (start grant stored) = .error e p ∧
      p.heap.Owns 0 ∧ p.file = stored ∧ p.rands = 0 := by
  have hfails : ∃ e p, (throw .EPERM : Call FileCreator Unit).run (start grant stored) =
      .error e p ∧ p.heap.Owns 0 ∧ p.file = stored ∧ p.rands = 0 :=
    ⟨.EPERM, _, rfl, .start grant 0, rfl, rfl⟩
  match argv with
  | [] | [_] | [_, _] | _ :: _ :: _ :: _ :: _ => exact hfails
  | [program, filePath, argument] =>
    dsimp only [main]
    cases hparse : strtoull argument.toList with
    | mk size endptr =>
      dsimp only
      by_cases hbad : endptr ≠ [] ∨ size = 0
      · rw [if_pos hbad]
        exact hfails
      · push Not at hbad
        obtain ⟨rfl, hne⟩ := hbad
        obtain ⟨blanks, sign, digits, hnumeral, hsize⟩ := isNumeral_of_strtoull hparse hne
        have hgrant : ¬ grant 0 = true := fun hgrant => hno size
          ⟨⟨program, filePath, argument, blanks, sign, digits, rfl, hnumeral, hsize, hne⟩, hgrant⟩
        rw [if_neg (by simp [hne]), EStateM.run_bind, attempt_run,
          creatingDataFile_refused hgrant]
        exact ⟨.EPERM, _, rfl, (Owns.start grant 0).refused, rfl, rfl⟩

/-- The program writes a file only if its argument is a numeral that is not zero; and then the file
has the bytes that the numeral asks for, as far as the stream could hand them on and the file had
room for them, each of them from `rand` and none from the buffer as it was before. The file is
closed in the end. -/
theorem file_created (rand : ℕ → ℕ) (stdio : Stdio) {buffer : List UInt8}
    (hbuffer : buffer.length = 1024) (grant : ℕ → Bool) (stored : List UInt8) (argv : List String) :
    (∀ size, Asks argv size → grant 0 = true →
      Created rand stdio size.toNat ((main rand stdio buffer argv).run (start grant stored))) ∧
    ((∀ size, ¬ (Asks argv size ∧ grant 0 = true)) →
      ∃ e p, (main rand stdio buffer argv).run (start grant stored) = .error e p ∧
        p.heap.Owns 0 ∧ p.file = stored ∧ p.rands = 0) :=
  ⟨fun _ h => created_of_asks stdio stored hbuffer h,
    fun hno => fails_of_not_asks rand stdio buffer stored hno⟩

/-- The stream holds back all of 1500 bytes, the file has room for ten when it is closed, and the
program returns zero. -/
theorem file_created_short : ∃ p,
    (main id ⟨fun _ => 4096, fun _ => 10⟩ (List.replicate 1024 0)
      ["creator", "data", toString (1500 : UInt64).toNat]).run (start (fun _ => true) []) =
        .ok () p ∧ p.file = randomBytes id 0 10 := by
  -- the number stays opaque, or the program would be run on it here
  obtain ⟨size, hsize⟩ : ∃ size : UInt64, size = 1500 := ⟨_, rfl⟩
  have hnat : size.toNat = 1500 := congrArg UInt64.toNat hsize
  have hasks := asks_toString "creator" "data" size (hsize ▸ by decide)
  have hbuffer : (List.replicate 1024 (0 : UInt8)).length = 1024 := List.length_replicate
  have hcreated := (file_created id ⟨fun _ => 4096, fun _ => 10⟩ hbuffer (fun _ => true) [] _).1
    size hasks rfl
  rw [← hsize]
  revert hcreated
  cases (main id ⟨fun _ => 4096, fun _ => 10⟩ (List.replicate 1024 0)
    ["creator", "data", toString size.toNat]).run (start (fun _ => true) []) with
  | ok u p =>
    rintro ⟨-, -, -, hfile⟩
    have hlost : pending ⟨fun _ => 4096, fun _ => 10⟩ 1500 (parts 1500) = 1500 := by decide
    rw [hnat, hlost] at hfile
    exact ⟨p, rfl, hfile⟩
  | error e p =>
    rintro ⟨-, k, hk, -, hno, -⟩
    rw [hnat] at hk hno
    rcases (by omega : k = 0 ∨ k = 1) with rfl | rfl
    · exact absurd (by decide) hno
    · exact absurd (by decide) hno

end FileCreator
end FileTransfer
