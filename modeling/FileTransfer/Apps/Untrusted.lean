import FileTransfer.Apps.Successive

/-! What datagrams of any origin can do to the file of the receiver. -/
namespace FileTransfer
open Overlay

/-- 10 kB, the size of the buffer that `_net_server_recv_loop` receives into. -/
def SERVER_BUFFER_SIZE : ℕ := 10 * 1024

/-- `new` is `old` with the data of the datagram at the offset in its header, and zeros between
the old end and the data. -/
structure PayloadWritten (layout : SizeLayout) (old new d : List UInt8) : Prop where
  length : new.length = max old.length ((chunkOffset layout d).toNat + (chunkData d).length)
  inside : ∀ i, (chunkOffset layout d).toNat ≤ i →
    i < (chunkOffset layout d).toNat + (chunkData d).length →
    new[i]? = (chunkData d)[i - (chunkOffset layout d).toNat]?
  outside : ∀ i < old.length, i < (chunkOffset layout d).toNat ∨
    (chunkOffset layout d).toNat + (chunkData d).length ≤ i → new[i]? = old[i]?
  filler : ∀ i, old.length ≤ i → i < (chunkOffset layout d).toNat → new[i]? = some 0

/-- The length of the data passes, and the exact sum of offset and length does. -/
def Passes (layout : SizeLayout) (d : List UInt8) : Prop :=
  1 ≤ (chunkData d).length ∧ (chunkData d).length ≤ MAX_FILE_BUFFER_SIZE.toNat ∧
    (chunkOffset layout d).toNat + (chunkData d).length ≤ MAX_FILE_SIZE.toNat

section Untrusted
variable {layout : SizeLayout} {f server : RamFile} {d old : List UInt8}
  {stored : Option (List UInt8)} {heap heap' : Heap} {deliveries : List (List UInt8)}

theorem payloadWritten_writeAt :
    PayloadWritten layout old (writeAt 0 old (chunk layout d).1 (chunk layout d).2) d where
  length := length_writeAt
  inside _ h h' := writeAt_inside h h'
  outside _ hi h := writeAt_outside h hi
  filler _ h h' := writeAt_gap h' h

theorem passes_iff : Passes layout d ↔ Accepted layout d := by
  have hdata : (chunkData d).length = d.length - 16 := List.length_drop
  have hmax : MAX_FILE_BUFFER_SIZE.toNat = 1024 := rfl
  unfold Passes Accepted chunk
  rw [hdata, hmax]
  omega

theorem length_lt_of_buffer (h : d.length ≤ SERVER_BUFFER_SIZE) : d.length < 2 ^ 63 :=
  h.trans_lt (by decide)

/-- The next datagram is written as a whole, inside of the bound, or changes nothing. -/
theorem received_passes (hf : f.maxFileSize = MAX_FILE_SIZE) (hd : d.length ≤ SERVER_BUFFER_SIZE) :
    (Passes layout d → PayloadWritten layout f.content (received layout f d).content d) ∧
      (¬ Passes layout d → received layout f d = f) := by
  rw [passes_iff, received_eq hf (length_lt_of_buffer hd)]
  constructor
  · intro hyes
    rw [if_pos hyes]
    exact payloadWritten_writeAt
  · intro hno
    rw [if_neg hno]

theorem length_receivedAll_le (hf : f.maxFileSize = MAX_FILE_SIZE)
    (hdeliveries : ∀ d ∈ deliveries, d.length ≤ SERVER_BUFFER_SIZE) :
    (receivedAll layout f deliveries).content.length ≤
      max f.content.length MAX_FILE_SIZE.toNat := by
  rw [receivedAll_content hf fun d hd => length_lt_of_buffer (hdeliveries d hd)]
  apply length_writeAll_le (le_max_left _ _)
  intro w hw
  obtain ⟨d, -, hyes, rfl⟩ := mem_acceptedChunks.mp hw
  exact hyes.2.2.trans (le_max_right _ _)

/-- Whatever arrives, the file stays inside of its bound or of its first length, and each datagram
either writes its data where its header says or changes nothing. -/
theorem datagrams_in_bounds (layout : SizeLayout)
    (hs : (appSetupFile stored).run heap = .ok server heap')
    (hdeliveries : ∀ d ∈ deliveries, d.length ≤ SERVER_BUFFER_SIZE) :
    (receivedAll layout server deliveries).content.length ≤
        max server.content.length MAX_FILE_SIZE.toNat ∧
      ∀ d, d.length ≤ SERVER_BUFFER_SIZE →
        (Passes layout d → PayloadWritten layout (receivedAll layout server deliveries).content
          (receivedAll layout server (deliveries ++ [d])).content d) ∧
        (¬ Passes layout d → receivedAll layout server (deliveries ++ [d]) =
          receivedAll layout server deliveries) := by
  have hserver := (appSetupFile_ok hs).1
  have hmax : (receivedAll layout server deliveries).maxFileSize = MAX_FILE_SIZE :=
    receivedAll_maxFileSize hserver fun d hd => length_lt_of_buffer (hdeliveries d hd)
  refine ⟨length_receivedAll_le hserver hdeliveries, ?_⟩
  intro d hd
  have hnext : receivedAll layout server (deliveries ++ [d]) =
      received layout (receivedAll layout server deliveries) d := List.foldl_concat ..
  rw [hnext]
  exact received_passes hmax hd

/-- An offset close to `2 ^ 64`, of which the sum with the length wraps to a small one. -/
theorem datagrams_in_bounds_wrapping : ∃ server heap,
    (appSetupFile (some [1, 2, 3])).run ⟨fun _ => true, 0, []⟩ = .ok server heap ∧
      receivedAll .littleEndian server [fillChunk .littleEndian (List.replicate 16 0)
        [7, 7] 18446744073709551615] = server := by
  obtain ⟨server, heap, hs⟩ : ∃ server heap,
      (appSetupFile (some [1, 2, 3])).run ⟨fun _ => true, 0, []⟩ = .ok server heap := ⟨_, _, rfl⟩
  have hnone : ∀ d ∈ ([] : List (List UInt8)), d.length ≤ SERVER_BUFFER_SIZE := by
    intro d hd
    cases hd
  have hnext := (datagrams_in_bounds .littleEndian hs hnone).2
    (fillChunk .littleEndian (List.replicate 16 0) [7, 7] 18446744073709551615) (by decide +kernel)
  refine ⟨server, heap, hs, hnext.2 ?_⟩
  unfold Passes
  decide +kernel

end Untrusted
end FileTransfer
