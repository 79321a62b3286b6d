import FileTransfer.Apps.FileTransferProtocol
import FileTransfer.ClientServer.RamFileCtrl

/-! The receiver of `file_sender_server.c`: the file that it writes, and what it does with a
datagram. -/
namespace FileTransfer
open Overlay

def MAX_FILE_SIZE : UInt64 := 1 * 1024 * 1024
def MAX_FILE_BUFFER_SIZE : UInt64 := 1024

/-- The file of `app_setup`; `stored` is what it held before, if there was one. -/
def appSetupFile (stored : Option (List UInt8)) : HeapCall RamFile :=
  ramFileCreate stored ⟨MAX_FILE_SIZE, false⟩

/-- An error of the write is only logged. -/
def serverDataToFileCallback (layout : SizeLayout) (data : List UInt8) : Call RamFile Unit := do
  let dataSize := UInt64.ofNat data.length
  if dataSize < sizeofDataChunkProtocol then return
  let fileDataSize := dataSize - sizeofDataChunkProtocol
  if MAX_FILE_BUFFER_SIZE < fileDataSize then return
  let _ ← attempt (ramFileWrite (chunkOffset layout data) (some (chunkData data)) fileDataSize)

/-- The file after a datagram, and after several. -/
def received (layout : SizeLayout) (f : RamFile) (data : List UInt8) : RamFile :=
  match (serverDataToFileCallback layout data).run f with
  | .ok _ f | .error _ f => f

def receivedAll (layout : SizeLayout) (f : RamFile) (deliveries : List (List UInt8)) : RamFile :=
  deliveries.foldl (received layout) f

/-- The data of the datagram, of the right size, ends inside of the file's bound. -/
def Accepted (layout : SizeLayout) (data : List UInt8) : Prop :=
  16 < data.length ∧ data.length ≤ 1040 ∧
    (chunk layout data).1 + (chunk layout data).2.length ≤ MAX_FILE_SIZE.toNat

instance (layout : SizeLayout) (data : List UInt8) : Decidable (Accepted layout data) :=
  inferInstanceAs (Decidable (_ ∧ _ ∧ _))

section Receive
variable {layout : SizeLayout} {f : RamFile} {data : List UInt8} {deliveries : List (List UInt8)}

/-- A datagram that can be received is written where it says, or leaves the file as it is. -/
theorem received_eq (hmax : f.maxFileSize = MAX_FILE_SIZE) (hlen : data.length < 2 ^ 63) :
    received layout f data = if Accepted layout data then
      f.write (chunk layout data).1 (chunk layout data).2 else f := by
  have hsize : (UInt64.ofNat data.length).toNat = data.length := by
    rw [UInt64.toNat_ofNat', Nat.mod_eq_of_lt (by omega)]
  have hbound : f.maxFileSize.toNat < 2 ^ 63 := by
    rw [hmax]
    decide
  have hdata : (chunkData data).length = data.length - 16 := List.length_drop
  unfold received serverDataToFileCallback
  dsimp only
  by_cases hshort : UInt64.ofNat data.length < sizeofDataChunkProtocol
  · have hno : ¬ Accepted layout data := by
      rw [UInt64.lt_iff_toNat_lt, hsize, toNat_sizeofDataChunkProtocol] at hshort
      unfold Accepted
      omega
    rw [if_pos hshort, if_neg hno]
    rfl
  have hle : sizeofDataChunkProtocol ≤ UInt64.ofNat data.length := UInt64.not_lt.mp hshort
  have hfile : (UInt64.ofNat data.length - sizeofDataChunkProtocol).toNat = data.length - 16 := by
    rw [UInt64.toNat_sub_of_le _ _ hle, hsize, toNat_sizeofDataChunkProtocol]
  rw [UInt64.le_iff_toNat_le, hsize, toNat_sizeofDataChunkProtocol] at hle
  rw [if_neg hshort]
  by_cases hlong : MAX_FILE_BUFFER_SIZE < UInt64.ofNat data.length - sizeofDataChunkProtocol
  · have hno : ¬ Accepted layout data := by
      rw [UInt64.lt_iff_toNat_lt, hfile, show MAX_FILE_BUFFER_SIZE.toNat = 1024 from rfl] at hlong
      unfold Accepted
      omega
    rw [if_pos hlong, if_neg hno]
    rfl
  rw [if_neg hlong, EStateM.run_bind, attempt_run]
  rw [UInt64.lt_iff_toNat_lt, hfile, show MAX_FILE_BUFFER_SIZE.toNat = 1024 from rfl] at hlong
  have hfits : f.Fits (chunkOffset layout data)
      (UInt64.ofNat data.length - sizeofDataChunkProtocol) ↔ Accepted layout data := by
    unfold RamFile.Fits Accepted chunk
    rw [hfile, hmax, hdata]
    omega
  by_cases hyes : Accepted layout data
  · rw [if_pos hyes, ramFileWrite_fits hbound (hfits.mpr hyes) (by rw [hfile, hdata]), hfile,
      List.take_of_length_le hdata.le]
    rfl
  · obtain ⟨e, he⟩ := ramFileWrite_refused hbound (by rw [hfile]; omega) (some (chunkData data))
      fun _ => hfits.not.mpr hyes
    rw [if_neg hyes, he]
    rfl

/-- A sequence of datagrams leaves the writes of those that were accepted, in their order. -/
theorem receivedAll_content (hmax : f.maxFileSize = MAX_FILE_SIZE)
    (hlen : ∀ d ∈ deliveries, d.length < 2 ^ 63) :
    (receivedAll layout f deliveries).content =
      writeAll 0 f.content ((deliveries.filter (Accepted layout)).map (chunk layout)) := by
  induction deliveries generalizing f with
  | nil => rfl
  | cons d ds ih =>
    have hd := hlen d List.mem_cons_self
    have hds : ∀ d' ∈ ds, d'.length < 2 ^ 63 := fun d' hd' => hlen d' (List.mem_cons_of_mem d hd')
    have hcons : receivedAll layout f (d :: ds) = receivedAll layout (received layout f d) ds := rfl
    rw [hcons, received_eq hmax hd]
    by_cases hyes : Accepted layout d
    · have hfilter : (d :: ds).filter (fun d => decide (Accepted layout d)) =
          d :: ds.filter (fun d => decide (Accepted layout d)) :=
        List.filter_cons_of_pos (decide_eq_true hyes)
      rw [if_pos hyes, hfilter, List.map_cons, writeAll_cons]
      exact ih hmax hds
    · have hfilter : (d :: ds).filter (fun d => decide (Accepted layout d)) =
          ds.filter (fun d => decide (Accepted layout d)) :=
        List.filter_cons_of_neg (by rwa [decide_eq_true_eq])
      rw [if_neg hyes, hfilter]
      exact ih hmax hds

end Receive
end FileTransfer
