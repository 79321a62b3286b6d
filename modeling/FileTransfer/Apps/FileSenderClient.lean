import FileTransfer.Apps.FileTransferProtocol
import FileTransfer.ClientServer.RamFileCtrl

/-! The sender of `file_sender_client.c`, and what `net_client_send` hands to the network. -/
namespace FileTransfer
open Overlay

/-- `sendto n` is the error of `sendto` after `n` datagrams were sent, if it fails then. -/
structure NetClient where
  sent : List (List UInt8)
  sendto : ℕ → Option Errno

def netClientSend (data : List UInt8) : Call NetClient Unit := do
  let c ← get
  match c.sendto c.sent.length with
  | some e => throw e
  | none => set { c with sent := c.sent ++ [data] }

structure FileSenderClient where
  fileMngr : RamFile
  netClient : NetClient
  dataChunk : List UInt8

def MAX_FILE_CHUNK_SIZE : UInt64 := 1024
def TOTAL_SIZE : UInt64 := sizeofDataChunkProtocol + MAX_FILE_CHUNK_SIZE

/-- `main` up to its loop, for a file with the content `source`. A size that is negative is
returned itself. `netClient` is what `net_client_create` gives, with the errors of `sendto`. -/
def fileSenderSetup (source : List UInt8) (netClient : Except Errno (ℕ → Option Errno)) :
    HeapCall FileSenderClient := do
  let fileSize := ramFileSizeInBytes source
  if fileSize < 0 then throw .EINVAL
  let fileMngr ← ramFileCreate (some source) ⟨fileSize.toUInt64, false⟩
  match netClient with
  | .error e =>
    ramFileDestroy fileMngr
    throw e
  | .ok sendto => return ⟨fileMngr, ⟨[], sendto⟩, List.replicate TOTAL_SIZE.toNat 0⟩

def onFileMngr {α : Type} : Call RamFile α → Call FileSenderClient α :=
  zoom (·.fileMngr) fun c fileMngr => { c with fileMngr }

def onNetClient {α : Type} : Call NetClient α → Call FileSenderClient α :=
  zoom (·.netClient) fun c netClient => { c with netClient }

/-- The body of the loop. -/
def sendChunk (layout : SizeLayout) (fileOffset dataChunkSize : UInt64) :
    Call FileSenderClient Unit := do
  let buffer := (← get).dataChunk
  let data ← onFileMngr (ramFileRead fileOffset (some (chunkData buffer)) dataChunkSize)
  let dataChunk := fillChunk layout buffer data fileOffset
  modify fun c => { c with dataChunk }
  onNetClient (netClientSend (dataChunk.take (dataChunkSize + sizeofDataChunkProtocol).toNat))

/-- `while (file_offset < file_size)`, for a number of rounds. -/
def sendLoop (layout : SizeLayout) (fileSize : UInt64) : ℕ → UInt64 → Call FileSenderClient Unit
  | 0, _ => return
  | rounds + 1, fileOffset => do
    if fileOffset < fileSize then
      let dataChunkSize :=
        if fileSize - fileOffset < MAX_FILE_CHUNK_SIZE then fileSize - fileOffset
        else MAX_FILE_CHUNK_SIZE
      sendChunk layout fileOffset dataChunkSize
      sendLoop layout fileSize rounds (fileOffset + dataChunkSize)
    else
      return

/-- The loop of `main`; every round sends a byte at least. -/
def fileSenderSend (layout : SizeLayout) (fileSize : UInt64) : Call FileSenderClient Unit :=
  sendLoop layout fileSize fileSize.toNat 0

/-! ### What is sent -/

/-- A datagram with some bytes of the source, at their offset. -/
structure IsChunk (layout : SizeLayout) (source dataChunk : List UInt8) : Prop where
  pos : 16 < dataChunk.length
  le : dataChunk.length ≤ 1040
  inside : (chunk layout dataChunk).1 + (chunk layout dataChunk).2.length ≤ source.length
  agrees : Agrees source (chunk layout dataChunk)

/-- The state of the sender in front of a round. -/
structure Sending (layout : SizeLayout) (source : List UInt8) (sendto : ℕ → Option Errno)
    (fileSize : UInt64) (c : FileSenderClient) (fileOffset : UInt64) : Prop where
  content : c.fileMngr.content = source
  maxFileSize : c.fileMngr.maxFileSize = fileSize
  dataChunk : 1040 ≤ c.dataChunk.length
  sendto : c.netClient.sendto = sendto
  sent : ∀ d ∈ c.netClient.sent, IsChunk layout source d
  covered : ∀ i < fileOffset.toNat, ∃ d ∈ c.netClient.sent, Covers (chunk layout d) i

/-- The state of the sender after `sendto` failed. -/
structure SendFailed (layout : SizeLayout) (source : List UInt8) (sendto : ℕ → Option Errno)
    (c : FileSenderClient) : Prop where
  sendto : sendto c.netClient.sent.length ≠ none
  sent : ∀ d ∈ c.netClient.sent, IsChunk layout source d

/-- The state of the sender after its loop. -/
structure Sent (layout : SizeLayout) (source : List UInt8) (fileSize : UInt64)
    (c : FileSenderClient) : Prop where
  sent : ∀ d ∈ c.netClient.sent, IsChunk layout source d
  covered : ∀ i < fileSize.toNat, ∃ d ∈ c.netClient.sent, Covers (chunk layout d) i

section Send
variable {layout : SizeLayout} {source : List UInt8} {sendto : ℕ → Option Errno}
  {fileSize fileOffset dataChunkSize : UInt64} {c : FileSenderClient}

theorem netClientSend_run (data : List UInt8) (n : NetClient) :
    (netClientSend data).run n = match n.sendto n.sent.length with
      | some e => .error e n
      | none => .ok () { n with sent := n.sent ++ [data] } := by
  unfold netClientSend
  rw [EStateM.run_bind, EStateM.run_get]
  dsimp only
  cases n.sendto n.sent.length <;> rfl

/-- The datagram of one round. -/
theorem isChunk_fillChunk (layout : SizeLayout) {buffer : List UInt8} (rest : List UInt8) {n : ℕ}
    (hbuffer : 16 ≤ buffer.length) (hpos : 0 < n) (hle : n ≤ 1024)
    (hend : fileOffset.toNat + n ≤ source.length) :
    let data := (source.drop fileOffset.toNat).take n
    let d := (fillChunk layout buffer (data ++ rest) fileOffset).take (16 + n)
    IsChunk layout source d ∧ chunk layout d = (fileOffset.toNat, data) := by
  intro data d
  have hbytes : ((source.drop fileOffset.toNat).take n).length = n := by
    apply List.length_take_of_le
    rw [List.length_drop]
    omega
  have hchunk : chunk layout d = (fileOffset.toNat, (source.drop fileOffset.toNat).take n) := by
    unfold chunk
    rw [chunkOffset_take (Nat.le_add_right 16 n), chunkOffset_fillChunk, chunkData_take,
      chunkData_fillChunk hbuffer, List.take_left' hbytes]
  have hlen : d.length = 16 + n := by
    apply List.length_take_of_le
    rw [length_fillChunk hbuffer, List.length_append, hbytes]
    omega
  refine ⟨⟨by omega, by omega, ?_, ?_⟩, hchunk⟩
  · rw [hchunk, hbytes]
    exact hend
  · intro i hi
    rw [hchunk] at hi ⊢
    have hlt : i - fileOffset.toNat < n := by
      have := hi.2
      rw [hbytes] at this
      have := hi.1
      dsimp only at *
      omega
    have hadd : fileOffset.toNat + (i - fileOffset.toNat) = i := Nat.add_sub_cancel' hi.1
    rw [List.getElem?_take_of_lt hlt, List.getElem?_drop, hadd]

variable (hsize : fileSize.toNat < 2 ^ 63) (hsource : fileSize.toNat ≤ source.length)

include hsize hsource in
/-- The reading succeeds, and then it depends on `sendto`. -/
theorem Sending.sendChunk_run (h : Sending layout source sendto fileSize c fileOffset)
    (hpos : 0 < dataChunkSize.toNat) (hle : dataChunkSize.toNat ≤ 1024)
    (hend : fileOffset.toNat + dataChunkSize.toNat ≤ fileSize.toNat) :
    let data := (source.drop fileOffset.toNat).take dataChunkSize.toNat
    let rest := (chunkData c.dataChunk).drop dataChunkSize.toNat
    let dataChunk := fillChunk layout c.dataChunk (data ++ rest) fileOffset
    (sendChunk layout fileOffset dataChunkSize).run c =
      match sendto c.netClient.sent.length with
      | some e => .error e { c with dataChunk }
      | none => .ok () { c with
        dataChunk
        netClient := { c.netClient with
          sent := c.netClient.sent ++ [dataChunk.take (16 + dataChunkSize.toNat)] } } := by
  intro data rest dataChunk
  have hmax : c.fileMngr.maxFileSize.toNat < 2 ^ 63 := by rwa [h.maxFileSize]
  have hfits : c.fileMngr.Fits fileOffset dataChunkSize := ⟨hpos, by rwa [h.maxFileSize]⟩
  have hroom : dataChunkSize.toNat ≤ (chunkData c.dataChunk).length := by
    have := h.dataChunk
    unfold chunkData
    rw [List.length_drop, toNat_sizeofDataChunkProtocol]
    omega
  have hin : fileOffset.toNat + dataChunkSize.toNat ≤ c.fileMngr.content.length := by
    rw [h.content]
    omega
  have hlen : (dataChunkSize + sizeofDataChunkProtocol).toNat = 16 + dataChunkSize.toNat := by
    rw [UInt64.toNat_add, toNat_sizeofDataChunkProtocol, Nat.mod_eq_of_lt (by omega), add_comm]
  have hread := ramFileRead_fits hmax hfits hroom
  rw [if_pos hin, h.content] at hread
  unfold FileTransfer.sendChunk onFileMngr onNetClient
  rw [EStateM.run_bind, EStateM.run_get]
  dsimp only
  rw [EStateM.run_bind, zoom_run, hread]
  dsimp only
  rw [EStateM.run_bind, run_modify]
  dsimp only
  rw [zoom_run, netClientSend_run, hlen, h.sendto]
  cases sendto c.netClient.sent.length <;> rfl

include hsize hsource in
/-- A round sends the next chunk, or the sending of it fails. -/
theorem Sending.sendChunk (h : Sending layout source sendto fileSize c fileOffset)
    (hpos : 0 < dataChunkSize.toNat) (hle : dataChunkSize.toNat ≤ 1024)
    (hend : fileOffset.toNat + dataChunkSize.toNat ≤ fileSize.toNat) :
    Leaves (fun _ c' => Sending layout source sendto fileSize c' (fileOffset + dataChunkSize))
      (SendFailed layout source sendto)
      ((sendChunk layout fileOffset dataChunkSize).run c) := by
  have hbuffer := h.dataChunk
  have hheader : 16 ≤ c.dataChunk.length := le_trans (by decide) hbuffer
  have hbytes : ((source.drop fileOffset.toNat).take dataChunkSize.toNat).length =
      dataChunkSize.toNat := by
    apply List.length_take_of_le
    rw [List.length_drop]
    omega
  have hnext : (fileOffset + dataChunkSize).toNat = fileOffset.toNat + dataChunkSize.toNat := by
    rw [UInt64.toNat_add, Nat.mod_eq_of_lt (by omega)]
  obtain ⟨hd, hchunk⟩ := isChunk_fillChunk layout
    ((chunkData c.dataChunk).drop dataChunkSize.toNat) hheader hpos hle (hend.trans hsource)
  rw [h.sendChunk_run hsize hsource hpos hle hend]
  cases hsendto : sendto c.netClient.sent.length with
  | some e => exact ⟨hsendto ▸ Option.some_ne_none e, h.sent⟩
  | none =>
    refine ⟨h.content, h.maxFileSize, ?_, h.sendto, ?_, ?_⟩
    · have hrest : (chunkData c.dataChunk).length = c.dataChunk.length - 16 := List.length_drop
      dsimp only
      rw [length_fillChunk hheader, List.length_append, List.length_drop, hbytes]
      omega
    · intro d' hd'
      rcases List.mem_append.mp hd' with hold | hnew
      · exact h.sent d' hold
      · rw [List.mem_singleton.mp hnew]
        exact hd
    · intro i hi
      rw [hnext] at hi
      by_cases hold : i < fileOffset.toNat
      · obtain ⟨d', hd', hcov⟩ := h.covered i hold
        exact ⟨d', List.mem_append_left _ hd', hcov⟩
      · refine ⟨_, List.mem_append_right _ (List.mem_singleton_self _), ?_⟩
        rw [hchunk]
        unfold Covers
        dsimp only
        rw [hbytes]
        omega

include hsize hsource in
/-- Whatever is sent is a chunk of the source, and when the loop ends well all of it was sent. -/
theorem Sending.sendLoop {rounds : ℕ} (h : Sending layout source sendto fileSize c fileOffset)
    (hrounds : fileSize.toNat ≤ fileOffset.toNat + rounds) :
    Leaves (fun _ => Sent layout source fileSize) (SendFailed layout source sendto)
      ((sendLoop layout fileSize rounds fileOffset).run c) := by
  induction rounds generalizing c fileOffset with
  | zero => exact ⟨h.sent, fun i hi => h.covered i (hi.trans_le hrounds)⟩
  | succ rounds ih =>
    unfold FileTransfer.sendLoop
    by_cases hlt : fileOffset < fileSize
    · rw [if_pos hlt]
      dsimp only
      have hsub : (fileSize - fileOffset).toNat = fileSize.toNat - fileOffset.toNat :=
        UInt64.toNat_sub_of_le _ _ (UInt64.le_of_lt hlt)
      rw [UInt64.lt_iff_toNat_lt] at hlt
      obtain ⟨n, hn, hpos, hle, hend⟩ : ∃ n, n = (if fileSize - fileOffset < MAX_FILE_CHUNK_SIZE then
          fileSize - fileOffset else MAX_FILE_CHUNK_SIZE) ∧ 0 < n.toNat ∧ n.toNat ≤ 1024 ∧
          fileOffset.toNat + n.toNat ≤ fileSize.toNat := by
        refine ⟨_, rfl, ?_⟩
        have hchunk : MAX_FILE_CHUNK_SIZE.toNat = 1024 := rfl
        split_ifs with hlast
        · rw [UInt64.lt_iff_toNat_lt] at hlast
          omega
        · rw [UInt64.lt_iff_toNat_lt] at hlast
          omega
      rw [← hn]
      have hnext : (fileOffset + n).toNat = fileOffset.toNat + n.toNat := by
        rw [UInt64.toNat_add, Nat.mod_eq_of_lt (by omega)]
      refine (h.sendChunk hsize hsource hpos hle hend).bind fun _ c' h' => ?_
      apply ih h'
      omega
    · rw [if_neg hlt]
      rw [UInt64.lt_iff_toNat_lt, Nat.not_lt] at hlt
      exact ⟨h.sent, fun i hi => h.covered i (hi.trans_le hlt)⟩

/-- The size that the sender works with. -/
def sourceSize (source : List UInt8) : UInt64 := (ramFileSizeInBytes source).toUInt64

theorem sourceSize_le (source : List UInt8) : (sourceSize source).toNat ≤ source.length := by
  unfold sourceSize ramFileSizeInBytes
  rw [UInt64.toUInt64_toInt64, UInt64.toNat_ofNat']
  exact Nat.mod_le _ _

theorem sourceSize_eq {source : List UInt8} (h : source.length < 2 ^ 64) :
    (sourceSize source).toNat = source.length := by
  unfold sourceSize ramFileSizeInBytes
  rw [UInt64.toUInt64_toInt64, UInt64.toNat_ofNat', Nat.mod_eq_of_lt h]

theorem fileSenderSetup_ok (layout : SizeLayout) {net : Except Errno (ℕ → Option Errno)}
    {heap heap' : Heap}
    (hc : (fileSenderSetup source net).run heap = .ok c heap') :
    net = .ok c.netClient.sendto ∧ (sourceSize source).toNat < 2 ^ 63 ∧ c.netClient.sent = [] ∧
      (sourceSize source ≠ 0 →
        Sending layout source c.netClient.sendto (sourceSize source) c 0) := by
  unfold fileSenderSetup at hc
  by_cases hneg : ramFileSizeInBytes source < 0
  · rw [if_pos hneg] at hc
    cases hc
  have hsize : (sourceSize source).toNat < 2 ^ 63 := by
    have hno := (Word.toInt64_neg_iff (sourceSize source)).not.mp hneg
    omega
  rw [if_neg hneg] at hc
  obtain ⟨f, h₁, hf, hc⟩ := bind_ok hc
  obtain ⟨hmax, hcontent, -⟩ := ramFileCreate_ok hf
  cases net with
  | error e =>
    obtain ⟨_, _, _, herr⟩ := bind_ok hc
    cases herr
  | ok sendto =>
    cases hc
    refine ⟨rfl, hsize, rfl, fun hne => ⟨hcontent, hmax.trans (if_neg hne), ?_, rfl, ?_, ?_⟩⟩
    · exact List.length_replicate.ge
    · intro d hd
      cases hd
    · intro i hi
      cases hi

/-- What the loop of `main` leaves; for an empty file it sends nothing. -/
theorem fileSenderSend_leaves (layout : SizeLayout) {net : Except Errno (ℕ → Option Errno)}
    {heap heap' : Heap}
    (hc : (fileSenderSetup source net).run heap = .ok c heap') :
    Leaves (fun _ => Sent layout source (sourceSize source))
      (SendFailed layout source c.netClient.sendto)
      ((fileSenderSend layout (sourceSize source)).run c) := by
  obtain ⟨-, hsize, hsent, hsending⟩ := fileSenderSetup_ok layout hc
  unfold fileSenderSend
  by_cases hzero : sourceSize source = 0
  · rw [hzero]
    refine ⟨?_, fun i hi => nomatch hi⟩
    intro d hd
    rw [hsent] at hd
    cases hd
  · apply (hsending hzero).sendLoop hsize (sourceSize_le source)
    exact Nat.le_add_left _ _

end Send
end FileTransfer
