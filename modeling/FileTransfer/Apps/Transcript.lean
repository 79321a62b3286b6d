import FileTransfer.Apps.Transfer

/-! What the sender puts on the wire, byte by byte: the datagrams of its file in their order, up
to the first one that `sendto` refuses. -/
namespace FileTransfer
open Overlay

/-- The bytes that go with the offset `1024 * k`. -/
def cell (data : List UInt8) (k : ℕ) : List UInt8 := (data.drop (1024 * k)).take 1024

/-- Four bytes of flags and four of padding, the offset, and the bytes of the cell. -/
def wireChunk (layout : SizeLayout) (data : List UInt8) (k : ℕ) : List UInt8 :=
  List.replicate 8 0 ++ (layout.toBytes (UInt64.ofNat (1024 * k)) ++ cell data k)

/-- The datagrams of a file. -/
def wire (layout : SizeLayout) (data : List UInt8) : List (List UInt8) :=
  (List.range ((data.length + 1023) / 1024)).map (wireChunk layout data)

/-- The datagrams are sent in their order, all of them or those before the first one that
`sendto` refuses. -/
def Transcribes (layout : SizeLayout) (data : List UInt8) (sendto : ℕ → Option Errno) :
    EStateM.Result Errno FileSenderClient Unit → Prop
  | .ok _ c => c.netClient.sent = wire layout data ∧
    ∀ j < (wire layout data).length, sendto j = none
  | .error e c => ∃ m < (wire layout data).length, c.netClient.sent = (wire layout data).take m ∧
    (∀ j < m, sendto j = none) ∧ sendto m = some e

section Wire
variable {layout : SizeLayout} {data : List UInt8} {k m : ℕ}

theorem length_wire : (wire layout data).length = (data.length + 1023) / 1024 := by
  unfold wire
  rw [List.length_map, List.length_range]

theorem wire_take_succ (hk : 1024 * k < data.length) :
    (wire layout data).take (k + 1) = (wire layout data).take k ++ [wireChunk layout data k] := by
  unfold wire
  rw [← List.map_take, ← List.map_take, List.take_range, List.take_range, min_eq_left (by omega),
    min_eq_left (by omega), List.range_succ, List.map_append]
  rfl

theorem length_cell : (cell data k).length = min 1024 (data.length - 1024 * k) := by
  unfold cell
  rw [List.length_take, List.length_drop]

/-- Put together again the cells are the file. -/
theorem flatten_cells (data : List UInt8) (n : ℕ) :
    ((List.range n).map (cell data)).flatten = data.take (1024 * n) := by
  induction n with
  | zero => rfl
  | succ n ih =>
    rw [List.range_succ, List.map_append, List.flatten_append, ih]
    have hlast : (List.map (cell data) [n]).flatten = (data.drop (1024 * n)).take 1024 :=
      List.append_nil _
    rw [hlast, ← List.take_add, Nat.mul_succ]

/-- The data of the datagrams, put together, is the file. -/
theorem flatten_wire (layout : SizeLayout) (data : List UInt8) :
    ((wire layout data).map chunkData).flatten = data := by
  have hcells : (wire layout data).map chunkData =
      (List.range ((data.length + 1023) / 1024)).map (cell data) := by
    unfold wire
    rw [List.map_map]
    congr 1
    funext k
    unfold Function.comp wireChunk chunkData
    rw [← List.append_assoc]
    apply List.drop_left'
    rw [List.length_append, List.length_replicate, layout.length_toBytes]
    rfl
  rw [hcells, flatten_cells]
  apply List.take_of_length_le
  omega

end Wire

section Transcript
variable {layout : SizeLayout} {source : List UInt8} {sendto : ℕ → Option Errno}
  {fileSize fileOffset dataChunkSize : UInt64} {c : FileSenderClient} {k : ℕ}

/-- A buffer whose first eight bytes are zero keeps them. -/
theorem fillChunk_eq (layout : SizeLayout) {buffer : List UInt8} (data : List UInt8)
    (offset : UInt64) (hlen : 16 ≤ buffer.length)
    (hzero : buffer.take 8 = List.replicate 8 0) :
    fillChunk layout buffer data offset =
      List.replicate 8 0 ++ (layout.toBytes offset ++ data) := by
  have hset : setChunkData buffer data =
      List.replicate 8 0 ++ ((buffer.drop 8).take 8 ++ data) := by
    unfold setChunkData
    rw [← hzero, ← List.append_assoc, ← List.take_add]
    rfl
  have hmid : ((buffer.drop 8).take 8).length = 8 := by
    rw [List.length_take, List.length_drop]
    omega
  have hclear : clearChunkFlags (setChunkData buffer data) = setChunkData buffer data := by
    rw [hset]
    rfl
  unfold fillChunk setChunkOffset
  rw [hclear, hset]
  unfold writeAt
  have hdrop : (List.replicate 8 (0 : UInt8) ++ ((buffer.drop 8).take 8 ++ data)).drop
      (8 + (layout.toBytes offset).length) = data := by
    rw [layout.length_toBytes, ← List.drop_drop, List.drop_left' (List.length_replicate),
      List.drop_left' hmid]
  have htake : (List.replicate 8 (0 : UInt8) ++ ((buffer.drop 8).take 8 ++ data)).take 8 =
      List.replicate 8 0 := List.take_left' (List.length_replicate)
  rw [hdrop, htake]
  rfl

theorem take_datagram (layout : SizeLayout) (offset : UInt64) {bytes : List UInt8}
    (rest : List UInt8) {n : ℕ} (hn : bytes.length = n) :
    (List.replicate 8 0 ++ (layout.toBytes offset ++ (bytes ++ rest))).take (16 + n) =
      List.replicate 8 0 ++ (layout.toBytes offset ++ bytes) := by
  rw [← List.append_assoc (layout.toBytes offset), ← List.append_assoc]
  apply List.take_left'
  rw [List.length_append, List.length_append, List.length_replicate, layout.length_toBytes]
  omega

/-- The sender after `k` rounds. -/
structure AtRound (layout : SizeLayout) (source : List UInt8) (sendto : ℕ → Option Errno)
    (fileSize : UInt64) (k : ℕ) (c : FileSenderClient) (fileOffset : UInt64) : Prop where
  sending : Sending layout source sendto fileSize c fileOffset
  offset : fileOffset.toNat = min (1024 * k) fileSize.toNat
  header : c.dataChunk.take 8 = List.replicate 8 0
  sent : c.netClient.sent = (wire layout (source.take fileSize.toNat)).take k
  accepted : ∀ j < k, sendto j = none

variable (hsize : fileSize.toNat < 2 ^ 63) (hsource : fileSize.toNat ≤ source.length)

include hsize hsource in
/-- A round sends the next datagram, or is refused. -/
theorem AtRound.sendChunk (h : AtRound layout source sendto fileSize k c fileOffset)
    (hlt : 1024 * k < fileSize.toNat)
    (hn : dataChunkSize.toNat = min 1024 (fileSize.toNat - 1024 * k)) :
    match (sendChunk layout fileOffset dataChunkSize).run c with
    | .ok _ c' => AtRound layout source sendto fileSize (k + 1) c' (fileOffset + dataChunkSize)
    | .error e c' => c'.netClient.sent = c.netClient.sent ∧ sendto k = some e := by
  have hoffset : fileOffset.toNat = 1024 * k := by
    rw [h.offset]
    omega
  have hlen : (source.take fileSize.toNat).length = fileSize.toNat :=
    List.length_take_of_le hsource
  have hcount : c.netClient.sent.length = k := by
    rw [h.sent, List.length_take, length_wire, hlen]
    omega
  have hpos : 0 < dataChunkSize.toNat := by omega
  have hle : dataChunkSize.toNat ≤ 1024 := by omega
  have hend : fileOffset.toNat + dataChunkSize.toNat ≤ fileSize.toNat := by omega
  have hbuffer := h.sending.dataChunk
  have hleaves := h.sending.sendChunk hsize hsource hpos hle hend
  rw [h.sending.sendChunk_run hsize hsource hpos hle hend, hcount] at hleaves ⊢
  cases hsendto : sendto k with
  | some e => exact ⟨rfl, rfl⟩
  | none =>
    rw [hsendto] at hleaves
    have hfill := fillChunk_eq layout ((source.drop fileOffset.toNat).take dataChunkSize.toNat ++
      (chunkData c.dataChunk).drop dataChunkSize.toNat) fileOffset (le_trans (by decide) hbuffer)
      h.header
    refine ⟨hleaves, ?_, ?_, ?_, ?_⟩
    · rw [UInt64.toNat_add, Nat.mod_eq_of_lt (by omega)]
      omega
    · dsimp only
      rw [hfill]
      exact List.take_left' List.length_replicate
    · have hlt' : 1024 * k < (source.take fileSize.toNat).length := by rwa [hlen]
      have hcell : (source.drop fileOffset.toNat).take dataChunkSize.toNat =
          cell (source.take fileSize.toNat) k := by
        unfold cell
        rw [List.drop_take, List.take_take, hoffset, hn]
      have hbytes : ((source.drop fileOffset.toNat).take dataChunkSize.toNat).length =
          dataChunkSize.toNat := by
        rw [hcell, length_cell, hlen, hn]
      have hoff : UInt64.ofNat (1024 * k) = fileOffset := by rw [← hoffset, UInt64.ofNat_toNat]
      rw [wire_take_succ hlt', ← h.sent, hfill, take_datagram layout fileOffset _ hbytes, hcell]
      unfold wireChunk
      rw [hoff]
    · intro j hj
      rcases Nat.lt_or_eq_of_le (Nat.le_of_lt_succ hj) with hj | rfl
      · exact h.accepted j hj
      · exact hsendto

include hsource in
/-- In front of a round that is not the last, with the size of its data. -/
theorem AtRound.next (h : AtRound layout source sendto fileSize k c fileOffset)
    (hlt : fileOffset < fileSize) : 1024 * k < fileSize.toNat ∧
      (if fileSize - fileOffset < MAX_FILE_CHUNK_SIZE then fileSize - fileOffset
        else MAX_FILE_CHUNK_SIZE).toNat = min 1024 (fileSize.toNat - 1024 * k) ∧
      k < (wire layout (source.take fileSize.toNat)).length := by
  have hsub : (fileSize - fileOffset).toNat = fileSize.toNat - fileOffset.toNat :=
    UInt64.toNat_sub_of_le _ _ (UInt64.le_of_lt hlt)
  have hchunk : MAX_FILE_CHUNK_SIZE.toNat = 1024 := rfl
  have hoffset := h.offset
  rw [UInt64.lt_iff_toNat_lt] at hlt
  refine ⟨by omega, ?_, ?_⟩
  · split_ifs with hlast
    · rw [UInt64.lt_iff_toNat_lt] at hlast
      omega
    · rw [UInt64.lt_iff_toNat_lt] at hlast
      omega
  · rw [length_wire, List.length_take_of_le hsource]
    omega

include hsource in
/-- After the last round everything was sent. -/
theorem AtRound.done (h : AtRound layout source sendto fileSize k c fileOffset)
    (hle : ¬ fileOffset < fileSize) :
    c.netClient.sent = wire layout (source.take fileSize.toNat) ∧
      ∀ j < (wire layout (source.take fileSize.toNat)).length, sendto j = none := by
  have hk : (wire layout (source.take fileSize.toNat)).length ≤ k := by
    have hoffset := h.offset
    rw [UInt64.lt_iff_toNat_lt] at hle
    rw [length_wire, List.length_take_of_le hsource]
    omega
  exact ⟨h.sent.trans (List.take_of_length_le hk), fun j hj => h.accepted j (hj.trans_le hk)⟩

include hsize hsource in
theorem AtRound.sendLoop {rounds : ℕ} (h : AtRound layout source sendto fileSize k c fileOffset)
    (hrounds : fileSize.toNat ≤ fileOffset.toNat + rounds) :
    Transcribes layout (source.take fileSize.toNat) sendto
      ((sendLoop layout fileSize rounds fileOffset).run c) := by
  induction rounds generalizing k c fileOffset with
  | zero =>
    apply h.done hsource
    rw [UInt64.lt_iff_toNat_lt]
    exact Nat.not_lt.mpr hrounds
  | succ rounds ih =>
    unfold FileTransfer.sendLoop
    by_cases hlt : fileOffset < fileSize
    · obtain ⟨hk, hn, hwire⟩ := h.next hsource hlt
      rw [if_pos hlt, EStateM.run_bind]
      generalize (if fileSize - fileOffset < MAX_FILE_CHUNK_SIZE then fileSize - fileOffset
        else MAX_FILE_CHUNK_SIZE) = n at hn ⊢
      have hround := h.sendChunk hsize hsource hk hn
      cases hrun : (FileTransfer.sendChunk layout fileOffset n).run c with
      | ok u c' =>
        rw [hrun] at hround
        apply ih hround
        have hoffset := h.offset
        rw [UInt64.toNat_add, Nat.mod_eq_of_lt (by omega)]
        omega
      | error e c' =>
        rw [hrun] at hround
        obtain ⟨hsent, he⟩ := hround
        exact ⟨k, hwire, hsent.trans h.sent, h.accepted, he⟩
    · rw [if_neg hlt]
      exact h.done hsource hlt

theorem fileSenderSetup_dataChunk {net : Except Errno (ℕ → Option Errno)} {heap heap' : Heap}
    (hc : (fileSenderSetup source net).run heap = .ok c heap') :
    c.dataChunk = List.replicate TOTAL_SIZE.toNat 0 := by
  unfold fileSenderSetup at hc
  by_cases hneg : ramFileSizeInBytes source < 0
  · rw [if_pos hneg] at hc
    cases hc
  rw [if_neg hneg] at hc
  obtain ⟨f, h₁, -, hc⟩ := bind_ok hc
  cases net with
  | error e =>
    obtain ⟨_, _, _, herr⟩ := bind_ok hc
    cases herr
  | ok sendto =>
    cases hc
    rfl

/-- The sender in front of its first round. -/
theorem atRound_zero {net : Except Errno (ℕ → Option Errno)} {heap heap' : Heap}
    (hc : (fileSenderSetup source net).run heap = .ok c heap') (hzero : sourceSize source ≠ 0) :
    AtRound layout source c.netClient.sendto (sourceSize source) 0 c 0 := by
  obtain ⟨-, -, hsent, hsending⟩ := fileSenderSetup_ok layout hc
  refine ⟨hsending hzero, ?_, ?_, hsent, fun j hj => absurd hj (Nat.not_lt_zero j)⟩
  · rw [Nat.mul_zero, Nat.zero_min]
    rfl
  · rw [fileSenderSetup_dataChunk hc]
    rfl

theorem fileSenderSend_transcribes (layout : SizeLayout)
    {net : Except Errno (ℕ → Option Errno)} {heap heap' : Heap}
    (hc : (fileSenderSetup source net).run heap = .ok c heap') :
    Transcribes layout (source.take (sourceSize source).toNat) c.netClient.sendto
      ((fileSenderSend layout (sourceSize source)).run c) := by
  obtain ⟨-, hsize, hsent, -⟩ := fileSenderSetup_ok layout hc
  by_cases hzero : sourceSize source = 0
  · have hnil : wire layout (source.take (sourceSize source).toNat) = [] := by
      rw [← List.length_eq_zero_iff, length_wire, List.length_take, hzero, UInt64.toNat_zero,
        Nat.zero_min]
    unfold fileSenderSend Transcribes
    rw [hnil, hzero]
    exact ⟨hsent, fun j hj => absurd hj (Nat.not_lt_zero j)⟩
  · exact (atRound_zero hc hzero).sendLoop hsize (sourceSize_le source) (Nat.le_add_left _ _)

/-- The sender puts the datagrams of its file on the wire, up to the first one that is refused,
and the data of all of them is the file. -/
theorem sender_transcribes (layout : SizeLayout) {net : Except Errno (ℕ → Option Errno)}
    {heap heap' : Heap} (hc : (fileSenderSetup source net).run heap = .ok c heap') :
    let data := source.take (sourceSize source).toNat
    Transcribes layout data c.netClient.sendto
        ((fileSenderSend layout (sourceSize source)).run c) ∧
      ((wire layout data).map chunkData).flatten = data :=
  ⟨fileSenderSend_transcribes layout hc, flatten_wire layout _⟩

set_option maxRecDepth 10000 in
/-- The third datagram of three is refused. -/
theorem sender_transcribes_refused : ∃ source c heap,
    (fileSenderSetup source (.ok fun n => if n = 2 then some .EPERM else none)).run
        ⟨fun _ => true, 0, []⟩ = .ok c heap ∧
      (wire .littleEndian source).length = 3 ∧
      Transcribes .littleEndian source c.netClient.sendto
        ((fileSenderSend .littleEndian (sourceSize source)).run c) := by
  obtain ⟨source, c, heap, hc, hlen⟩ : ∃ source c heap,
      (fileSenderSetup source (.ok fun n => if n = 2 then some .EPERM else none)).run
          ⟨fun _ => true, 0, []⟩ = .ok c heap ∧ source.length = 2100 :=
    ⟨(List.range 2100).map UInt8.ofNat, _, _, rfl, by rw [List.length_map, List.length_range]⟩
  have hall : source.take (sourceSize source).toNat = source := by
    rw [sourceSize_eq (by rw [hlen]; decide), List.take_length]
  have htranscribes := (sender_transcribes .littleEndian hc).1
  rw [hall] at htranscribes
  refine ⟨source, c, heap, hc, ?_, htranscribes⟩
  rw [length_wire, hlen]

end Transcript
end FileTransfer
