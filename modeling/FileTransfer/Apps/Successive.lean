import FileTransfer.Apps.Transfer

/-! Two transfers into the same file, one after the other. Nothing in the protocol or in the file
says where a transfer ends, and the file is never made shorter. -/
namespace FileTransfer
open Overlay

/-- The server goes on with its file, or opens the stored file again. -/
def Continues (f g : RamFile) : Prop :=
  g = f ∨ ∃ heap heap', (appSetupFile (some f.content)).run heap = .ok g heap'

section Successive
variable {layout : SizeLayout} {source source' : List UInt8} {stored : Option (List UInt8)}
  {net net' : Except Errno (ℕ → Option Errno)} {c c' : FileSenderClient} {f server server' : RamFile}
  {heap heap' heapS heapS' k k' : Heap} {deliveries deliveries' : List (List UInt8)}

theorem received_maxFileSize (hmax : f.maxFileSize = MAX_FILE_SIZE) {d : List UInt8}
    (hlen : d.length < 2 ^ 63) : (received layout f d).maxFileSize = MAX_FILE_SIZE := by
  rw [received_eq hmax hlen]
  by_cases hyes : Accepted layout d
  · rw [if_pos hyes]
    exact hmax
  · rw [if_neg hyes]
    exact hmax

theorem receivedAll_maxFileSize (hmax : f.maxFileSize = MAX_FILE_SIZE)
    (hlen : ∀ d ∈ deliveries, d.length < 2 ^ 63) :
    (receivedAll layout f deliveries).maxFileSize = MAX_FILE_SIZE := by
  induction deliveries generalizing f with
  | nil => exact hmax
  | cons d ds ih =>
    apply ih (received_maxFileSize hmax (hlen d List.mem_cons_self))
    exact fun d' hd' => hlen d' (List.mem_cons_of_mem d hd')

theorem Continues.file {g : RamFile} (h : Continues f g) (hmax : f.maxFileSize = MAX_FILE_SIZE) :
    g.maxFileSize = MAX_FILE_SIZE ∧ g.content = f.content := by
  rcases h with rfl | ⟨heap, heap', hs⟩
  · exact ⟨hmax, rfl⟩
  · exact appSetupFile_ok hs

/-- The datagrams of a source that fits put it over the start of the file. -/
theorem receivedAll_content_eq (hf : f.maxFileSize = MAX_FILE_SIZE)
    (hc : (fileSenderSetup source net).run heap = .ok c heap')
    (hok : ∃ c₁, (fileSenderSend layout (sourceSize source)).run c = .ok () c₁)
    (hmax : source.length ≤ MAX_FILE_SIZE.toNat)
    (hall : ∀ d, d ∈ deliveries ↔ d ∈ emitted layout (sourceSize source) c) :
    (receivedAll layout f deliveries).maxFileSize = MAX_FILE_SIZE ∧
      (receivedAll layout f deliveries).content = source ++ f.content.drop source.length := by
  have hchunks : ∀ d ∈ deliveries, IsChunk layout source d :=
    fun d hd => isChunk_of_mem_emitted hc d ((hall d).mp hd)
  have hagrees := agrees_of_acceptedChunks hchunks
  refine ⟨receivedAll_maxFileSize hf (deliveries_lt hchunks), ?_⟩
  rw [receivedAll_content_accepted hf hchunks]
  apply writeAll_eq_append (fun w hw => (hagrees w hw).1) fun w hw => (hagrees w hw).2
  exact covers_of_all_delivered hc hok hmax hchunks fun d hd => (hall d).mpr hd

/-- After two transfers the file has the second source, and behind it what the first one and
the file before it leave there. -/
theorem successive_transfers (hs : (appSetupFile stored).run heapS = .ok server heapS')
    (hc : (fileSenderSetup source net).run heap = .ok c heap')
    (hc' : (fileSenderSetup source' net').run k = .ok c' k')
    (hok : ∃ c₁, (fileSenderSend layout (sourceSize source)).run c = .ok () c₁)
    (hok' : ∃ c₁, (fileSenderSend layout (sourceSize source')).run c' = .ok () c₁)
    (hmax : source.length ≤ MAX_FILE_SIZE.toNat) (hmax' : source'.length ≤ MAX_FILE_SIZE.toNat)
    (hall : ∀ d, d ∈ deliveries ↔ d ∈ emitted layout (sourceSize source) c)
    (hall' : ∀ d, d ∈ deliveries' ↔ d ∈ emitted layout (sourceSize source') c')
    (hnext : Continues (receivedAll layout server deliveries) server') :
    (receivedAll layout server' deliveries').content =
        source' ++ (source ++ server.content.drop source.length).drop source'.length ∧
      ((receivedAll layout server' deliveries').content = source' ↔
        source.length ≤ source'.length ∧ server.content.length ≤ source'.length) := by
  obtain ⟨hf, hcontent⟩ := receivedAll_content_eq (appSetupFile_ok hs).1 hc hok hmax hall
  obtain ⟨hf', hcontinue⟩ := hnext.file hf
  obtain ⟨-, hcontent'⟩ := receivedAll_content_eq hf' hc' hok' hmax' hall'
  rw [hcontinue, hcontent] at hcontent'
  refine ⟨hcontent', ?_⟩
  rw [hcontent', List.append_right_eq_self, List.drop_eq_nil_iff, List.length_append,
    List.length_drop]
  omega

set_option maxRecDepth 10000 in
theorem successive_transfers_two : ∃ c c' server heap heap' heapS,
    (fileSenderSetup [1, 2] (.ok fun _ => none)).run ⟨fun _ => true, 0, []⟩ = .ok c heap ∧
      (fileSenderSetup [3, 4, 5] (.ok fun _ => none)).run ⟨fun _ => true, 0, []⟩ = .ok c' heap' ∧
      (appSetupFile (some [9])).run ⟨fun _ => true, 0, []⟩ = .ok server heapS ∧
      (receivedAll .littleEndian
        (receivedAll .littleEndian server (emitted .littleEndian (sourceSize [1, 2]) c))
        (emitted .littleEndian (sourceSize [3, 4, 5]) c')).content = [3, 4, 5] := by
  obtain ⟨c, c', server, heap, heap', heapS, hc, hc', hs, hsend, hsend', hstored⟩ :
      ∃ c c' server heap heap' heapS,
        (fileSenderSetup [1, 2] (.ok fun _ => none)).run ⟨fun _ => true, 0, []⟩ = .ok c heap ∧
          (fileSenderSetup [3, 4, 5] (.ok fun _ => none)).run ⟨fun _ => true, 0, []⟩ =
            .ok c' heap' ∧
          (appSetupFile (some [9])).run ⟨fun _ => true, 0, []⟩ = .ok server heapS ∧
          (∀ n, c.netClient.sendto n = none) ∧ (∀ n, c'.netClient.sendto n = none) ∧
          server.content = [9] :=
    ⟨_, _, _, _, _, _, rfl, rfl, rfl, fun _ => rfl, fun _ => rfl, rfl⟩
  have hequal := (successive_transfers hs hc hc' (ends_of_emitted .littleEndian hc hsend)
    (ends_of_emitted .littleEndian hc' hsend') (by decide) (by decide) (fun _ => Iff.rfl) (fun _ => Iff.rfl)
    (Or.inl rfl)).2
  rw [hstored] at hequal
  exact ⟨c, c', server, heap, heap', heapS, hc, hc', hs, hequal.mpr ⟨by decide, by decide⟩⟩

set_option maxRecDepth 10000 in
/-- The second byte of the first source is still there after the transfer of a single byte. -/
theorem longer_source_left : ∃ c c' server heap heap' heapS,
    (fileSenderSetup [1, 2] (.ok fun _ => none)).run ⟨fun _ => true, 0, []⟩ = .ok c heap ∧
      (fileSenderSetup [3] (.ok fun _ => none)).run ⟨fun _ => true, 0, []⟩ = .ok c' heap' ∧
      (appSetupFile none).run ⟨fun _ => true, 0, []⟩ = .ok server heapS ∧
      (∃ c₁, (fileSenderSend .littleEndian (sourceSize [1, 2])).run c = .ok () c₁) ∧
      (∃ c₁, (fileSenderSend .littleEndian (sourceSize [3])).run c' = .ok () c₁) ∧
      (receivedAll .littleEndian
        (receivedAll .littleEndian server (emitted .littleEndian (sourceSize [1, 2]) c))
        (emitted .littleEndian (sourceSize [3]) c')).content = [3, 2] := by
  obtain ⟨c, c', server, heap, heap', heapS, hc, hc', hs, hsend, hsend', hcontent⟩ :
      ∃ c c' server heap heap' heapS,
        (fileSenderSetup [1, 2] (.ok fun _ => none)).run ⟨fun _ => true, 0, []⟩ = .ok c heap ∧
          (fileSenderSetup [3] (.ok fun _ => none)).run ⟨fun _ => true, 0, []⟩ = .ok c' heap' ∧
          (appSetupFile none).run ⟨fun _ => true, 0, []⟩ = .ok server heapS ∧
          (∀ n, c.netClient.sendto n = none) ∧ (∀ n, c'.netClient.sendto n = none) ∧
          (receivedAll .littleEndian
            (receivedAll .littleEndian server (emitted .littleEndian (sourceSize [1, 2]) c))
            (emitted .littleEndian (sourceSize [3]) c')).content = [3, 2] :=
    ⟨_, _, _, _, _, _, rfl, rfl, rfl, fun _ => rfl, fun _ => rfl, by decide +kernel⟩
  exact ⟨c, c', server, heap, heap', heapS, hc, hc', hs, ends_of_emitted _ hc hsend,
    ends_of_emitted _ hc' hsend', hcontent⟩

end Successive
end FileTransfer
