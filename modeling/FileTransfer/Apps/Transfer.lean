import FileTransfer.Apps.FileSenderClient
import FileTransfer.Apps.FileSenderServer

/-! A transfer over a network that loses, reorders and repeats datagrams: the sender and the
receiver put together. -/
namespace FileTransfer
open Overlay

/-- The datagrams that the loop of the sender has sent when it ends. -/
def emitted (layout : SizeLayout) (fileSize : UInt64) (c : FileSenderClient) : List (List UInt8) :=
  match (fileSenderSend layout fileSize).run c with
  | .ok _ c | .error _ c => c.netClient.sent

/-- A chunk with the position `i` was delivered, and ends inside of the receiver's bound. -/
def Delivered (layout : SizeLayout) (deliveries : List (List UInt8)) (i : ℕ) : Prop :=
  ∃ d ∈ deliveries, Covers (chunk layout d) i ∧
    (chunk layout d).1 + (chunk layout d).2.length ≤ MAX_FILE_SIZE.toNat

section Transfer
variable {layout : SizeLayout} {source : List UInt8} {stored : Option (List UInt8)}
  {net : Except Errno (ℕ → Option Errno)} {c : FileSenderClient} {server : RamFile}
  {heap heap' : Heap} {deliveries : List (List UInt8)} {i : ℕ}

theorem isChunk_of_mem_emitted (hc : (fileSenderSetup source net).run heap = .ok c heap') :
    ∀ d ∈ emitted layout (sourceSize source) c, IsChunk layout source d := by
  have hleaves := fileSenderSend_leaves layout hc
  unfold emitted
  cases hr : (fileSenderSend layout (sourceSize source)).run c with
  | ok u c' =>
    rw [hr] at hleaves
    exact hleaves.sent
  | error e c' =>
    rw [hr] at hleaves
    exact hleaves.sent

theorem covers_of_emitted (hc : (fileSenderSetup source net).run heap = .ok c heap')
    {c' : FileSenderClient} (hok : (fileSenderSend layout (sourceSize source)).run c = .ok () c') :
    ∀ i < (sourceSize source).toNat,
      ∃ d ∈ emitted layout (sourceSize source) c, Covers (chunk layout d) i := by
  have hleaves := fileSenderSend_leaves layout hc
  unfold emitted
  rw [hok] at hleaves ⊢
  exact hleaves.covered

theorem appSetupFile_ok (hs : (appSetupFile stored).run heap = .ok server heap') :
    server.maxFileSize = MAX_FILE_SIZE ∧ server.content = stored.getD [] := by
  unfold appSetupFile at hs
  obtain ⟨hmax, hcontent, -⟩ := ramFileCreate_ok hs
  exact ⟨hmax, hcontent⟩

theorem ends_of_emitted (layout : SizeLayout)
    (hc : (fileSenderSetup source net).run heap = .ok c heap')
    (hsendto : ∀ n, c.netClient.sendto n = none) :
    ∃ c', (fileSenderSend layout (sourceSize source)).run c = .ok () c' := by
  have hleaves := fileSenderSend_leaves layout hc
  cases hr : (fileSenderSend layout (sourceSize source)).run c with
  | ok u c' => exact ⟨c', rfl⟩
  | error e c' =>
    rw [hr] at hleaves
    exact absurd (hsendto _) hleaves.sendto

/-- Of the datagrams of a sender those are accepted that end inside of the bound. -/
theorem IsChunk.accepted_iff {d : List UInt8} (h : IsChunk layout source d) :
    Accepted layout d ↔
      (chunk layout d).1 + (chunk layout d).2.length ≤ MAX_FILE_SIZE.toNat := by
  unfold Accepted
  exact ⟨fun hd => hd.2.2, fun hd => ⟨h.pos, h.le, hd⟩⟩

/-- The writes of the accepted datagrams. -/
def acceptedChunks (layout : SizeLayout) (deliveries : List (List UInt8)) : List (ℕ × List UInt8) :=
  (deliveries.filter (Accepted layout)).map (chunk layout)

theorem mem_acceptedChunks {w : ℕ × List UInt8} :
    w ∈ acceptedChunks layout deliveries ↔
      ∃ d ∈ deliveries, Accepted layout d ∧ chunk layout d = w := by
  unfold acceptedChunks
  simp only [List.mem_map, List.mem_filter, decide_eq_true_eq, and_assoc]

theorem delivered_iff (h : ∀ d ∈ deliveries, IsChunk layout source d) :
    Delivered layout deliveries i ↔ ∃ w ∈ acceptedChunks layout deliveries, Covers w i := by
  constructor
  · intro hi
    obtain ⟨d, hd, hcov, hend⟩ := hi
    exact ⟨_, mem_acceptedChunks.mpr ⟨d, hd, (h d hd).accepted_iff.mpr hend, rfl⟩, hcov⟩
  · intro hi
    obtain ⟨w, hw, hcov⟩ := hi
    obtain ⟨d, hd, hyes, rfl⟩ := mem_acceptedChunks.mp hw
    exact ⟨d, hd, hcov, hyes.2.2⟩

theorem deliveries_lt (h : ∀ d ∈ deliveries, IsChunk layout source d) :
    ∀ d ∈ deliveries, d.length < 2 ^ 63 := by
  intro d hd
  exact (h d hd).le.trans_lt (by decide)

theorem receivedAll_content_accepted (hmax : server.maxFileSize = MAX_FILE_SIZE)
    (h : ∀ d ∈ deliveries, IsChunk layout source d) :
    (receivedAll layout server deliveries).content =
      writeAll 0 server.content (acceptedChunks layout deliveries) :=
  receivedAll_content hmax (deliveries_lt h)

theorem agrees_of_acceptedChunks (h : ∀ d ∈ deliveries, IsChunk layout source d) :
    ∀ w ∈ acceptedChunks layout deliveries,
      Agrees source w ∧ w.1 + w.2.length ≤ source.length := by
  intro w hw
  obtain ⟨d, hd, -, rfl⟩ := mem_acceptedChunks.mp hw
  exact ⟨(h d hd).agrees, (h d hd).inside⟩

/-- When all datagrams of a source that fits arrive, every byte of it does. -/
theorem covers_of_all_delivered (hc : (fileSenderSetup source net).run heap = .ok c heap')
    (hok : ∃ c', (fileSenderSend layout (sourceSize source)).run c = .ok () c')
    (hmax : source.length ≤ MAX_FILE_SIZE.toNat)
    (h : ∀ d ∈ deliveries, IsChunk layout source d)
    (hall : emitted layout (sourceSize source) c ⊆ deliveries) :
    ∀ i < source.length, ∃ w ∈ acceptedChunks layout deliveries, Covers w i := by
  obtain ⟨c', hok⟩ := hok
  intro i hi
  rw [← sourceSize_eq (hmax.trans_lt (by decide))] at hi
  obtain ⟨d, hd, hcov⟩ := covers_of_emitted hc hok i hi
  have hinside := (isChunk_of_mem_emitted hc d hd).inside
  exact (delivered_iff h).mp ⟨d, hall hd, hcov, hinside.trans hmax⟩

/-- Whatever the network does with the datagrams, the file of the receiver has the bytes of the
source where a chunk of it arrived, and elsewhere what it had before. -/
theorem file_transferred {heapS heapS' : Heap}
    (hc : (fileSenderSetup source net).run heap = .ok c heap')
    (hs : (appSetupFile stored).run heapS = .ok server heapS')
    (hdeliveries : deliveries ⊆ emitted layout (sourceSize source) c) :
    let content := (receivedAll layout server deliveries).content
    (∀ i, Delivered layout deliveries i → i < source.length ∧ content[i]? = source[i]?) ∧
    (∀ i, ¬ Delivered layout deliveries i →
      (i < server.content.length → content[i]? = server.content[i]?) ∧
      (server.content.length ≤ i → i < content.length → content[i]? = some 0)) ∧
    ((∀ n, c.netClient.sendto n = none) →
      ∃ c', (fileSenderSend layout (sourceSize source)).run c = .ok () c') ∧
    (source.length ≤ MAX_FILE_SIZE.toNat → server.content = [] →
      (∃ c', (fileSenderSend layout (sourceSize source)).run c = .ok () c') →
      emitted layout (sourceSize source) c ⊆ deliveries → content = source) := by
  intro content
  have hchunks : ∀ d ∈ deliveries, IsChunk layout source d :=
    fun d hd => isChunk_of_mem_emitted hc d (hdeliveries hd)
  have hcontent : content = writeAll 0 server.content (acceptedChunks layout deliveries) :=
    receivedAll_content_accepted (appSetupFile_ok hs).1 hchunks
  have hagrees : ∀ w ∈ acceptedChunks layout deliveries, Agrees source w :=
    fun w hw => (agrees_of_acceptedChunks hchunks w hw).1
  have hinside : ∀ w ∈ acceptedChunks layout deliveries, w.1 + w.2.length ≤ source.length :=
    fun w hw => (agrees_of_acceptedChunks hchunks w hw).2
  rw [hcontent]
  refine ⟨?_, ?_, ends_of_emitted layout hc, ?_⟩
  · intro i hi
    obtain ⟨w, hw, hcov⟩ := (delivered_iff hchunks).mp hi
    exact ⟨hcov.2.trans_le (hinside w hw), writeAll_covered hagrees ⟨w, hw, hcov⟩⟩
  · intro i hi
    have hno : ∀ w ∈ acceptedChunks layout deliveries, ¬ Covers w i :=
      fun w hw hcov => hi ((delivered_iff hchunks).mpr ⟨w, hw, hcov⟩)
    exact ⟨writeAll_uncovered hno, writeAll_gap hno⟩
  · intro hmax hempty hok hall
    rw [hempty]
    exact writeAll_nil_eq hagrees hinside (covers_of_all_delivered hc hok hmax hchunks hall)

set_option maxRecDepth 10000 in
theorem file_transferred_two : ∃ source c server heap heapS,
    (fileSenderSetup source (.ok fun _ => none)).run ⟨fun _ => true, 0, []⟩ = .ok c heap ∧
      (appSetupFile none).run ⟨fun _ => true, 0, []⟩ = .ok server heapS ∧
      (emitted .littleEndian (sourceSize source) c).length = 2 ∧
      (receivedAll .littleEndian server ((emitted .littleEndian (sourceSize source) c).reverse ++
        emitted .littleEndian (sourceSize source) c)).content = source := by
  obtain ⟨source, c, server, heap, heapS, hc, hs, hsendto, hmax, hempty, htwo⟩ :
      ∃ source c server heap heapS,
        (fileSenderSetup source (.ok fun _ => none)).run ⟨fun _ => true, 0, []⟩ = .ok c heap ∧
          (appSetupFile none).run ⟨fun _ => true, 0, []⟩ = .ok server heapS ∧
          (∀ n, c.netClient.sendto n = none) ∧ source.length ≤ MAX_FILE_SIZE.toNat ∧
          server.content = [] ∧ (emitted .littleEndian (sourceSize source) c).length = 2 :=
    ⟨(List.range 1030).map UInt8.ofNat, _, _, _, _, rfl, rfl, fun _ => rfl, by decide +kernel, rfl,
      by decide +kernel⟩
  refine ⟨source, c, server, heap, heapS, hc, hs, htwo, ?_⟩
  have hdeliveries : (emitted .littleEndian (sourceSize source) c).reverse ++
      emitted .littleEndian (sourceSize source) c ⊆ emitted .littleEndian (sourceSize source) c := by
    intro d hd
    rcases List.mem_append.mp hd with hd | hd
    · exact List.mem_reverse.mp hd
    · exact hd
  obtain ⟨-, -, hends, hequal⟩ := file_transferred hc hs hdeliveries
  exact hequal hmax hempty (hends hsendto) (List.subset_append_right _ _)

end Transfer
end FileTransfer
