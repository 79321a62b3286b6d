import FileTransfer.Apps.FileCreator
import FileTransfer.Apps.Restarts
import FileTransfer.Apps.SenderProcess

/-! The three programs on one file: the creator makes it, the sender sends what it finds, and the
server stores what the network hands to it. -/
namespace FileTransfer
open Overlay Run

/-- What the creator and the sender have returned, and where the server process is. What the creator
and the sender ask the system for may fail, and so may the calls of the server but for those that
transfer bytes from or to its file; the network may lose, repeat and reorder datagrams. -/
structure Delivery (layout : SizeLayout) (rand : ℕ → ℕ) (size : UInt64)
    (stored : Option (List UInt8)) where
  stdio : Stdio
  creator : Except Errno Unit × FileCreator
  sender : Except Errno Unit × SenderProcess
  server : FileSenderServer
  creates : ∃ buffer grant old argv, buffer.length = 1024 ∧ FileCreator.Asks argv size ∧
    grant 0 = true ∧
    creator = answer (FileCreator.main rand stdio buffer argv) (.start grant old)
  sends : ∃ files socketErrno grant sendto program filePath,
    files filePath = .ok creator.2.file ∧
    sender = answer (SenderProcess.main layout files socketErrno [program, filePath])
      (.start grant sendto)
  serves : ∃ grant, Reach FileSenderServer.Enabled (FileSenderServer.exec layout stored)
    (.initial grant) server
  network : ∀ d ∈ server.datagrams, d ∈ sender.2.netClient.sent

namespace Delivery
variable {layout : SizeLayout} {rand : ℕ → ℕ} {size : UInt64} {stored : Option (List UInt8)}

/-- The file of the server. -/
def file (t : Delivery layout rand size stored) : List UInt8 := (t.server.onDisk stored).getD []

/-- The bytes that the sender finds and that fit into its size. -/
def source (t : Delivery layout rand size stored) : List UInt8 :=
  t.creator.2.file.take (sourceSize t.creator.2.file).toNat

variable (t : Delivery layout rand size stored)

theorem creator_file : ∃ n ≤ size.toNat, t.creator.2.file = FileCreator.randomBytes rand 0 n := by
  obtain ⟨buffer, grant, old, argv, hbuffer, hasks, hgrant, hcreator⟩ := t.creates
  have hcreated : FileCreator.Created rand t.stdio size.toNat _ :=
    FileCreator.created_of_asks t.stdio old hbuffer hasks hgrant
  rw [hcreator]
  exact FileCreator.file_of_created hcreated

theorem creator_of_room (hroom : ∀ k, size.toNat ≤ t.stdio.room k) :
    t.creator.1 = .ok () ∧ t.creator.2.file.length = size.toNat := by
  obtain ⟨buffer, grant, old, argv, hbuffer, hasks, hgrant, hcreator⟩ := t.creates
  have hcreated : FileCreator.Created rand t.stdio size.toNat _ :=
    FileCreator.created_of_asks t.stdio old hbuffer hasks hgrant
  obtain ⟨hok, hfile⟩ := FileCreator.complete_of_room hcreated hroom
  rw [hcreator, hfile, FileCreator.length_randomBytes]
  exact ⟨hok, rfl⟩

theorem length_source : t.source.length < 2 ^ 64 := by
  unfold source
  rw [List.length_take]
  exact (min_le_left _ _).trans_lt (UInt64.toNat_lt _)

/-- A byte of the source is one of `rand`. -/
theorem getElem?_source {i : ℕ} {b : UInt8} (h : t.source[i]? = some b) :
    i < size.toNat ∧ b = UInt8.ofNat (rand i % 256) := by
  obtain ⟨n, hn, hfile⟩ := t.creator_file
  have hget : t.creator.2.file[i]? = some b := by
    have hi := (List.getElem?_eq_some_iff.mp h).1
    unfold source at h hi
    rw [List.length_take] at hi
    rwa [List.getElem?_take_of_lt (by omega)] at h
  rw [hfile] at hget
  have hi : i < n := by
    have := (List.getElem?_eq_some_iff.mp hget).1
    rwa [FileCreator.length_randomBytes] at this
  unfold FileCreator.randomBytes at hget
  rw [List.getElem?_map, List.getElem?_range' hi, Option.map_some, Option.some.injEq] at hget
  rw [Nat.zero_add, Nat.one_mul] at hget
  exact ⟨by omega, hget.symm⟩

theorem source_of_complete (h : t.creator.2.file.length = size.toNat) :
    t.source = FileCreator.randomBytes rand 0 size.toNat := by
  obtain ⟨n, -, hfile⟩ := t.creator_file
  obtain rfl : n = size.toNat := by
    rwa [hfile, FileCreator.length_randomBytes] at h
  have hlen : t.creator.2.file.length < 2 ^ 64 := by
    rw [h]
    exact UInt64.toNat_lt _
  unfold source
  rw [sourceSize_eq hlen, List.take_length, hfile]

/-- The sender sends datagrams of the source, and all of them when it succeeds. -/
theorem sent_wire : (∀ d ∈ t.sender.2.netClient.sent, d ∈ wire layout t.source) ∧
    (t.sender.1 = .ok () → t.sender.2.netClient.sent = wire layout t.source) := by
  obtain ⟨files, socketErrno, grant, sendto, program, filePath, hfiles, hsender⟩ := t.sends
  rw [hsender]
  by_cases hopens : SenderProcess.Opens files grant [program, filePath] t.creator.2.file
  · exact SenderProcess.sent_of_returned
      (SenderProcess.returned_of_opens socketErrno sendto hopens)
  · have hno : ∀ source, ¬ SenderProcess.Opens files grant [program, filePath] source := by
      intro source h
      obtain ⟨_, _, hargv, hsource⟩ := h.argv
      cases hargv
      cases hfiles.symm.trans hsource
      exact hopens h
    obtain ⟨e, p, hrun, -, hnone⟩ :=
      SenderProcess.fails_of_not_opens layout socketErrno sendto hno
    rw [answer_error hrun]
    refine ⟨fun d hd => ?_, nofun⟩
    rw [hnone] at hd
    cases hd

/-- Whatever fails: a byte of the server's file is the one that the creator drew for that place, or
the one that was there before, or fills a gap. When the creator's file is complete, as it is if
there is room for it, and the sender succeeds, the file is the created one as soon as the server has
handled each of its datagrams. -/
theorem delivered :
    (∀ i b, t.file[i]? = some b → i < size.toNat ∧ b = UInt8.ofNat (rand i % 256) ∨
      (stored.getD [])[i]? = some b ∨ (stored.getD []).length ≤ i ∧ b = 0) ∧
    ((∀ k, size.toNat ≤ t.stdio.room k) →
      t.creator.1 = .ok () ∧ t.creator.2.file.length = size.toNat) ∧
    (t.creator.2.file.length = size.toNat → t.sender.1 = .ok () →
      size.toNat ≤ MAX_FILE_SIZE.toNat → (∀ d ∈ t.sender.2.netClient.sent, d ∈ t.server.handled) →
      t.file = FileCreator.randomBytes rand 0 size.toNat ++
        (stored.getD []).drop size.toNat) := by
  obtain ⟨hsent, hall⟩ := t.sent_wire
  obtain ⟨grant, hreach⟩ := t.serves
  have hfile : t.file = _ := (FileSenderServer.inv_of_reach hreach).onDisk
  have hhandled : ∀ d ∈ t.server.handled, d ∈ wire layout t.source := fun d hd =>
    hsent d (t.network d (FileSenderServer.handled_subset hd))
  refine ⟨?_, t.creator_of_room, ?_⟩
  · intro i b hb
    rw [hfile] at hb
    rcases getElem?_writeAll_cases hb with ⟨w, hw, hcov, hbyte⟩ | hold
    · obtain ⟨d, hd, -, rfl⟩ := mem_acceptedChunks.mp hw
      obtain ⟨k, -, -, hchunk⟩ := TransferSystem.mem_wire t.length_source (hhandled d hd)
      rw [hchunk] at hcov hbyte
      apply Or.inl
      apply t.getElem?_source
      rw [← hbyte]
      exact (TransferSystem.getElem?_cell hcov).symm
    · exact Or.inr hold
  · intro hcreator hsender hmax hcomplete
    have hsource := t.source_of_complete hcreator
    have hlen : t.source.length = size.toNat := by
      rw [hsource, FileCreator.length_randomBytes]
    rw [hall hsender] at hcomplete
    rw [hfile, TransferSystem.writeAll_wire (hlen ▸ hmax) hhandled hcomplete, hlen, hsource]

/-- Three bytes over a file of four, in one datagram. -/
theorem delivered_three : ∃ t : Delivery .littleEndian id 3 (some [7, 8, 9, 10]),
    t.file = [0, 1, 2, 10] := by
  have hbuffer : (List.replicate 1024 (0 : UInt8)).length = 1024 := List.length_replicate
  have hasks := FileCreator.asks_toString "creator" "data" 3 (by decide)
  have hcreated : FileCreator.Created id ⟨fun _ => 4096, fun _ => 3⟩ 3
      ((FileCreator.main id ⟨fun _ => 4096, fun _ => 3⟩ _ _).run (.start (fun _ => true) [])) :=
    FileCreator.created_of_asks ⟨fun _ => 4096, fun _ => 3⟩ [] hbuffer hasks rfl
  obtain ⟨-, hfile⟩ := FileCreator.complete_of_room hcreated fun _ => le_rfl
  have hopens : SenderProcess.Opens (fun _ => .ok [0, 1, 2]) (fun _ => true) ["sender", "data"]
      [0, 1, 2] := ⟨⟨"sender", "data", rfl, rfl⟩, by decide, rfl, rfl, rfl⟩
  obtain ⟨hsender, hsent⟩ := SenderProcess.sent_of_opens .littleEndian .EACCES hopens
    ⟨rfl, rfl⟩ (fun _ => rfl : ∀ j, (fun _ => none : ℕ → Option Errno) j = none)
  have hsource : ([0, 1, 2] : List UInt8).take (sourceSize [0, 1, 2]).toNat = [0, 1, 2] := by
    decide
  rw [hsource] at hsent
  obtain ⟨s, hserver, hnetwork, hcomplete⟩ : ∃ s,
      Reach FileSenderServer.Enabled
        (FileSenderServer.exec .littleEndian (some [7, 8, 9, 10])) (.initial fun _ => true) s ∧
      (∀ d ∈ s.datagrams, d ∈ wire .littleEndian [0, 1, 2]) ∧
      ∀ d ∈ wire .littleEndian [0, 1, 2], d ∈ s.handled :=
    ⟨_, Reach.start.foldl (FileSenderServer.receiveOne (wireChunk .littleEndian [0, 1, 2] 0))
      (by decide +kernel), by decide +kernel, by decide +kernel⟩
  let t : Delivery .littleEndian id 3 (some [7, 8, 9, 10]) := {
    stdio := _
    creator := _
    sender := _
    server := s
    creates := ⟨_, _, _, _, hbuffer, hasks, rfl, rfl⟩
    sends := ⟨_, .EACCES, _, _, _, _, congrArg Except.ok hfile.symm, rfl⟩
    serves := ⟨_, hserver⟩
    network := by rwa [hsent] }
  have hfinal : t.file = FileCreator.randomBytes id 0 3 ++ [7, 8, 9, 10].drop 3 := by
    apply (delivered t).2.2 (congrArg List.length hfile) hsender (by decide)
    rwa [hsent]
  exact ⟨t, hfinal⟩

end Delivery
end FileTransfer
