import FileTransfer.Apps.Transcript
import FileTransfer.ClientServer.NetClient
import FileTransfer.StorageManager.Ownership

/-! The whole `main` of `file_sender_client.c` with the objects that it makes: what it has released
and what it has sent when it returns, in each of the ways in which it can return. -/
namespace FileTransfer
open Heap

/-- The heap of the process and its socket. -/
structure SenderProcess where
  heap : Heap
  netClient : NetClient

/-- The read passes the tests in front of `fseek`. -/
def seeksRead (f : RamFile) (offset dataSize : UInt64) : Bool :=
  !decide (dataSize = 0) && !decide (f.maxFileSize < offset + dataSize)

namespace SenderProcess

def start (grant : ℕ → Bool) (sendto : ℕ → Option Errno) : SenderProcess :=
  ⟨⟨grant, 0, []⟩, [], sendto⟩

def onHeap {α : Type} : HeapCall α → Call SenderProcess α :=
  zoom (·.heap) fun p heap => { p with heap }

def onNetClient {α : Type} : Call NetClient α → Call SenderProcess α :=
  zoom (·.netClient) fun p netClient => { p with netClient }

/-- `ram_file_read` with the objects that it looks at. -/
def readChunk (f : RamFile) (offset dataSize : UInt64) (buffer : List UInt8) :
    Call SenderProcess (Except Errno (List UInt8)) := do
  onHeap (access f.addr)
  if seeksRead f offset dataSize then onHeap (access f.file)
  match (ramFileRead offset (some (chunkData buffer)) dataSize).run f with
  | .error e _ => return .error e
  | .ok data _ => return .ok data

/-- `net_client_send` with the objects that it looks at. -/
def sendDatagram (c : NetClientObject) (data : List UInt8) :
    Call SenderProcess (Except Errno Unit) := do
  onHeap (access c.addr)
  onHeap (access c.sockFd)
  attempt (onNetClient (netClientSend data))

/-- The two calls in front of a `return`. -/
def teardown (f : RamFile) (c : NetClientObject) : Call SenderProcess Unit := do
  onHeap (ramFileDestroy f)
  onHeap (netClientDestroy c)

/-- The loop, for a number of rounds. -/
def loop (layout : SizeLayout) (f : RamFile) (c : NetClientObject) (fileSize : UInt64) :
    ℕ → UInt64 → List UInt8 → Call SenderProcess Unit
  | 0, _, _ => return
  | rounds + 1, fileOffset, buffer => do
    if fileOffset < fileSize then
      let dataChunkSize :=
        if fileSize - fileOffset < MAX_FILE_CHUNK_SIZE then fileSize - fileOffset
        else MAX_FILE_CHUNK_SIZE
      match ← readChunk f fileOffset dataChunkSize buffer with
      | .error e =>
        teardown f c
        throw e
      | .ok data =>
        let dataChunk := fillChunk layout buffer data fileOffset
        match ← sendDatagram c
          (dataChunk.take (dataChunkSize + sizeofDataChunkProtocol).toNat) with
        | .error e =>
          teardown f c
          throw e
        | .ok _ => loop layout f c fileSize rounds (fileOffset + dataChunkSize) dataChunk
    else
      return

/-- `main`. `files` gives the bytes of a file, or why `access` fails on it, and `inet_aton` takes
the address `SERVER_IP`. -/
def main (layout : SizeLayout) (files : String → Except Errno (List UInt8)) (socketErrno : Errno) :
    List String → Call SenderProcess Unit
  | [_, filePath] => do
    match files filePath with
    | .error e => throw e
    | .ok source =>
      let fileSize := ramFileSizeInBytes source
      if fileSize < 0 then throw .EINVAL
      let f ← onHeap (ramFileCreate (some source) ⟨fileSize.toUInt64, false⟩)
      match ← attempt (onHeap (netClientCreate socketErrno true)) with
      | .error e =>
        onHeap (ramFileDestroy f)
        throw e
      | .ok c =>
        let fileSize := fileSize.toUInt64
        loop layout f c fileSize fileSize.toNat 0 (List.replicate TOTAL_SIZE.toNat 0)
        teardown f c
  | _ => throw .EINVAL

/-! ### What the parts of `main` do with the objects -/

section Parts
variable {layout : SizeLayout} {f : RamFile} {c : NetClientObject} {p : SenderProcess}
  {offset dataSize fileSize : UInt64} {buffer data : List UInt8} {P Q : Multiset ℕ}

theorem onHeap_accounts {α : Type} {x : HeapCall α} {R : α → Multiset ℕ}
    {E : Option (Multiset ℕ)} (hx : Accounts p.heap P x R E) (h : p.heap.Owns P) :
    (∃ a heap, (onHeap x).run p = .ok a { p with heap } ∧ heap.Owns (R a) ∧
      x.run p.heap = .ok a heap) ∨
      ∃ e heap, (onHeap x).run p = .error e { p with heap } ∧ (∃ A ∈ E, heap.Owns A) ∧
        x.run p.heap = .error e heap := by
  have hleaves := hx h
  unfold onHeap
  rw [zoom_run]
  cases hrun : x.run p.heap with
  | ok a heap =>
    rw [hrun] at hleaves
    exact Or.inl ⟨a, heap, rfl, hleaves, rfl⟩
  | error e heap =>
    rw [hrun] at hleaves
    exact Or.inr ⟨e, heap, rfl, hleaves, rfl⟩

theorem onHeap_access (h : p.heap.Owns P) {q : ℕ} (hq : q ∈ P) :
    ∃ heap, (onHeap (access q)).run p = .ok () { p with heap } ∧ heap.Owns P :=
  ⟨_, rfl, h.accessed hq⟩

/-- What a call gives on an object that it keeps. -/
theorem readChunk_run (f : RamFile) (offset dataSize : UInt64) (buffer : List UInt8)
    (h : p.heap.Owns P) (haddr : f.addr ∈ P) (hfile : f.file ∈ P) :
    ∃ heap, heap.Owns P ∧ (readChunk f offset dataSize buffer).run p =
      .ok (answer (ramFileRead offset (some (chunkData buffer)) dataSize) f).1
        { p with heap } := by
  obtain ⟨heap₁, hrun₁, h₁⟩ := onHeap_access h haddr
  have hread : ∀ p : SenderProcess,
      (match (ramFileRead offset (some (chunkData buffer)) dataSize).run f with
        | .error e _ => (return .error e : Call SenderProcess (Except Errno (List UInt8)))
        | .ok data _ => return .ok data).run p =
          .ok (answer (ramFileRead offset (some (chunkData buffer)) dataSize) f).1 p := by
    intro p
    unfold answer
    cases (ramFileRead offset (some (chunkData buffer)) dataSize).run f <;> rfl
  unfold readChunk
  rw [EStateM.run_bind, hrun₁]
  dsimp only
  by_cases hseek : seeksRead f offset dataSize = true
  · obtain ⟨heap₂, hrun₂, h₂⟩ := onHeap_access (p := { p with heap := heap₁ }) h₁ hfile
    rw [if_pos hseek, EStateM.run_bind, hrun₂]
    exact ⟨heap₂, h₂, hread _⟩
  · rw [if_neg hseek]
    exact ⟨heap₁, h₁, hread _⟩

theorem sendDatagram_run (c : NetClientObject) (data : List UInt8) (h : p.heap.Owns P)
    (haddr : c.addr ∈ P) (hsock : c.sockFd ∈ P) :
    ∃ heap, heap.Owns P ∧ (sendDatagram c data).run p =
      match (netClientSend data).run p.netClient with
      | .ok _ netClient => .ok (.ok ()) ⟨heap, netClient⟩
      | .error e netClient => .ok (.error e) ⟨heap, netClient⟩ := by
  obtain ⟨heap₁, hrun₁, h₁⟩ := onHeap_access h haddr
  obtain ⟨heap₂, hrun₂, h₂⟩ := onHeap_access (p := { p with heap := heap₁ }) h₁ hsock
  refine ⟨heap₂, h₂, ?_⟩
  unfold sendDatagram onNetClient
  rw [EStateM.run_bind, hrun₁]
  dsimp only
  rw [EStateM.run_bind, hrun₂]
  dsimp only
  rw [attempt_run, zoom_run]
  cases (netClientSend data).run p.netClient <;> rfl

/-- The path of the file is never released. -/
theorem teardown_run (hdelete : f.deleteFiles = false) (h : p.heap.Owns (f.owned + c.owned)) :
    ∃ heap, heap.Owns {f.filePath} ∧ (teardown f c).run p = .ok () { p with heap } := by
  have hfile : Accounts p.heap (f.owned + c.owned) (ramFileDestroy f)
      (fun _ => f.filePath ::ₘ c.owned) none := ramFileDestroy_accounts_path f c.owned hdelete
  rcases onHeap_accounts hfile h with ⟨_, heap₁, hrun₁, h₁, -⟩ | ⟨_, _, _, ⟨A, hA, -⟩, -⟩
  · rw [← Multiset.singleton_add, add_comm] at h₁
    have hclient : Accounts heap₁ (c.owned + {f.filePath}) (netClientDestroy c)
        (fun _ => {f.filePath}) none := netClientDestroy_accounts c {f.filePath}
    rcases onHeap_accounts (p := { p with heap := heap₁ }) hclient h₁ with
      ⟨_, heap₂, hrun₂, h₂, -⟩ | ⟨_, _, _, ⟨A, hA, -⟩, -⟩
    · refine ⟨heap₂, h₂, ?_⟩
      unfold teardown
      rw [EStateM.run_bind, hrun₁]
      exact hrun₂
    · cases hA
  · cases hA

/-- A round of the plain loop, by the outcome of its two calls. -/
theorem sendChunk_eq (s : FileSenderClient) (n : UInt64) :
    (sendChunk layout offset n).run s =
      match (answer (ramFileRead offset (some (chunkData s.dataChunk)) n) s.fileMngr).1 with
      | .error e => .error e s
      | .ok data =>
        let dataChunk := fillChunk layout s.dataChunk data offset
        match (netClientSend (dataChunk.take (n + sizeofDataChunkProtocol).toNat)).run
          s.netClient with
        | .ok _ netClient => .ok () { s with dataChunk, netClient }
        | .error e netClient => .error e { s with dataChunk, netClient } := by
  have hkeeps := ramFileRead_keeps offset (some (chunkData s.dataChunk)) n
  unfold sendChunk onFileMngr FileTransfer.onNetClient
  rw [EStateM.run_bind, EStateM.run_get]
  dsimp only
  rw [EStateM.run_bind, zoom_run]
  rcases hkeeps.cases s.fileMngr with ⟨data, hrun⟩ | ⟨e, hrun⟩
  · rw [answer_ok hrun, hrun]
    dsimp only
    rw [EStateM.run_bind, run_modify]
    dsimp only
    rw [zoom_run]
    cases (netClientSend _).run s.netClient <;> rfl
  · rw [answer_error hrun, hrun]

/-- The loop sends what the plain one does, and fails when that fails, but then it has released
what it was given. -/
theorem loop_run (layout : SizeLayout) (fileSize : UInt64) (rounds : ℕ) (fileOffset : UInt64)
    (buffer : List UInt8) (hdelete : f.deleteFiles = false)
    (h : p.heap.Owns (f.owned + c.owned)) :
    match (sendLoop layout fileSize rounds fileOffset).run ⟨f, p.netClient, buffer⟩ with
    | .ok _ s => ∃ heap, heap.Owns (f.owned + c.owned) ∧
      (loop layout f c fileSize rounds fileOffset buffer).run p = .ok () ⟨heap, s.netClient⟩
    | .error e s => ∃ heap, heap.Owns {f.filePath} ∧
      (loop layout f c fileSize rounds fileOffset buffer).run p = .error e ⟨heap, s.netClient⟩ := by
  induction rounds generalizing fileOffset buffer p with
  | zero => exact ⟨p.heap, h, rfl⟩
  | succ rounds ih =>
    unfold sendLoop loop
    by_cases hlt : fileOffset < fileSize
    · rw [if_pos hlt, if_pos hlt]
      dsimp only
      generalize (if fileSize - fileOffset < MAX_FILE_CHUNK_SIZE then fileSize - fileOffset
        else MAX_FILE_CHUNK_SIZE) = n
      obtain ⟨heap₁, h₁, hread⟩ := readChunk_run f fileOffset n buffer h
        (by simp [RamFile.owned]) (by simp [RamFile.owned])
      rw [EStateM.run_bind, EStateM.run_bind, sendChunk_eq, hread]
      dsimp only
      cases (answer (ramFileRead fileOffset (some (chunkData buffer)) n) f).1 with
      | error e =>
        obtain ⟨heap₂, h₂, hteardown⟩ := teardown_run (p := { p with heap := heap₁ }) hdelete h₁
        dsimp only
        rw [EStateM.run_bind, hteardown]
        exact ⟨heap₂, h₂, rfl⟩
      | ok data =>
        dsimp only
        generalize fillChunk layout buffer data fileOffset = dataChunk
        generalize dataChunk.take (n + sizeofDataChunkProtocol).toNat = datagram
        obtain ⟨heap₂, h₂, hsend⟩ := sendDatagram_run (p := { p with heap := heap₁ }) c datagram h₁
          (by simp [NetClientObject.owned]) (by simp [NetClientObject.owned])
        rw [EStateM.run_bind, hsend]
        dsimp only
        cases (netClientSend datagram).run p.netClient with
        | ok u netClient => exact ih _ dataChunk (p := ⟨heap₂, netClient⟩) h₂
        | error e netClient =>
          obtain ⟨heap₃, h₃, hteardown⟩ := teardown_run (p := ⟨heap₂, netClient⟩) hdelete h₂
          dsimp only
          rw [EStateM.run_bind, hteardown]
          exact ⟨heap₃, h₃, rfl⟩
    · rw [if_neg hlt, if_neg hlt]
      exact ⟨p.heap, h, rfl⟩

end Parts

/-! ### The ways in which `main` returns -/

/-- The argument names a file that `ram_file_create` opens. -/
structure Opens (files : String → Except Errno (List UInt8)) (grant : ℕ → Bool)
    (argv : List String) (source : List UInt8) : Prop where
  argv : ∃ program filePath, argv = [program, filePath] ∧ files filePath = .ok source
  size : ¬ ramFileSizeInBytes source < 0
  memory : grant 0 = true ∧ grant 1 = true ∧ grant 2 = true

/-- The file is open, and the process has returned: only the path of the file is not released, and
what was sent are the datagrams of the file, all of them or those before the first one that was
refused. -/
def Returned (layout : SizeLayout) (data : List UInt8) (grant : ℕ → Bool)
    (sendto : ℕ → Option Errno) : EStateM.Result Errno SenderProcess Unit → Prop
  | .ok _ p => p.heap.Owns {1} ∧ p.netClient.sent = wire layout data ∧
    ∀ j < (wire layout data).length, sendto j = none
  | .error e p => p.heap.Owns {1} ∧
    (p.netClient.sent = [] ∧ ¬ (grant 3 = true ∧ grant 4 = true) ∨
      ∃ m < (wire layout data).length, p.netClient.sent = (wire layout data).take m ∧
        (∀ j < m, sendto j = none) ∧ sendto m = some e)

section Main
variable {layout : SizeLayout} {files : String → Except Errno (List UInt8)} {socketErrno : Errno}
  {grant : ℕ → Bool} {sendto : ℕ → Option Errno} {argv : List String} {source : List UInt8}

/-- What was sent belongs to the file, and is all of it after a success. -/
theorem sent_of_returned {data : List UInt8} {x : Call SenderProcess Unit} {p : SenderProcess}
    (h : Returned layout data grant sendto (x.run p)) :
    (∀ d ∈ (answer x p).2.netClient.sent, d ∈ wire layout data) ∧
      ((answer x p).1 = .ok () → (answer x p).2.netClient.sent = wire layout data) := by
  cases hrun : x.run p with
  | ok u p' =>
    rw [hrun] at h
    rw [answer_ok hrun]
    exact ⟨fun d hd => h.2.1 ▸ hd, fun _ => h.2.1⟩
  | error e p' =>
    rw [hrun] at h
    rw [answer_error hrun]
    refine ⟨fun d hd => ?_, nofun⟩
    rcases h.2 with ⟨hnone, -⟩ | ⟨m, -, hsent, -⟩
    · rw [hnone] at hd
      cases hd
    · rw [hsent] at hd
      exact List.mem_of_mem_take hd

theorem ramFileCreate_cases (stored : Option (List UInt8)) (cfg : RamFileCfg) (heap : Heap) :
    (∃ f, (ramFileCreate stored cfg).run heap = .ok f heap.granted.granted.granted ∧
      f.filePath = heap.requests + 1 ∧ heap.grant heap.requests = true ∧
        heap.grant (heap.requests + 1) = true ∧ heap.grant (heap.requests + 2) = true) ∨
    ∃ e heap', (ramFileCreate stored cfg).run heap = .error e heap' ∧
      (heap.grant heap.requests = true → heap.grant (heap.requests + 1) = true →
        ¬ heap.grant (heap.requests + 2) = true) := by
  unfold ramFileCreate
  rw [request_bind_run]
  by_cases h₁ : heap.grant heap.requests = true
  · rw [if_pos h₁]
    dsimp only
    rw [request_bind_run]
    by_cases h₂ : heap.granted.grant heap.granted.requests = true
    · rw [if_pos h₂]
      dsimp only
      rw [request_bind_run]
      by_cases h₃ : heap.granted.granted.grant heap.granted.granted.requests = true
      · rw [if_pos h₃]
        exact Or.inl ⟨_, rfl, rfl, h₁, h₂, h₃⟩
      · rw [if_neg h₃]
        exact Or.inr ⟨_, _, rfl, fun _ _ => h₃⟩
    · rw [if_neg h₂]
      exact Or.inr ⟨_, _, rfl, fun _ h => absurd h h₂⟩
  · rw [if_neg h₁]
    exact Or.inr ⟨_, _, rfl, fun h => absurd h h₁⟩

/-- The loop and the calls behind it, when there is a client. -/
theorem returned_of_client {f : RamFile} {c : NetClientObject} {heap : Heap}
    (hsize : ¬ ramFileSizeInBytes source < 0) (hdelete : f.deleteFiles = false)
    (hpath : f.filePath = 1) (h : heap.Owns (f.owned + c.owned)) {heap₀ heap₁ : Heap}
    (hcreate : (ramFileCreate (some source) ⟨sourceSize source, false⟩).run heap₀ =
      .ok f heap₁) :
    Returned layout (source.take (sourceSize source).toNat) grant sendto
      ((do
        loop layout f c (sourceSize source) (sourceSize source).toNat 0
          (List.replicate TOTAL_SIZE.toNat 0)
        teardown f c).run ⟨heap, [], sendto⟩) := by
  have hsetup : (fileSenderSetup source (.ok sendto)).run heap₀ =
      .ok ⟨f, ⟨[], sendto⟩, List.replicate TOTAL_SIZE.toNat 0⟩ heap₁ := by
    unfold fileSenderSetup
    rw [if_neg hsize, EStateM.run_bind, ← sourceSize, hcreate]
    rfl
  have htranscribes := fileSenderSend_transcribes layout hsetup
  have hloop := loop_run layout (sourceSize source) (sourceSize source).toNat 0
    (List.replicate TOTAL_SIZE.toNat 0) (p := ⟨heap, [], sendto⟩) hdelete h
  unfold fileSenderSend at htranscribes
  dsimp only at htranscribes hloop
  rw [EStateM.run_bind]
  cases hrun : (sendLoop layout (sourceSize source) (sourceSize source).toNat 0).run
    ⟨f, ⟨[], sendto⟩, List.replicate TOTAL_SIZE.toNat 0⟩ with
  | ok u s =>
    rw [hrun] at htranscribes hloop
    obtain ⟨hsent, hall⟩ := htranscribes
    obtain ⟨heap₂, h₂, hrun₂⟩ := hloop
    obtain ⟨heap₃, h₃, hrun₃⟩ := teardown_run (p := ⟨heap₂, s.netClient⟩) hdelete h₂
    rw [hrun₂]
    dsimp only
    rw [hrun₃]
    exact ⟨hpath ▸ h₃, hsent, hall⟩
  | error e s =>
    rw [hrun] at htranscribes hloop
    obtain ⟨heap₂, h₂, hrun₂⟩ := hloop
    rw [hrun₂]
    exact ⟨hpath ▸ h₂, Or.inr htranscribes⟩

/-- What follows on the creation of the file. -/
theorem returned_of_create {f : RamFile} {heap₀ heap₁ : Heap}
    (hsize : ¬ ramFileSizeInBytes source < 0)
    (hcreate : (ramFileCreate (some source) ⟨sourceSize source, false⟩).run heap₀ =
      .ok f heap₁) (hpath : f.filePath = 1) (h : heap₁.Owns f.owned)
    (hgrant : heap₁.grant = grant) (hrequests : heap₁.requests = 3) :
    Returned layout (source.take (sourceSize source).toNat) grant sendto
      ((do
        match ← attempt (onHeap (netClientCreate socketErrno true)) with
        | .error e =>
          onHeap (ramFileDestroy f)
          throw e
        | .ok c =>
          loop layout f c (sourceSize source) (sourceSize source).toNat 0
            (List.replicate TOTAL_SIZE.toNat 0)
          teardown f c : Call SenderProcess Unit).run ⟨heap₁, [], sendto⟩) := by
  have hdelete : f.deleteFiles = false := (ramFileCreate_ok hcreate).2.2
  have hclient : Accounts heap₁ f.owned (netClientCreate socketErrno true)
      (fun c => c.owned + f.owned) (some f.owned) :=
    netClientCreate_accounts socketErrno f.owned nofun
  rcases onHeap_accounts (p := ⟨heap₁, [], sendto⟩) hclient h with
    ⟨c, heap₂, hrun, h₂, -⟩ | ⟨e, heap₂, hrun, ⟨A, hA, h₂⟩, herror⟩
  · rw [EStateM.run_bind, attempt_run, hrun]
    rw [add_comm] at h₂
    exact returned_of_client hsize hdelete hpath h₂ hcreate
  · cases hA
    have hno := netClientCreate_error herror
    rw [hrequests, hgrant] at hno
    have hfile : Accounts heap₂ (f.owned + 0) (ramFileDestroy f) (fun _ => f.filePath ::ₘ 0)
        none := ramFileDestroy_accounts_path f 0 hdelete
    rcases onHeap_accounts (p := ⟨heap₂, [], sendto⟩) hfile h₂ with
      ⟨_, heap₃, hrun₃, h₃, -⟩ | ⟨_, _, _, ⟨_, hA, -⟩, -⟩
    · rw [EStateM.run_bind, attempt_run, hrun]
      dsimp only
      rw [EStateM.run_bind, hrun₃]
      rw [hpath] at h₃
      refine ⟨h₃, Or.inl ⟨rfl, ?_⟩⟩
      rintro ⟨hmemory, hsocket⟩
      cases (hno hmemory).symm.trans hsocket
    · cases hA

theorem returned_of_opens (socketErrno : Errno) (sendto : ℕ → Option Errno)
    (h : Opens files grant argv source) :
    Returned layout (source.take (sourceSize source).toNat) grant sendto
      ((main layout files socketErrno argv).run (start grant sendto)) := by
  obtain ⟨⟨program, filePath, rfl, hfile⟩, hsize, hobject, hpath, hstream⟩ := h
  have hstart : (start grant sendto).heap.Owns 0 := .start grant 0
  rcases ramFileCreate_cases (some source) ⟨sourceSize source, false⟩ (start grant sendto).heap
    with ⟨f, hcreate, hf, -⟩ | ⟨e, heap', -, hno⟩
  · have howns := ramFileCreate_accounts (some source) ⟨sourceSize source, false⟩ 0 hstart
    rw [hcreate] at howns
    have hrun : (onHeap (ramFileCreate (some source) ⟨sourceSize source, false⟩)).run
        (start grant sendto) =
          .ok f ⟨(start grant sendto).heap.granted.granted.granted, [], sendto⟩ := by
      unfold onHeap
      rw [zoom_run, hcreate]
      rfl
    dsimp only [main]
    rw [hfile]
    dsimp only
    rw [if_neg hsize, EStateM.run_bind, ← sourceSize, hrun]
    exact returned_of_create hsize hcreate hf howns rfl rfl
  · exact absurd hstream (hno hobject hpath)

/-- When nothing fails, all datagrams are sent. -/
theorem sent_of_opens (layout : SizeLayout) (socketErrno : Errno)
    (h : Opens files grant argv source) (hgrant : grant 3 = true ∧ grant 4 = true)
    (hsendto : ∀ j, sendto j = none) :
    let r := answer (main layout files socketErrno argv) (start grant sendto)
    r.1 = .ok () ∧
      r.2.netClient.sent = wire layout (source.take (sourceSize source).toNat) := by
  have hreturned : Returned layout _ grant sendto _ := returned_of_opens socketErrno sendto h
  have hok : (answer (main layout files socketErrno argv) (start grant sendto)).1 = .ok () := by
    cases hrun : (main layout files socketErrno argv).run (start grant sendto) with
    | ok u p => rw [answer_ok hrun]
    | error e p =>
      rw [hrun] at hreturned
      rcases hreturned.2 with ⟨-, hno⟩ | ⟨m, -, -, -, hrefused⟩
      · exact absurd hgrant hno
      · cases (hsendto m).symm.trans hrefused
  exact ⟨hok, (sent_of_returned hreturned).2 hok⟩

theorem fails_of_not_opens (layout : SizeLayout) (socketErrno : Errno)
    (sendto : ℕ → Option Errno) (hno : ∀ source, ¬ Opens files grant argv source) :
    ∃ e p, (main layout files socketErrno argv).run (start grant sendto) = .error e p ∧
      p.heap.Owns 0 ∧ p.netClient.sent = [] := by
  have hstart : (start grant sendto).heap.Owns 0 := .start grant 0
  have hrefused : ∀ e, ∃ e' p, (throw e : Call SenderProcess Unit).run (start grant sendto) =
      .error e' p ∧ p.heap.Owns 0 ∧ p.netClient.sent = [] := fun e =>
    ⟨e, _, rfl, hstart, rfl⟩
  match argv with
  | [] | [_] | _ :: _ :: _ :: _ => exact hrefused .EINVAL
  | [program, filePath] =>
    dsimp only [main]
    cases hfile : files filePath with
    | error e => exact hrefused e
    | ok source =>
      dsimp only
      by_cases hsize : ramFileSizeInBytes source < 0
      · rw [if_pos hsize]
        exact hrefused .EINVAL
      · rw [if_neg hsize, EStateM.run_bind, ← sourceSize]
        have haccounts : Accounts (start grant sendto).heap 0
            (ramFileCreate (some source) ⟨sourceSize source, false⟩) (fun f => f.owned + 0)
            (some 0) := ramFileCreate_accounts _ _ 0
        rcases onHeap_accounts haccounts hstart with
          ⟨f, heap₁, -, -, hcreate⟩ | ⟨e, heap₁, hrun, ⟨A, hA, h₁⟩, -⟩
        · rcases ramFileCreate_cases (some source) ⟨sourceSize source, false⟩
            (start grant sendto).heap with ⟨_, -, -, hmemory⟩ | ⟨e, _, herror, -⟩
          · exact absurd ⟨⟨program, filePath, rfl, hfile⟩, hsize, hmemory⟩ (hno source)
          · cases hcreate.symm.trans herror
        · cases hA
          rw [hrun]
          exact ⟨e, _, rfl, h₁, rfl⟩

/-- With a file that it opens, `main` sends its datagrams until one is refused, and releases
everything but the path of the file; without one it sends nothing and releases everything. In all
runs nothing is used after its release. -/
theorem sender_process (layout : SizeLayout) (files : String → Except Errno (List UInt8))
    (socketErrno : Errno) (grant : ℕ → Bool) (sendto : ℕ → Option Errno) (argv : List String) :
    let r := (main layout files socketErrno argv).run (start grant sendto)
    (∀ source, Opens files grant argv source →
      Returned layout (source.take (sourceSize source).toNat) grant sendto r) ∧
    ((∀ source, ¬ Opens files grant argv source) →
      ∃ e p, r = .error e p ∧ p.heap.Owns 0 ∧ p.netClient.sent = []) :=
  ⟨fun _ h => returned_of_opens socketErrno sendto h,
    fun hno => fails_of_not_opens layout socketErrno sendto hno⟩

/-- The second datagram of two is refused. -/
theorem sender_process_refused : ∃ source : List UInt8,
    (wire .littleEndian source).length = 2 ∧
      Returned .littleEndian source (fun _ => true) (fun n => if n = 1 then some .EPERM else none)
        ((main .littleEndian (fun _ => .ok source) .EACCES ["sender", "data"]).run
          (start (fun _ => true) fun n => if n = 1 then some .EPERM else none)) := by
  obtain ⟨source, hlen⟩ : ∃ source : List UInt8, source.length = 1500 :=
    ⟨List.replicate 1500 7, List.length_replicate⟩
  have hopens : Opens (fun _ => .ok source) (fun _ => true) ["sender", "data"] source := by
    constructor
    · exact ⟨"sender", "data", rfl, rfl⟩
    · unfold ramFileSizeInBytes
      rw [hlen]
      decide
    · exact ⟨rfl, rfl, rfl⟩
  have hreturned := (sender_process .littleEndian (fun _ => .ok source) .EACCES (fun _ => true)
    (fun n => if n = 1 then some .EPERM else none) ["sender", "data"]).1 source hopens
  have hall : source.take (sourceSize source).toNat = source := by
    rw [sourceSize_eq (by rw [hlen]; decide), List.take_length]
  rw [hall] at hreturned
  refine ⟨source, ?_, hreturned⟩
  rw [length_wire, hlen]

end Main
end SenderProcess
end FileTransfer
