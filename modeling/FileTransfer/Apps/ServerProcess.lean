import FileTransfer.Apps.Untrusted
import FileTransfer.ClientServer.NetServer
import FileTransfer.Infra.Ownership

/-! The process of `file_sender_server.c`: `main` with its set-up and its teardown, and the receive
thread that it starts. The two take turns in any way, and each step touches an object of the heap
once, but for the creation and the destruction of the file. The handlers of the signals have been
registered: where `sigaction` fails, `register_signal_handlers` ends the process before anything is
created. -/
namespace FileTransfer
open Run

namespace Heap

/-- The heap after an access. -/
def accessed (heap : Heap) (p : ℕ) : Heap := { heap with events := .access p :: heap.events }

end Heap

/-- What `main` does next. -/
inductive ServerMainStep
  -- app_setup
  | createFile | createServer | creating
  -- app_run
  | startServer | starting
  | waiting
  -- app_teardown
  | stopServer | stopping | destroyServer | destroying | destroyFile
  | returned
deriving DecidableEq, Repr

/-- What `server_data_to_file_callback` does next: from its tests up to the last look at the
fields of the file, and from `fseek` to `fflush`. -/
inductive CallbackStep
  | fields | stream
deriving DecidableEq, Repr

/-- The process, and what `recvfrom` has given so far. The pointers in `file_sender` are those of
`fileMngr` and of `netServer`, which has its own heap. -/
structure FileSenderServer where
  step : ServerMainStep
  netServer : NetServers
  fileMngr : Option RamFile
  heap : Heap
  /-- The bytes of the buffer that were received last. -/
  buffer : List UInt8
  callback : Option CallbackStep
  datagrams : List (List UInt8)

inductive ServerAction
  /-- The next step of `main`, with the outcome of the system call that it makes. -/
  | main (success : Bool)
  /-- The next step of the receive thread, with the outcome of `recvfrom` and its bytes. -/
  | thread (result : RecvResult) (data : List UInt8)
deriving DecidableEq, Repr

/-- The datagram has the size of a chunk, so that the callback writes it. -/
def writesChunk (data : List UInt8) : Bool :=
  let dataSize := UInt64.ofNat data.length
  !decide (dataSize < sizeofDataChunkProtocol) &&
    !decide (MAX_FILE_BUFFER_SIZE < dataSize - sizeofDataChunkProtocol)

/-- The write passes the tests in front of `fseek`. -/
def seeksChunk (layout : SizeLayout) (f : RamFile) (data : List UInt8) : Bool :=
  let dataSize := UInt64.ofNat data.length - sizeofDataChunkProtocol
  !decide (dataSize = 0) && !decide (f.maxFileSize < chunkOffset layout data + dataSize)

namespace FileSenderServer

def initial (grant : ℕ → Bool) : FileSenderServer :=
  ⟨.createFile, .initial, none, ⟨grant, 0, []⟩, [], none, []⟩

variable (layout : SizeLayout) (stored : Option (List UInt8)) (s : FileSenderServer)

/-- The next step of a call of the server, or what follows on its return. -/
def proceed (success : Bool) (next : ServerMainStep) : FileSenderServer :=
  match s.netServer.call with
  | some _ => { s with netServer := s.netServer.exec (.proceed success) }
  | none => { s with step := next }

/-- One step of `main`. After a `pthread_create` that failed, `net_server_start` returns an
`errno` that nobody has set. -/
def mainStep (success : Bool) : FileSenderServer :=
  match s.step with
  | .createFile =>
    match (appSetupFile stored).run s.heap with
    | .ok f heap => { s with fileMngr := some f, heap, step := .createServer }
    | .error _ heap => { s with heap, step := .stopServer }
  | .createServer =>
    { s with netServer := s.netServer.exec (.create success), step := .creating }
  | .creating =>
    s.proceed success
      (if s.netServer.handle = none ∨ s.netServer.failed then .stopServer else .startServer)
  | .startServer => { s with netServer := s.netServer.exec (.start true), step := .starting }
  | .starting =>
    s.proceed success (if s.netServer.failed ∧ !success then .stopServer else .waiting)
  | .waiting => if success then { s with step := .stopServer } else s
  | .stopServer => { s with netServer := s.netServer.exec .stop, step := .stopping }
  | .stopping => s.proceed success .destroyServer
  | .destroyServer => { s with netServer := s.netServer.exec .destroy, step := .destroying }
  | .destroying => s.proceed success .destroyFile
  | .destroyFile =>
    match s.fileMngr with
    | none => { s with step := .returned }
    | some f =>
      match (ramFileDestroy f).run s.heap with
      | .ok _ heap | .error _ heap => { s with heap, step := .returned }
  | .returned => s

/-- One step of the callback. -/
def callbackStep (step : CallbackStep) : FileSenderServer :=
  match s.fileMngr with
  | none => { s with callback := none }
  | some f =>
    match step with
    | .fields =>
      if writesChunk s.buffer then { s with
        heap := s.heap.accessed f.addr
        callback := if seeksChunk layout f s.buffer then some .stream else none }
      else { s with callback := none }
    | .stream => { s with
      heap := s.heap.accessed f.file
      fileMngr := some (received layout f s.buffer)
      callback := none }

/-- One step of the receive thread, which is in its loop or in its callback. -/
def threadStep (result : RecvResult) (data : List UInt8) : FileSenderServer :=
  match s.callback with
  | some step => s.callbackStep layout step
  | none =>
    match s.netServer.threads[0]? with
    | none => s
    | some thread =>
      let s' := { s with netServer := s.netServer.exec (.thread 0 result) }
      match thread.step with
      | .recvfrom =>
        if result = .bytes then { s' with buffer := data, datagrams := s.datagrams ++ [data] }
        else s'
      | .callback => { s' with callback := some .fields }
      | .getReceiveDataFlag | .returned => s'

def exec : ServerAction → FileSenderServer
  | .main success => s.mainStep stored success
  | .thread result data => s.threadStep layout result data

/-- The receive thread has started and has not returned. -/
def Receiving : Prop := ∃ thread ∈ s.netServer.threads[0]?, thread.step ≠ .returned

instance : Decidable s.Receiving :=
  decidable_of_iff (¬ ∀ thread ∈ s.netServer.threads[0]?, thread.step = .returned)
    (by unfold Receiving; push Not; rfl)

/-- The return of `main` ends the process. Only `pthread_join` waits, and `recvfrom` gives some
bytes that the buffer has room for. -/
def Enabled : ServerAction → Prop
  | .main success => s.step ≠ .returned ∧
    (s.netServer.call ≠ none → s.netServer.Enabled (.proceed success))
  | .thread result data => s.step ≠ .returned ∧ s.Receiving ∧
    (result = .bytes → 0 < data.length ∧ data.length ≤ SERVER_BUFFER_SIZE)

instance : ∀ a, Decidable (s.Enabled a)
  | .main _ => inferInstanceAs (Decidable (_ ∧ (_ → _)))
  | .thread _ _ => inferInstanceAs (Decidable (_ ∧ _ ∧ (_ → _)))

variable {s} {success : Bool} {next : ServerMainStep}

theorem proceed_some {step : NetServerStep} {p : ℕ} (hc : s.netServer.call = some (step, p)) :
    s.proceed success next = { s with netServer := s.netServer.callStep p success step } := by
  unfold proceed
  rw [hc]
  dsimp only
  rw [NetServers.exec_proceed hc]

theorem proceed_none (hc : s.netServer.call = none) :
    s.proceed success next = { s with step := next } := by
  unfold proceed
  rw [hc]

end FileSenderServer
end FileTransfer
