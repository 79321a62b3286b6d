import FileTransfer.Foundation.Run
import FileTransfer.Infra.Heap

/-! The server of `net_server.c`, cut into steps that touch a server once, so that the calls of
one caller and the receive threads can take turns in any way. A pointer to a server is the number
of the object. Descriptors, addresses, log lines and return codes are left out: nothing that is
done with a server depends on them. -/
namespace FileTransfer
open Run

/-- What a call does next, in the order in which its function does it. -/
inductive NetServerStep
  -- net_server_create, from its first system call on
  | socket | setReuseAddr | setSockAddr | setReceiveTimeout | bind
  -- net_server_start
  | setReceiveDataFlag | setCallback | setUserCtx | createThread
  -- net_server_stop
  | getReceiveDataFlag | clearReceiveDataFlag | getServerThread | join (thread : ℕ)
  -- cleanup_server
  | closeSocket | freeServer
deriving DecidableEq, Repr

/-- What a receive thread does next. -/
inductive RecvStep
  | getReceiveDataFlag | recvfrom | callback | returned
deriving DecidableEq, Repr

/-- Some bytes, no byte, a time-out, or another error. -/
inductive RecvResult
  | bytes | empty | timeout | failed
deriving DecidableEq, Repr

structure RecvThread where
  server : ℕ
  step : RecvStep
deriving DecidableEq, Repr

/-- The caller's handle, the call under way with its server, the fields of the servers that are
read back, the threads that were ever started, and how many servers were made. -/
structure NetServers where
  handle : Option ℕ
  call : Option (NetServerStep × ℕ)
  receiveDataFlag : ℕ → Bool
  serverThread : ℕ → ℕ
  threads : List RecvThread
  servers : ℕ
  /-- The last create or start on the handle failed in a system call. -/
  failed : Bool
  /-- The caller has issued the destruction. -/
  destroyed : Bool
  events : List HeapEvent

inductive NetServerAction
  | create (memory : Bool)
  | start (callback : Bool)
  | stop
  | destroy
  /-- The next step of the call under way, with the outcome of the system call that it makes. -/
  | proceed (success : Bool)
  /-- The next step of a thread, with the outcome of `recvfrom`. -/
  | thread (t : ℕ) (result : RecvResult)
deriving DecidableEq, Repr

namespace NetServers

def initial : NetServers := ⟨none, none, fun _ => false, fun _ => 0, [], 0, false, false, []⟩

variable (s : NetServers)

def touch (p : ℕ) : NetServers := { s with events := .access p :: s.events }

def setCall (call : Option (NetServerStep × ℕ)) : NetServers := { s with call }

/-- The step touches the server and is followed by another one. -/
def goOn (p : ℕ) (next : NetServerStep) : NetServers := (s.touch p).setCall (some (next, p))

/-- The step touches the server and ends the call. -/
def finish (p : ℕ) : NetServers := (s.touch p).setCall none

/-- A system call on the server fails, and `cleanup_server` is called. -/
def cleanup (p : ℕ) : NetServers := { s.goOn p .closeSocket with failed := true }

def setFlag (p : ℕ) (flag : Bool) : NetServers :=
  { s with receiveDataFlag := Function.update s.receiveDataFlag p flag }

/-- `pthread_create`, which also fills in `server_thread`. -/
def addThread (p : ℕ) : NetServers := { s with
  threads := s.threads ++ [⟨p, .getReceiveDataFlag⟩]
  serverThread := Function.update s.serverThread p s.threads.length }

/-- `free`, the last step of `cleanup_server`. -/
def free (p : ℕ) : NetServers := { s with call := none, events := .release p :: s.events }

def setThread (t : ℕ) (thread : RecvThread) : NetServers :=
  { s with threads := s.threads.set t thread }

/-! ### The functions -/

/-- `net_server_create` up to its `malloc`. -/
def netServerCreate (memory : Bool) : NetServers :=
  if memory then { s with
    handle := some s.servers
    call := some (.socket, s.servers)
    servers := s.servers + 1
    failed := false
    events := .alloc s.servers :: s.events }
  else { s with handle := none, failed := false }

def netServerStart (callback : Bool) : NetServers :=
  match s.handle with
  | none => s
  | some p => if callback then s.setCall (some (.setReceiveDataFlag, p)) else s

def netServerStop : NetServers :=
  match s.handle with
  | none => s
  | some p => s.setCall (some (.getReceiveDataFlag, p))

def netServerDestroy : NetServers :=
  match s.handle with
  | none => { s with destroyed := true }
  | some p => { s.setCall (some (.closeSocket, p)) with destroyed := true }

/-- One step of a call. -/
def callStep (p : ℕ) (success : Bool) : NetServerStep → NetServers
  | .socket => if success then s.goOn p .setReuseAddr else s.cleanup p
  | .setReuseAddr => if success then s.goOn p .setSockAddr else s.cleanup p
  | .setSockAddr => (s.setFlag p false).goOn p .setReceiveTimeout
  | .setReceiveTimeout => if success then s.goOn p .bind else s.cleanup p
  | .bind => if success then s.finish p else s.cleanup p
  | .setReceiveDataFlag => (s.setFlag p true).goOn p .setCallback
  | .setCallback => s.goOn p .setUserCtx
  | .setUserCtx => s.goOn p .createThread
  | .createThread => if success then (s.finish p).addThread p else s.cleanup p
  | .getReceiveDataFlag =>
    if s.receiveDataFlag p then s.goOn p .clearReceiveDataFlag else s.finish p
  | .clearReceiveDataFlag => (s.setFlag p false).goOn p .getServerThread
  | .getServerThread => s.goOn p (.join (s.serverThread p))
  | .join _ => s.setCall none
  | .closeSocket => s.goOn p .freeServer
  | .freeServer => s.free p

/-- One step of `_net_server_recv_loop`. -/
def recvStep (t : ℕ) (thread : RecvThread) (result : RecvResult) : NetServers :=
  let s' := s.touch thread.server
  match thread.step with
  | .getReceiveDataFlag => s'.setThread t { thread with
      step := if s.receiveDataFlag thread.server then .recvfrom else .returned }
  | .recvfrom => s'.setThread t { thread with
      step := match result with
        | .bytes => .callback
        | .empty | .timeout => .getReceiveDataFlag
        | .failed => .returned }
  | .callback => s'.setThread t { thread with step := .getReceiveDataFlag }
  | .returned => s

def exec : NetServerAction → NetServers
  | .create memory => s.netServerCreate memory
  | .start callback => s.netServerStart callback
  | .stop => s.netServerStop
  | .destroy => s.netServerDestroy
  | .proceed success =>
    match s.call with
    | none => s
    | some (step, p) => s.callStep p success step
  | .thread t result =>
    match s.threads[t]? with
    | none => s
    | some thread => s.recvStep t thread result

variable {s} {p t : ℕ} {step : NetServerStep} {thread : RecvThread} {success : Bool}
  {result : RecvResult}

theorem exec_proceed (hc : s.call = some (step, p)) :
    s.exec (.proceed success) = s.callStep p success step := by
  simp only [exec, hc]

theorem exec_proceed_none (hc : s.call = none) : s.exec (.proceed success) = s := by
  simp only [exec, hc]

theorem exec_thread (ht : s.threads[t]? = some thread) :
    s.exec (.thread t result) = s.recvStep t thread result := by
  simp only [exec, ht]

theorem exec_thread_none (ht : s.threads[t]? = none) : s.exec (.thread t result) = s := by
  simp only [exec, ht]

variable (s)

/-! ### Which actions can come next -/

/-- No thread that receives for the server is still running. -/
def Idle (p : ℕ) : Prop := ∀ thread ∈ s.threads, thread.server = p → thread.step = .returned

instance (p : ℕ) : Decidable (s.Idle p) := inferInstanceAs (Decidable (∀ _ ∈ _, _ → _))

/-- The thread has returned, so that `pthread_join` does. -/
def Returned (t : ℕ) : Prop := ∀ thread ∈ s.threads[t]?, thread.step = .returned

instance (t : ℕ) : Decidable (s.Returned t) := inferInstanceAs (Decidable (∀ _ ∈ _, _))

/-- The caller makes one call after the other, and none after the destruction. -/
def Enabled : NetServerAction → Prop
  | .create _ | .start _ | .stop | .destroy => s.call = none ∧ s.destroyed = false
  | .proceed _ =>
    match s.call with
    | some (.join t, _) => s.Returned t
    | call => call.isSome = true
  | .thread t _ => t < s.threads.length

instance : ∀ a, Decidable (s.Enabled a)
  | .create _ | .start _ | .stop | .destroy => inferInstanceAs (Decidable (_ ∧ _))
  | .proceed _ => by
    unfold Enabled
    dsimp only
    split
    · infer_instance
    · infer_instance
  | .thread _ _ => inferInstanceAs (Decidable (_ < _))

variable {s}

/-- Only `pthread_join` waits. -/
theorem enabled_proceed (hc : s.call = some (step, p)) (hstep : ∀ t, step ≠ .join t) :
    s.Enabled (.proceed success) := by
  unfold Enabled
  rw [hc]
  cases step with
  | join t => exact absurd rfl (hstep t)
  | _ => rfl

end NetServers
end FileTransfer
