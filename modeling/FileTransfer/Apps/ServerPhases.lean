import FileTransfer.Apps.ServerProcess
import FileTransfer.ClientServer.NetServerLifetime

/-! Where the server is while `main` goes from its set-up to its return: as long as no system call
on it has failed, and after one has. -/
namespace FileTransfer
open Run

/-- What a receive thread does after a step. -/
def RecvStep.next (flag : Bool) (result : RecvResult) : RecvStep → RecvStep
  | .getReceiveDataFlag => if flag then .recvfrom else .returned
  | .recvfrom => match result with
    | .bytes => .callback
    | .empty | .timeout => .getReceiveDataFlag
    | .failed => .returned
  | .callback => .getReceiveDataFlag
  | .returned => .returned

/-- The teardown has come to the destruction of the server. -/
def ServerMainStep.destroys : ServerMainStep → Bool
  | .destroying | .destroyFile | .returned => true
  | _ => false

namespace NetServerStep

/-- The steps of `net_server_create`, of `net_server_start` and of `net_server_stop`. -/
def creates : NetServerStep → Bool
  | .socket | .setReuseAddr | .setSockAddr | .setReceiveTimeout | .bind => true
  | _ => false

def starts : NetServerStep → Bool
  | .setReceiveDataFlag | .setCallback | .setUserCtx | .createThread => true
  | _ => false

def stops : NetServerStep → Bool
  | .getReceiveDataFlag | .clearReceiveDataFlag | .getServerThread | .join _ => true
  | _ => false

end NetServerStep

namespace NetServers

/-- There is one thread, which receives for the server. -/
structure Serving (n : NetServers) (p : ℕ) (flag : Bool) : Prop where
  handle : n.handle = some p
  threads : ∃ step, n.threads = [⟨p, step⟩]
  serverThread : n.serverThread p = 0
  flag : n.receiveDataFlag p = flag

/-- No thread is running. -/
def Quiet (n : NetServers) : Prop := ∀ thread ∈ n.threads, thread.step = .returned

/-- Where the server is after a system call on it has failed. -/
def Wrecked (n : NetServers) (p : ℕ) : ServerMainStep → Prop
  | .createFile | .createServer | .startServer => False
  | .creating | .starting => n.call = some (.closeSocket, p) ∨ n.call = some (.freeServer, p) ∨
    n.call = none ∧ p ∈ HeapEvent.released n.events
  | .waiting | .stopServer | .destroyServer => n.call = none ∧ p ∈ HeapEvent.released n.events
  | .stopping => p ∈ HeapEvent.released n.events ∧
    ∀ step q, n.call = some (step, q) → step.stops = true
  | .destroying => (p ∈ HeapEvent.released n.events ∧
      (n.call = some (.closeSocket, p) ∨ n.call = some (.freeServer, p))) ∨
    n.call = none ∧ ¬ (HeapEvent.released n.events).Nodup
  | .destroyFile | .returned => n.call = none ∧ ¬ (HeapEvent.released n.events).Nodup

variable {n : NetServers} {p t : ℕ} {step : NetServerStep} {flag success : Bool}
  {thread : RecvThread} {result : RecvResult}

theorem exec_thread_run (ht : n.threads[t]? = some thread) (hrun : thread.step ≠ .returned) :
    n.exec (.thread t result) = (n.touch thread.server).setThread t
      ⟨thread.server, thread.step.next (n.receiveDataFlag thread.server) result⟩ := by
  rw [exec_thread ht]
  unfold recvStep
  cases hstep : thread.step with
  | returned => exact absurd hstep hrun
  | getReceiveDataFlag | recvfrom | callback => rfl

/-- The thread takes a step, and everything else stays. -/
theorem Serving.goesOn (h : n.Serving p flag) (result : RecvResult) :
    (n.exec (.thread 0 result)).Serving p flag ∧ (n.exec (.thread 0 result)).call = n.call := by
  obtain ⟨hhandle, ⟨step, hthreads⟩, hserver, hflag⟩ := h
  have ht : n.threads[0]? = some ⟨p, step⟩ := by rw [hthreads]; rfl
  by_cases hrun : step = .returned
  · have hexec : n.exec (.thread 0 result) = n := by
      rw [exec_thread ht]
      unfold recvStep
      rw [hrun]
    rw [hexec]
    exact ⟨⟨hhandle, ⟨step, hthreads⟩, hserver, hflag⟩, rfl⟩
  · rw [exec_thread_run ht hrun]
    refine ⟨⟨hhandle, ⟨step.next (n.receiveDataFlag p) result, ?_⟩, hserver, hflag⟩, rfl⟩
    unfold setThread touch
    dsimp only
    rw [hthreads]
    rfl

theorem quiet_of_threads (h : n.threads = []) : n.Quiet := by
  unfold Quiet
  rw [h]
  exact fun _ hmem => nomatch hmem

theorem Serving.quiet_of_returned (h : n.Serving p flag) (hr : n.Returned 0) : n.Quiet := by
  obtain ⟨step, hthreads⟩ := h.threads
  unfold Returned at hr
  unfold Quiet
  rw [hthreads] at hr ⊢
  intro thread hmem
  rw [List.mem_singleton.mp hmem]
  exact hr _ rfl

theorem Quiet.idle (h : n.Quiet) (p : ℕ) : n.Idle p := fun thread hmem _ => h thread hmem

/-- Where the server is at a step of `main`, if no system call on it has failed. -/
def Phase (n : NetServers) : ServerMainStep → Prop
  | .createFile | .createServer => n.handle = none ∧ n.call = none ∧ n.threads = []
  | .creating => n.threads = [] ∧ ∀ call ∈ n.call, call.1.creates = true
  | .startServer => n.threads = [] ∧ n.call = none ∧ n.handle ≠ none
  | .starting => (n.threads = [] ∧ ∃ step p, n.call = some (step, p) ∧ step.starts = true ∧
      (step ≠ .setReceiveDataFlag → n.receiveDataFlag p = true)) ∨
    n.call = none ∧ ∃ p, n.Serving p true
  | .waiting => n.call = none ∧ ∃ p, n.Serving p true
  | .stopServer =>
    n.call = none ∧ ((n.handle = none ∧ n.threads = []) ∨ ∃ p, n.Serving p true)
  | .stopping => (n.handle = none ∧ n.call = none ∧ n.threads = []) ∨
    (∃ p, n.Serving p true ∧ (n.call = some (.getReceiveDataFlag, p) ∨
      n.call = some (.clearReceiveDataFlag, p))) ∨
    ∃ p, n.Serving p false ∧ (n.call = some (.getServerThread, p) ∨ n.call = some (.join 0, p) ∨
      n.call = none ∧ n.Quiet)
  | .destroyServer => n.call = none ∧ n.Quiet
  | .destroying => n.Quiet ∧ (∀ call ∈ n.call, call.1.cleanup = true) ∧
    (n.call = none → ∀ p ∈ n.handle, p ∈ HeapEvent.released n.events)
  | .destroyFile | .returned =>
    n.call = none ∧ n.Quiet ∧ ∀ p ∈ n.handle, p ∈ HeapEvent.released n.events

/-- No system call on the server has failed. -/
structure Sound (n : NetServers) (step : ServerMainStep) : Prop where
  inv : n.Inv
  failed : n.failed = false
  destroyed : n.destroyed = step.destroys
  phase : n.Phase step

/-- A system call on the server has failed, so that `cleanup_server` frees it. -/
structure Broken (n : NetServers) (step : ServerMainStep) : Prop where
  failed : n.failed = true
  threads : n.threads = []
  phase : ∃ p, n.handle = some p ∧ n.Wrecked p step

variable {main : ServerMainStep}

/-! ### What a step of `main` makes of it -/

theorem Sound.create (h : n.Sound .createServer) (memory : Bool) :
    (n.exec (.create memory)).Sound .creating := by
  obtain ⟨hhandle, hcall, hthreads⟩ := h.phase
  constructor
  · exact h.inv.exec ⟨hcall, h.destroyed⟩ trivial
  · cases memory <;> rfl
  · cases memory <;> exact h.destroyed
  · cases memory with
    | false =>
      constructor
      · exact hthreads
      · intro call hc
        have hsome : n.call = some call := hc
        cases hcall.symm.trans hsome
    | true =>
      constructor
      · exact hthreads
      · intro call hc
        cases hc
        rfl

theorem destroyed_callStep : (n.callStep p success step).destroyed = n.destroyed := by
  cases step with
  | socket | setReuseAddr | setReceiveTimeout | bind | createThread => cases success <;> rfl
  | getReceiveDataFlag =>
    unfold callStep
    dsimp only
    split <;> rfl
  | _ => rfl

/-- A call goes on well. -/
theorem Sound.callStep (h : n.Sound main) (hc : n.call = some (step, p))
    (hidle : success = false → step = .createThread → n.Idle p)
    (hfailed : (n.callStep p success step).failed = n.failed)
    (hphase : (n.callStep p success step).Phase main) : (n.callStep p success step).Sound main where
  inv := h.inv.callStep hc hidle
  failed := hfailed.trans h.failed
  destroyed := destroyed_callStep.trans h.destroyed
  phase := hphase

/-- A system call fails before there is a thread. -/
theorem Sound.cleanup (h : n.Sound main) (hc : n.call = some (step, p)) (hthreads : n.threads = [])
    (hmain : main = .creating ∨ main = .starting) : (n.cleanup p).Broken main := by
  refine ⟨rfl, hthreads, p, (h.inv.call step p hc).handle, ?_⟩
  rcases hmain with rfl | rfl
  · exact Or.inl rfl
  · exact Or.inl rfl

theorem Sound.creating (h : n.Sound .creating) (hc : n.call = some (step, p)) (success : Bool) :
    (n.callStep p success step).Sound .creating ∨ (n.callStep p success step).Broken .creating := by
  obtain ⟨hthreads, hcreates⟩ := h.phase
  have hstep := hcreates _ hc
  cases success with
  | false =>
    cases step with
    | socket | setReuseAddr | setReceiveTimeout | bind =>
      exact Or.inr (h.cleanup hc hthreads (Or.inl rfl))
    | setSockAddr =>
      refine Or.inl (h.callStep hc nofun rfl ⟨hthreads, fun next hnext => ?_⟩)
      cases hnext
      rfl
    | _ => cases hstep
  | true =>
    refine Or.inl (h.callStep hc nofun ?_ ?_)
    · cases step <;> first | rfl | cases hstep
    · cases step with
      | socket | setReuseAddr | setSockAddr | setReceiveTimeout =>
        refine ⟨hthreads, fun next hnext => ?_⟩
        cases hnext
        rfl
      | bind => exact ⟨hthreads, nofun⟩
      | _ => cases hstep

theorem Sound.start (h : n.Sound .startServer) : (n.exec (.start true)).Sound .starting := by
  obtain ⟨hthreads, hcall, hhandle⟩ := h.phase
  obtain ⟨p, hp⟩ := Option.ne_none_iff_exists'.mp hhandle
  have hexec : n.exec (.start true) = n.setCall (some (.setReceiveDataFlag, p)) := by
    simp only [NetServers.exec, netServerStart, hp, if_true]
  constructor
  · exact h.inv.exec ⟨hcall, h.destroyed⟩ fun _ => h.failed
  · rw [hexec]
    exact h.failed
  · rw [hexec]
    exact h.destroyed
  · rw [hexec]
    exact Or.inl ⟨hthreads, _, p, rfl, rfl, fun hne => absurd rfl hne⟩

theorem Sound.starting (h : n.Sound .starting) (hc : n.call = some (step, p)) (success : Bool) :
    (n.callStep p success step).Sound .starting ∨ (n.callStep p success step).Broken .starting := by
  obtain ⟨hthreads, step', p', hc', hstarts, hflag⟩ | ⟨hnone, -⟩ := h.phase
  swap
  · cases hc.symm.trans hnone
  cases hc.symm.trans hc'
  cases step with
  | setReceiveDataFlag =>
    refine Or.inl (h.callStep hc nofun rfl (Or.inl ⟨hthreads, _, p, rfl, rfl, fun _ => ?_⟩))
    exact Function.update_self p true n.receiveDataFlag
  | setCallback | setUserCtx =>
    have hflag' := hflag nofun
    exact Or.inl (h.callStep hc nofun rfl (Or.inl ⟨hthreads, _, p, rfl, rfl, fun _ => hflag'⟩))
  | createThread =>
    cases success with
    | false => exact Or.inr (h.cleanup hc hthreads (Or.inr rfl))
    | true =>
      refine Or.inl (h.callStep hc nofun rfl (Or.inr ⟨rfl, p, ?_⟩))
      constructor
      · exact (h.inv.call _ p hc).handle
      · refine ⟨.getReceiveDataFlag, ?_⟩
        change n.threads ++ [⟨p, .getReceiveDataFlag⟩] = _
        rw [hthreads]
        rfl
      · change Function.update n.serverThread p n.threads.length p = 0
        rw [Function.update_self, hthreads]
        rfl
      · exact hflag nofun
  | _ => cases hstarts

theorem Sound.stop (h : n.Sound .stopServer) : (n.exec .stop).Sound .stopping := by
  obtain ⟨hcall, hphase⟩ := h.phase
  have hinv := h.inv.exec (a := .stop) ⟨hcall, h.destroyed⟩ h.failed
  rcases hphase with ⟨hhandle, hthreads⟩ | ⟨p, hserving⟩
  · have hexec : n.exec .stop = n := by simp only [NetServers.exec, netServerStop, hhandle]
    rw [hexec]
    exact ⟨h.inv, h.failed, h.destroyed, Or.inl ⟨hhandle, hcall, hthreads⟩⟩
  · have hexec : n.exec .stop = n.setCall (some (.getReceiveDataFlag, p)) := by
      simp only [NetServers.exec, netServerStop, hserving.handle]
    rw [hexec] at hinv ⊢
    refine ⟨hinv, h.failed, h.destroyed, Or.inr (Or.inl ⟨p, ?_, Or.inl rfl⟩)⟩
    exact { hserving with }

theorem Sound.stopping (h : n.Sound .stopping) (hc : n.call = some (step, p))
    (he : n.Enabled (.proceed success)) : (n.callStep p success step).Sound .stopping := by
  have hsound : ∀ {step}, n.call = some (step, p) → step.stops = true →
      (n.callStep p success step).failed = n.failed → (n.callStep p success step).Phase .stopping →
      (n.callStep p success step).Sound .stopping := by
    intro step hc hstops
    apply h.callStep hc
    intro _ hstep
    rw [hstep] at hstops
    cases hstops
  obtain ⟨-, hnone, -⟩ | ⟨q, hserving, hcall⟩ | ⟨q, hserving, hcall⟩ := h.phase
  · cases hc.symm.trans hnone
  · rcases hcall with hcall | hcall
    · cases hc.symm.trans hcall
      have hexec : n.callStep p success .getReceiveDataFlag =
          n.goOn p .clearReceiveDataFlag := if_pos hserving.flag
      apply hsound hc rfl
      · rw [hexec]
        rfl
      · rw [hexec]
        exact Or.inr (Or.inl ⟨p, { hserving with }, Or.inr rfl⟩)
    · cases hc.symm.trans hcall
      apply hsound hc rfl rfl
      have hflag : Function.update n.receiveDataFlag p false p = false := Function.update_self ..
      exact Or.inr (Or.inr ⟨p, { hserving with flag := hflag }, Or.inl rfl⟩)
  · rcases hcall with hcall | hcall | ⟨hnone, -⟩
    · cases hc.symm.trans hcall
      apply hsound hc rfl rfl
      refine Or.inr (Or.inr ⟨p, { hserving with }, Or.inr (Or.inl ?_)⟩)
      change some (NetServerStep.join (n.serverThread p), p) = _
      rw [hserving.serverThread]
    · cases hc.symm.trans hcall
      have hreturned : n.Returned 0 := by
        unfold NetServers.Enabled at he
        rwa [hc] at he
      apply hsound hc rfl rfl
      refine Or.inr (Or.inr ⟨p, { hserving with }, Or.inr (Or.inr ⟨rfl, ?_⟩)⟩)
      exact hserving.quiet_of_returned hreturned
    · cases hc.symm.trans hnone

theorem Sound.destroy (h : n.Sound .destroyServer) : (n.exec .destroy).Sound .destroying := by
  obtain ⟨hcall, hquiet⟩ := h.phase
  have hinv := h.inv.exec (a := .destroy) ⟨hcall, h.destroyed⟩ ⟨h.failed, fun p _ => hquiet.idle p⟩
  cases hhandle : n.handle with
  | none =>
    have hexec : n.exec .destroy = { n with destroyed := true } := by
      simp only [NetServers.exec, netServerDestroy, hhandle]
    rw [hexec] at hinv ⊢
    refine ⟨hinv, h.failed, rfl, hquiet, ?_, ?_⟩
    · intro call hc
      cases hcall.symm.trans hc
    · intro _ p hp
      cases hhandle.symm.trans hp
  | some p =>
    have hexec : n.exec .destroy =
        { n.setCall (some (.closeSocket, p)) with destroyed := true } := by
      simp only [NetServers.exec, netServerDestroy, hhandle]
    rw [hexec] at hinv ⊢
    refine ⟨hinv, h.failed, rfl, hquiet, ?_, ?_⟩
    · intro call hc
      cases hc
      rfl
    · intro hc
      cases hc

theorem Sound.destroying (h : n.Sound .destroying) (hc : n.call = some (step, p))
    (success : Bool) : (n.callStep p success step).Sound .destroying := by
  obtain ⟨hquiet, hcleanup, -⟩ := h.phase
  have hstep := hcleanup _ hc
  have hhandle := (h.inv.call step p hc).handle
  cases step with
  | closeSocket =>
    refine h.callStep hc nofun rfl ⟨hquiet, ?_, nofun⟩
    intro call hc'
    cases hc'
    rfl
  | freeServer =>
    refine h.callStep hc nofun rfl ⟨hquiet, nofun, ?_⟩
    intro _ q hq
    cases hhandle.symm.trans hq
    exact List.mem_cons_self
  | _ => cases hstep

/-- `main` goes on, and the server stays as it is. -/
theorem Sound.next (h : n.Sound main) {main' : ServerMainStep}
    (hmain : main'.destroys = main.destroys) (hphase : n.Phase main') : n.Sound main' where
  inv := h.inv
  failed := h.failed
  destroyed := h.destroyed.trans hmain.symm
  phase := hphase

/-! ### What a step of `main` makes of it after a failure -/

theorem Broken.cleaning (h : n.Broken main) (hc : n.call = some (step, p)) (success : Bool)
    (hmain : main = .creating ∨ main = .starting) : (n.callStep p success step).Broken main := by
  obtain ⟨q, hhandle, hwrecked⟩ := h.phase
  have hcall : n.call = some (.closeSocket, q) ∨ n.call = some (.freeServer, q) ∨
      n.call = none ∧ q ∈ HeapEvent.released n.events := by
    rcases hmain with rfl | rfl <;> exact hwrecked
  have hnext : ∀ {n' : NetServers}, (n'.call = some (.closeSocket, q) ∨
      n'.call = some (.freeServer, q) ∨ n'.call = none ∧ q ∈ HeapEvent.released n'.events) →
      n'.Wrecked q main := by
    rcases hmain with rfl | rfl <;> exact id
  rcases hcall with hcall | hcall | ⟨hnone, -⟩
  · cases hc.symm.trans hcall
    exact ⟨h.failed, h.threads, p, hhandle, hnext (Or.inr (Or.inl rfl))⟩
  · cases hc.symm.trans hcall
    exact ⟨h.failed, h.threads, p, hhandle, hnext (Or.inr (Or.inr ⟨rfl, List.mem_cons_self⟩))⟩
  · cases hc.symm.trans hnone

theorem Broken.stop (h : n.Broken .stopServer) : (n.exec .stop).Broken .stopping := by
  obtain ⟨p, hhandle, -, hfreed⟩ := h.phase
  have hexec : n.exec .stop = n.setCall (some (.getReceiveDataFlag, p)) := by
    simp only [NetServers.exec, netServerStop, hhandle]
  rw [hexec]
  refine ⟨h.failed, h.threads, p, hhandle, hfreed, fun step q hc => ?_⟩
  cases hc
  rfl

/-- The server that is stopped is no more. -/
theorem Broken.stopping (h : n.Broken .stopping) (hc : n.call = some (step, p)) (success : Bool) :
    (n.callStep p success step).Broken .stopping := by
  obtain ⟨q, hhandle, hfreed, hstops⟩ := h.phase
  have hstep := hstops step p hc
  cases step with
  | getReceiveDataFlag =>
    unfold callStep
    dsimp only
    split
    · refine ⟨h.failed, h.threads, q, hhandle, hfreed, fun step' q' hc' => ?_⟩
      cases hc'
      rfl
    · exact ⟨h.failed, h.threads, q, hhandle, hfreed, nofun⟩
  | clearReceiveDataFlag | getServerThread =>
    refine ⟨h.failed, h.threads, q, hhandle, hfreed, fun step' q' hc' => ?_⟩
    cases hc'
    rfl
  | join t => exact ⟨h.failed, h.threads, q, hhandle, hfreed, nofun⟩
  | _ => cases hstep

theorem Broken.destroy (h : n.Broken .destroyServer) : (n.exec .destroy).Broken .destroying := by
  obtain ⟨p, hhandle, -, hfreed⟩ := h.phase
  have hexec : n.exec .destroy =
      { n.setCall (some (.closeSocket, p)) with destroyed := true } := by
    simp only [NetServers.exec, netServerDestroy, hhandle]
  rw [hexec]
  exact ⟨h.failed, h.threads, p, hhandle, Or.inl ⟨hfreed, Or.inl rfl⟩⟩

/-- The server is freed once more. -/
theorem Broken.destroying (h : n.Broken .destroying) (hc : n.call = some (step, p))
    (success : Bool) : (n.callStep p success step).Broken .destroying := by
  obtain ⟨q, hhandle, hwrecked⟩ := h.phase
  obtain ⟨hfreed, hcall | hcall⟩ | ⟨hnone, -⟩ := hwrecked
  · cases hc.symm.trans hcall
    exact ⟨h.failed, h.threads, p, hhandle, Or.inl ⟨hfreed, Or.inr rfl⟩⟩
  · cases hc.symm.trans hcall
    refine ⟨h.failed, h.threads, p, hhandle, Or.inr ⟨rfl, fun hnodup => ?_⟩⟩
    exact (List.nodup_cons.mp hnodup).1 hfreed
  · cases hc.symm.trans hnone

/-! ### What a step of the thread makes of it -/

theorem Sound.recv (h : n.Sound main) (result : RecvResult) :
    (n.exec (.thread 0 result)).Sound main := by
  cases ht : n.threads[0]? with
  | none =>
    rw [exec_thread_none ht]
    exact h
  | some thread =>
    by_cases hrun : thread.step = .returned
    · have hexec : n.exec (.thread 0 result) = n := by
        rw [exec_thread ht]
        unfold NetServers.recvStep
        rw [hrun]
      rw [hexec]
      exact h
    have hlt : 0 < n.threads.length := (List.getElem?_eq_some_iff.mp ht).1
    have hsome : n.threads ≠ [] := List.ne_nil_of_length_pos hlt
    have hloud : ¬ n.Quiet := fun hquiet => hrun (hquiet thread (List.mem_of_getElem? ht))
    have hserving : ∀ {p flag}, n.Serving p flag → (n.exec (.thread 0 result)).Serving p flag :=
      fun hs => (hs.goesOn result).1
    have hexec : n.exec (.thread 0 result) = _ := exec_thread_run ht hrun
    have hcall : (n.exec (.thread 0 result)).call = n.call := by rw [hexec]; rfl
    refine ⟨h.inv.exec hlt trivial, ?_, ?_, ?_⟩
    · rw [hexec]
      exact h.failed
    · rw [hexec]
      exact h.destroyed
    have hphase := h.phase
    cases main with
    | createFile | createServer => exact absurd hphase.2.2 hsome
    | creating | startServer => exact absurd hphase.1 hsome
    | starting =>
      obtain ⟨hnil, -⟩ | ⟨hc, p, hs⟩ := hphase
      · exact absurd hnil hsome
      · exact Or.inr ⟨hcall.trans hc, p, hserving hs⟩
    | waiting =>
      obtain ⟨hc, p, hs⟩ := hphase
      exact ⟨hcall.trans hc, p, hserving hs⟩
    | stopServer =>
      obtain ⟨hc, ⟨-, hnil⟩ | ⟨p, hs⟩⟩ := hphase
      · exact absurd hnil hsome
      · exact ⟨hcall.trans hc, Or.inr ⟨p, hserving hs⟩⟩
    | stopping =>
      obtain ⟨-, -, hnil⟩ | ⟨p, hs, hc⟩ | ⟨p, hs, hc⟩ := hphase
      · exact absurd hnil hsome
      · exact Or.inr (Or.inl ⟨p, hserving hs, by rwa [hcall]⟩)
      · refine Or.inr (Or.inr ⟨p, hserving hs, ?_⟩)
        rw [hcall]
        exact hc.imp_right (Or.imp_right fun h => absurd h.2 hloud)
    | destroyServer => exact absurd hphase.2 hloud
    | destroying => exact absurd hphase.1 hloud
    | destroyFile | returned => exact absurd hphase.2.1 hloud

theorem Broken.recv (h : n.Broken main) (result : RecvResult) :
    n.exec (.thread 0 result) = n := by
  apply exec_thread_none
  rw [h.threads]
  rfl

end NetServers
end FileTransfer
