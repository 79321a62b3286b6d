import FileTransfer.Apps.ServerPhases
import FileTransfer.StorageManager.Ownership

/-! What holds in every run of the server process. -/
namespace FileTransfer
open Overlay Run

namespace NetServers

def Served (n : NetServers) (main : ServerMainStep) : Prop := n.Sound main ∨ n.Broken main

variable {n : NetServers} {main main' : ServerMainStep}

/-- A system call fails in a creation or in a start. -/
theorem Served.sound (h : n.Served main)
    (hmain : main = .createFile ∨ main = .createServer ∨ main = .startServer) : n.Sound main := by
  refine h.resolve_right fun hbroken => ?_
  obtain ⟨p, -, hno⟩ := hbroken.phase
  rcases hmain with rfl | rfl | rfl <;> exact hno

theorem Broken.next (h : n.Broken main) (hphase : ∀ p, n.Wrecked p main → n.Wrecked p main') :
    n.Broken main' := by
  obtain ⟨p, hhandle, hwrecked⟩ := h.phase
  exact ⟨h.failed, h.threads, p, hhandle, hphase p hwrecked⟩

end NetServers

namespace NetServers

/-- The calls only add threads, which start in front of their loop. -/
theorem threads_callStep (n : NetServers) (p : ℕ) (success : Bool) (step : NetServerStep) :
    ∃ new, (n.callStep p success step).threads = n.threads ++ new ∧
      ∀ thread ∈ new, thread.step = .getReceiveDataFlag := by
  have hnone : ∃ new, n.threads = n.threads ++ new ∧
      ∀ thread ∈ new, thread.step = RecvStep.getReceiveDataFlag :=
    ⟨[], (List.append_nil _).symm, nofun⟩
  cases step with
  | createThread =>
    cases success with
    | false => exact hnone
    | true =>
      refine ⟨_, rfl, fun thread hthread => ?_⟩
      rw [List.mem_singleton.mp hthread]
  | socket | setReuseAddr | setReceiveTimeout | bind => cases success <;> exact hnone
  | getReceiveDataFlag =>
    unfold callStep
    dsimp only
    split <;> exact hnone
  | _ => exact hnone

theorem threads_create (n : NetServers) (memory : Bool) :
    (n.exec (.create memory)).threads = n.threads := by
  cases memory <;> rfl

theorem threads_start (n : NetServers) : (n.exec (.start true)).threads = n.threads := by
  unfold exec netServerStart
  dsimp only
  split <;> rfl

theorem threads_stop (n : NetServers) : (n.exec .stop).threads = n.threads := by
  unfold exec netServerStop
  dsimp only
  split <;> rfl

theorem threads_destroy (n : NetServers) : (n.exec .destroy).threads = n.threads := by
  unfold exec netServerDestroy
  dsimp only
  split <;> rfl

end NetServers

namespace FileSenderServer
variable {layout : SizeLayout} {stored : Option (List UInt8)} {s : FileSenderServer}
  {success : Bool} {result : RecvResult} {data : List UInt8} {main next : ServerMainStep}

/-! ### The server -/

theorem served_proceed
    (hgo : ∀ step p, s.netServer.call = some (step, p) →
      (s.netServer.callStep p success step).Served s.step)
    (hnext : s.netServer.call = none → s.netServer.Served next) :
    (s.proceed success next).netServer.Served (s.proceed success next).step := by
  cases hc : s.netServer.call with
  | none =>
    rw [proceed_none hc]
    exact hnext hc
  | some call =>
    obtain ⟨step, p⟩ := call
    rw [proceed_some hc]
    exact hgo step p hc

theorem served_main (h : s.netServer.Served s.step) (he : s.Enabled (.main success)) :
    (s.mainStep stored success).netServer.Served (s.mainStep stored success).step := by
  have hjoin : ∀ {call}, s.netServer.call = some call → s.netServer.Enabled (.proceed success) :=
    fun hc => he.2 (hc ▸ Option.some_ne_none _)
  unfold mainStep
  cases hmain : s.step with
  | createFile =>
    rw [hmain] at h
    obtain ⟨hhandle, hcall, hthreads⟩ := (h.sound (Or.inl rfl)).phase
    dsimp only
    split
    · exact Or.inl ((h.sound (Or.inl rfl)).next rfl ⟨hhandle, hcall, hthreads⟩)
    · exact Or.inl ((h.sound (Or.inl rfl)).next rfl ⟨hcall, Or.inl ⟨hhandle, hthreads⟩⟩)
  | createServer =>
    rw [hmain] at h
    exact Or.inl ((h.sound (Or.inr (Or.inl rfl))).create success)
  | creating =>
    apply served_proceed
    · intro step p hc
      rw [hmain] at h ⊢
      rcases h with h | h
      · exact h.creating hc success
      · exact Or.inr (h.cleaning hc success (Or.inl rfl))
    · intro hc
      rw [hmain] at h
      rcases h with h | h
      · by_cases hhandle : s.netServer.handle = none
        · rw [if_pos (Or.inl hhandle)]
          exact Or.inl (h.next rfl ⟨hc, Or.inl ⟨hhandle, h.phase.1⟩⟩)
        · rw [if_neg (by simp [hhandle, h.failed])]
          exact Or.inl (h.next rfl ⟨h.phase.1, hc, hhandle⟩)
      · rw [if_pos (Or.inr h.failed)]
        refine Or.inr (h.next fun p hwrecked => ?_)
        rcases hwrecked with hc' | hc' | hc'
        · cases hc.symm.trans hc'
        · cases hc.symm.trans hc'
        · exact hc'
  | startServer =>
    rw [hmain] at h
    exact Or.inl (h.sound (Or.inr (Or.inr rfl))).start
  | starting =>
    apply served_proceed
    · intro step p hc
      rw [hmain] at h ⊢
      rcases h with h | h
      · exact h.starting hc success
      · exact Or.inr (h.cleaning hc success (Or.inr rfl))
    · intro hc
      rw [hmain] at h
      rcases h with h | h
      · rw [if_neg (by simp [h.failed])]
        refine Or.inl (h.next rfl ⟨hc, ?_⟩)
        rcases h.phase with ⟨-, step, p, hsome, -⟩ | ⟨-, hserving⟩
        · cases hc.symm.trans hsome
        · exact hserving
      · have hfreed : ∀ p, s.netServer.Wrecked p .starting → s.netServer.call = none ∧
            p ∈ HeapEvent.released s.netServer.events := by
          intro p hwrecked
          rcases hwrecked with hc' | hc' | hc'
          · cases hc.symm.trans hc'
          · cases hc.symm.trans hc'
          · exact hc'
        split
        · exact Or.inr (h.next hfreed)
        · exact Or.inr (h.next hfreed)
  | waiting =>
    dsimp only
    rw [hmain] at h
    split
    · rcases h with h | h
      · obtain ⟨hc, hserving⟩ := h.phase
        exact Or.inl (h.next rfl ⟨hc, Or.inr hserving⟩)
      · exact Or.inr (h.next fun p hwrecked => hwrecked)
    · rw [hmain]
      exact h
  | stopServer =>
    rw [hmain] at h
    exact h.imp (fun h => h.stop) fun h => h.stop
  | stopping =>
    apply served_proceed
    · intro step p hc
      rw [hmain] at h ⊢
      exact h.imp (fun h => h.stopping hc (hjoin hc)) fun h => h.stopping hc success
    · intro hc
      rw [hmain] at h
      rcases h with h | h
      · refine Or.inl (h.next rfl ⟨hc, ?_⟩)
        rcases h.phase with ⟨-, -, hnil⟩ | ⟨p, -, hc' | hc'⟩ | ⟨p, -, hc' | hc' | ⟨-, hquiet⟩⟩
        · exact NetServers.quiet_of_threads hnil
        · cases hc.symm.trans hc'
        · cases hc.symm.trans hc'
        · cases hc.symm.trans hc'
        · cases hc.symm.trans hc'
        · exact hquiet
      · exact Or.inr (h.next fun p hwrecked => ⟨hc, hwrecked.1⟩)
  | destroyServer =>
    rw [hmain] at h
    exact h.imp (fun h => h.destroy) fun h => h.destroy
  | destroying =>
    apply served_proceed
    · intro step p hc
      rw [hmain] at h ⊢
      exact h.imp (fun h => h.destroying hc success) fun h => h.destroying hc success
    · intro hc
      rw [hmain] at h
      rcases h with h | h
      · exact Or.inl (h.next rfl ⟨hc, h.phase.1, h.phase.2.2 hc⟩)
      · refine Or.inr (h.next fun p hwrecked => ?_)
        rcases hwrecked with ⟨-, hc' | hc'⟩ | hc'
        · cases hc.symm.trans hc'
        · cases hc.symm.trans hc'
        · exact hc'
  | destroyFile =>
    rw [hmain] at h
    have hnext : s.netServer.Served .returned :=
      h.imp (fun h => h.next rfl h.phase) fun h => h.next fun p hwrecked => hwrecked
    dsimp only
    split
    · exact hnext
    · split <;> exact hnext
  | returned => exact absurd hmain he.1

/-- A step of the callback leaves the server alone. -/
theorem callbackStep_frame (layout : SizeLayout) (s : FileSenderServer) (step : CallbackStep) :
    (s.callbackStep layout step).netServer = s.netServer ∧
      (s.callbackStep layout step).step = s.step ∧
      (s.callbackStep layout step).datagrams = s.datagrams ∧
      (s.callbackStep layout step).buffer = s.buffer := by
  unfold callbackStep
  split
  · exact ⟨rfl, rfl, rfl, rfl⟩
  · cases step with
    | fields =>
      dsimp only
      split <;> exact ⟨rfl, rfl, rfl, rfl⟩
    | stream => exact ⟨rfl, rfl, rfl, rfl⟩

/-- A step of the loop is one of the server's thread. -/
theorem threadStep_loop (layout : SizeLayout) (data : List UInt8) (hc : s.callback = none) :
    (s.threadStep layout result data).netServer = s.netServer.exec (.thread 0 result) ∧
      (s.threadStep layout result data).step = s.step ∧
      (s.threadStep layout result data).fileMngr = s.fileMngr ∧
      (s.threadStep layout result data).heap = s.heap := by
  unfold threadStep
  rw [hc]
  dsimp only
  cases ht : s.netServer.threads[0]? with
  | none =>
    rw [NetServers.exec_thread_none ht]
    exact ⟨rfl, rfl, rfl, rfl⟩
  | some thread =>
    dsimp only
    split
    · split <;> exact ⟨rfl, rfl, rfl, rfl⟩
    · exact ⟨rfl, rfl, rfl, rfl⟩
    · exact ⟨rfl, rfl, rfl, rfl⟩
    · exact ⟨rfl, rfl, rfl, rfl⟩

theorem served_thread (h : s.netServer.Served s.step) :
    (s.threadStep layout result data).netServer.Served (s.threadStep layout result data).step := by
  cases hc : s.callback with
  | none =>
    obtain ⟨hserver, hstep, -⟩ := threadStep_loop layout data hc
    rw [hserver, hstep]
    rcases h with h | h
    · exact Or.inl (h.recv result)
    · rw [h.recv]
      exact Or.inr h
  | some step =>
    obtain ⟨hserver, hstep, -⟩ := callbackStep_frame layout s step
    unfold threadStep
    rw [hc]
    dsimp only
    rw [hserver, hstep]
    exact h

/-- The server is quiet while the file is created or destroyed, and in the end. -/
theorem quiet_of_served (h : s.netServer.Served s.step)
    (hs : s.step = .createFile ∨ s.step = .destroyFile ∨ s.step = .returned) :
    s.netServer.Quiet := by
  rcases h with h | h
  · have hphase := h.phase
    rcases hs with hs | hs | hs <;> rw [hs] at hphase
    · exact NetServers.quiet_of_threads hphase.2.2
    · exact hphase.2.1
    · exact hphase.2.1
  · exact NetServers.quiet_of_threads h.threads

/-! ### The file -/

/-- A datagram has been received that the callback has not yet handled. -/
def handling (s : FileSenderServer) : Bool :=
  s.callback.isSome || decide (s.netServer.threads[0]?.map RecvThread.step = some .callback)

def pending (s : FileSenderServer) : List (List UInt8) := if s.handling then [s.buffer] else []

/-- What is allocated for the file; its path is left at the end. -/
def fileOwned (main : ServerMainStep) : Option RamFile → Multiset ℕ
  | none => 0
  | some f => if main = .returned then {f.filePath} else f.owned

/-- The file holds what the datagrams that were handled have made of it. -/
structure Stores (layout : SizeLayout) (stored : Option (List UInt8)) (s : FileSenderServer)
    (f : RamFile) : Prop where
  deleteFiles : f.deleteFiles = false
  handled : ∃ f₀ handled, f₀.maxFileSize = MAX_FILE_SIZE ∧ f₀.content = stored.getD [] ∧
    f = receivedAll layout f₀ handled ∧ s.datagrams = handled ++ s.pending

structure FileInv (layout : SizeLayout) (stored : Option (List UInt8)) (s : FileSenderServer) :
    Prop where
  owns : s.heap.Owns (fileOwned s.step s.fileMngr)
  start : s.step = .createFile → s.fileMngr = none ∧ s.datagrams = []
  inLoop : s.callback ≠ none → ∃ p, s.netServer.threads[0]? = some ⟨p, .getReceiveDataFlag⟩
  sizes : ∀ d ∈ s.datagrams, 0 < d.length ∧ d.length ≤ SERVER_BUFFER_SIZE
  stores : ∀ f ∈ s.fileMngr, Stores layout stored s f

theorem FileInv.callback_none (h : FileInv layout stored s) (hquiet : s.netServer.Quiet) :
    s.callback = none := by
  by_contra hc
  obtain ⟨p, hp⟩ := h.inLoop hc
  cases hquiet _ (List.mem_of_getElem? hp)

theorem pending_of_quiet (hc : s.callback = none) (hquiet : s.netServer.Quiet) :
    s.pending = [] := by
  have hno : s.netServer.threads[0]?.map RecvThread.step ≠ some .callback := by
    cases ht : s.netServer.threads[0]? with
    | none => exact nofun
    | some thread =>
      rw [Option.map_some, hquiet thread (List.mem_of_getElem? ht)]
      exact nofun
  unfold pending handling
  rw [hc, decide_eq_false hno]
  rfl

/-- A datagram that does not get as far as `fseek` changes nothing. -/
theorem received_of_not_writes {f : RamFile} {d : List UInt8} (h : writesChunk d = false) :
    received layout f d = f := by
  unfold writesChunk at h
  unfold received serverDataToFileCallback
  dsimp only at h ⊢
  by_cases hshort : UInt64.ofNat d.length < sizeofDataChunkProtocol
  · rw [if_pos hshort]
    rfl
  · have hlong : MAX_FILE_BUFFER_SIZE < UInt64.ofNat d.length - sizeofDataChunkProtocol := by
      simpa [hshort] using h
    rw [if_neg hshort, if_pos hlong]
    rfl

theorem received_of_not_seeks {f : RamFile} {d : List UInt8} (hw : writesChunk d = true)
    (h : seeksChunk layout f d = false) : received layout f d = f := by
  unfold writesChunk at hw
  unfold seeksChunk at h
  unfold received serverDataToFileCallback
  dsimp only at h hw ⊢
  simp only [Bool.and_eq_true, Bool.not_eq_true', decide_eq_false_iff_not] at hw
  rw [if_neg hw.1, if_neg hw.2, EStateM.run_bind, attempt_run]
  by_cases hzero : UInt64.ofNat d.length - sizeofDataChunkProtocol = 0
  · rw [hzero]
    rfl
  · have hbig : f.maxFileSize <
        chunkOffset layout d + (UInt64.ofNat d.length - sizeofDataChunkProtocol) := by
      simpa [hzero] using h
    have hrun : (ramFileWrite (chunkOffset layout d) (some (chunkData d))
        (UInt64.ofNat d.length - sizeofDataChunkProtocol)).run f = .error .EFBIG f := by
      simp only [ramFileWrite, if_neg hzero, EStateM.run_bind, EStateM.run_get, if_pos hbig]
      rfl
    rw [hrun]
    rfl

/-- What the steps of `main` between the creation and the destruction of the file leave. -/
structure Leads (s s' : FileSenderServer) : Prop where
  fileMngr : s'.fileMngr = s.fileMngr
  heap : s'.heap = s.heap
  buffer : s'.buffer = s.buffer
  callback : s'.callback = s.callback
  datagrams : s'.datagrams = s.datagrams
  threads : ∃ new, s'.netServer.threads = s.netServer.threads ++ new ∧
    ∀ thread ∈ new, thread.step = .getReceiveDataFlag
  step : s'.step ≠ .createFile ∧ s'.step ≠ .returned

variable {s' : FileSenderServer}

theorem Leads.of_threads {n : NetServers}
    (hn : n.threads = s.netServer.threads) (hmain : main ≠ .createFile ∧ main ≠ .returned) :
    Leads s { s with netServer := n, step := main } where
  fileMngr := rfl
  heap := rfl
  buffer := rfl
  callback := rfl
  datagrams := rfl
  threads := ⟨[], by rw [List.append_nil]; exact hn, nofun⟩
  step := hmain

theorem leads_proceed (hs : s.step ≠ .createFile ∧ s.step ≠ .returned)
    (hnext : next ≠ .createFile ∧ next ≠ .returned) : Leads s (s.proceed success next) := by
  cases hc : s.netServer.call with
  | none =>
    rw [proceed_none hc]
    exact .of_threads rfl hnext
  | some call =>
    obtain ⟨step, p⟩ := call
    rw [proceed_some hc]
    exact ⟨rfl, rfl, rfl, rfl, rfl, NetServers.threads_callStep _ p success step, hs⟩

theorem leads_main (hcreate : s.step ≠ .createFile) (hdestroy : s.step ≠ .destroyFile)
    (hreturned : s.step ≠ .returned) : Leads s (s.mainStep stored success) := by
  have hs := And.intro hcreate hreturned
  unfold mainStep
  cases hmain : s.step with
  | createFile => exact absurd hmain hcreate
  | destroyFile => exact absurd hmain hdestroy
  | returned => exact absurd hmain hreturned
  | createServer => exact .of_threads (NetServers.threads_create _ success) ⟨nofun, nofun⟩
  | creating =>
    apply leads_proceed hs
    split <;> exact ⟨nofun, nofun⟩
  | startServer => exact .of_threads (NetServers.threads_start _) ⟨nofun, nofun⟩
  | starting =>
    apply leads_proceed hs
    split <;> exact ⟨nofun, nofun⟩
  | waiting =>
    dsimp only
    split
    · exact .of_threads rfl ⟨nofun, nofun⟩
    · exact .of_threads rfl hs
  | stopServer => exact .of_threads (NetServers.threads_stop _) ⟨nofun, nofun⟩
  | stopping | destroying => exact leads_proceed hs ⟨nofun, nofun⟩
  | destroyServer => exact .of_threads (NetServers.threads_destroy _) ⟨nofun, nofun⟩

theorem Leads.first (h : Leads s s') :
    s'.netServer.threads[0]? = s.netServer.threads[0]? ∨
      s.netServer.threads[0]? = none ∧
        ∃ p, s'.netServer.threads[0]? = some ⟨p, .getReceiveDataFlag⟩ := by
  obtain ⟨new, hnew, hsteps⟩ := h.threads
  rw [hnew]
  cases s.netServer.threads with
  | cons thread threads => exact Or.inl rfl
  | nil =>
    cases new with
    | nil => exact Or.inl rfl
    | cons thread new =>
      have hstep := hsteps thread List.mem_cons_self
      refine Or.inr ⟨rfl, thread.server, ?_⟩
      rw [← hstep]
      rfl

theorem Leads.pending (h : Leads s s') : s'.pending = s.pending := by
  have hhandling : s'.handling = s.handling := by
    unfold handling
    rw [h.callback]
    rcases h.first with hfirst | ⟨hnone, p, hsome⟩
    · rw [hfirst]
    · rw [hnone, hsome]
      rfl
  unfold FileSenderServer.pending
  rw [hhandling, h.buffer]

theorem FileInv.leads (h : FileInv layout stored s) (hl : Leads s s') (hs : s.step ≠ .returned) :
    FileInv layout stored s' := by
  have howned : fileOwned s'.step s.fileMngr = fileOwned s.step s.fileMngr := by
    unfold fileOwned
    split
    · rfl
    · rw [if_neg hs, if_neg hl.step.2]
  constructor
  · rw [hl.heap, hl.fileMngr, howned]
    exact h.owns
  · exact fun hstep => absurd hstep hl.step.1
  · intro hc
    rw [hl.callback] at hc
    obtain ⟨p, hp⟩ := h.inLoop hc
    rcases hl.first with hfirst | ⟨hnone, -⟩
    · exact ⟨p, hfirst.trans hp⟩
    · cases hnone.symm.trans hp
  · rw [hl.datagrams]
    exact h.sizes
  · intro f hf
    rw [hl.fileMngr] at hf
    obtain ⟨hdelete, hhandled⟩ := h.stores f hf
    rw [← hl.pending, ← hl.datagrams] at hhandled
    exact ⟨hdelete, hhandled⟩

theorem FileInv.createFile (h : FileInv layout stored s) (hs : s.step = .createFile)
    (hquiet : s.netServer.Quiet) : FileInv layout stored (s.mainStep stored success) := by
  obtain ⟨hnone, hdatagrams⟩ := h.start hs
  have howns := h.owns
  rw [hnone] at howns
  have hleaves := ramFileCreate_accounts stored ⟨MAX_FILE_SIZE, false⟩ 0 howns
  cases hrun : (ramFileCreate stored ⟨MAX_FILE_SIZE, false⟩).run s.heap with
  | ok f heap =>
    rw [hrun] at hleaves
    have hnext : s.mainStep stored success =
        { s with fileMngr := some f, heap, step := .createServer } := by
      simp only [mainStep, hs, appSetupFile, hrun]
    obtain ⟨hmax, hcontent, hdelete⟩ := ramFileCreate_ok hrun
    rw [hnext]
    refine ⟨?_, nofun, h.inLoop, h.sizes, ?_⟩
    · have hleft : heap.Owns (f.owned + 0) := hleaves
      rw [add_zero] at hleft
      exact hleft
    · intro f' hf'
      cases hf'
      refine ⟨hdelete, f, [], hmax, hcontent, rfl, ?_⟩
      exact hdatagrams.trans (pending_of_quiet (h.callback_none hquiet) hquiet).symm
  | error e heap =>
    rw [hrun] at hleaves
    have hnext : s.mainStep stored success = { s with heap, step := .stopServer } := by
      simp only [mainStep, hs, appSetupFile, hrun]
    obtain ⟨A, hA, hleft⟩ := hleaves
    cases hA
    rw [hnext]
    refine ⟨?_, nofun, h.inLoop, h.sizes, ?_⟩
    · change heap.Owns (fileOwned .stopServer s.fileMngr)
      rw [hnone]
      exact hleft
    · intro f hf
      cases hnone.symm.trans hf

theorem FileInv.destroyFile (h : FileInv layout stored s) (hs : s.step = .destroyFile) :
    FileInv layout stored (s.mainStep stored success) := by
  have howns := h.owns
  cases hf : s.fileMngr with
  | none =>
    have hnext : s.mainStep stored success = { s with step := .returned } := by
      simp only [mainStep, hs, hf]
    rw [hf] at howns
    rw [hnext]
    refine ⟨?_, nofun, h.inLoop, h.sizes, ?_⟩
    · change s.heap.Owns (fileOwned .returned s.fileMngr)
      rw [hf]
      exact howns
    · intro f hf'
      cases hf.symm.trans hf'
  | some f =>
    rw [hf, hs] at howns
    have hstores := h.stores f hf
    have hleaves := ramFileDestroy_accounts_path (E := none) f 0 hstores.deleteFiles howns
    cases hrun : (ramFileDestroy f).run s.heap with
    | ok u heap =>
      rw [hrun] at hleaves
      have hnext : s.mainStep stored success = { s with heap, step := .returned } := by
        simp only [mainStep, hs, hf, hrun]
      rw [hnext]
      refine ⟨?_, nofun, h.inLoop, h.sizes, ?_⟩
      · change heap.Owns (fileOwned .returned s.fileMngr)
        rw [hf]
        exact hleaves
      · intro f' hf'
        cases hf.symm.trans hf'
        exact ⟨hstores.deleteFiles, hstores.handled⟩
    | error e heap =>
      rw [hrun] at hleaves
      obtain ⟨A, hA, -⟩ := hleaves
      cases hA

/-- The callback changes nothing of a file but its bytes. -/
theorem received_frame (layout : SizeLayout) (f : RamFile) (d : List UInt8) :
    ∃ content, received layout f d = { f with content } := by
  have hwrite : ∀ offset data dataSize, Leaves (fun _ g => ∃ content, g = { f with content })
      (fun g => ∃ content, g = { f with content }) ((ramFileWrite offset data dataSize).run f) := by
    intro offset data dataSize
    unfold ramFileWrite
    cases data with
    | none => exact ⟨f.content, rfl⟩
    | some bytes =>
      by_cases hzero : dataSize = 0
      · simp only [if_pos hzero]
        exact ⟨f.content, rfl⟩
      simp only [if_neg hzero, EStateM.run_bind, EStateM.run_get]
      by_cases hbig : f.maxFileSize < offset + dataSize
      · simp only [if_pos hbig]
        exact ⟨f.content, rfl⟩
      simp only [if_neg hbig]
      by_cases hseek : (!seekable offset) = true
      · simp only [if_pos hseek]
        exact ⟨f.content, rfl⟩
      simp only [if_neg hseek]
      by_cases hshort : bytes.length < dataSize.toNat
      · simp only [if_pos hshort]
        exact ⟨f.content, rfl⟩
      simp only [if_neg hshort]
      exact ⟨_, rfl⟩
  cases hw : writesChunk d with
  | false => exact ⟨f.content, received_of_not_writes hw⟩
  | true =>
    unfold writesChunk at hw
    unfold received serverDataToFileCallback
    dsimp only at hw ⊢
    simp only [Bool.and_eq_true, Bool.not_eq_true', decide_eq_false_iff_not] at hw
    rw [if_neg hw.1, if_neg hw.2, EStateM.run_bind, attempt_run]
    have hleaves := hwrite (chunkOffset layout d) (some (chunkData d))
      (UInt64.ofNat d.length - sizeofDataChunkProtocol)
    cases hrun : (ramFileWrite (chunkOffset layout d) (some (chunkData d))
        (UInt64.ofNat d.length - sizeofDataChunkProtocol)).run f with
    | ok u g =>
      rw [hrun] at hleaves
      exact hleaves
    | error e g =>
      rw [hrun] at hleaves
      exact hleaves

/-- The callback has handled the datagram in the buffer. -/
theorem Stores.received {f : RamFile} (h : Stores layout stored s f)
    (hhandling : s.handling = true) (hdatagrams : s'.datagrams = s.datagrams)
    (hpending : s'.pending = []) : Stores layout stored s' (received layout f s.buffer) := by
  obtain ⟨hdelete, f₀, handled, hmax, hcontent, rfl, hhandled⟩ := h
  obtain ⟨content, hframe⟩ := received_frame layout (receivedAll layout f₀ handled) s.buffer
  constructor
  · rw [hframe]
    exact hdelete
  · refine ⟨f₀, handled ++ [s.buffer], hmax, hcontent, (List.foldl_concat ..).symm, ?_⟩
    rw [hdatagrams, hhandled, hpending, List.append_nil, pending, if_pos hhandling]

theorem pending_of_loop {p : ℕ} (hc : s.callback = none)
    (hp : s.netServer.threads[0]? = some ⟨p, .getReceiveDataFlag⟩) : s.pending = [] := by
  unfold pending handling
  rw [hc, hp]
  rfl

/-- The callback goes on to `fseek`, or has done what it does with the datagram. -/
theorem callbackStep_cases (layout : SizeLayout) {f : RamFile} (hf : s.fileMngr = some f)
    (step : CallbackStep) :
    (∃ p ∈ f.owned, s.callbackStep layout step =
      { s with heap := s.heap.accessed p, callback := some .stream }) ∨
    ∃ heap, (heap = s.heap ∨ ∃ p ∈ f.owned, heap = s.heap.accessed p) ∧
      s.callbackStep layout step = { s with
        heap, fileMngr := some (received layout f s.buffer), callback := none } := by
  have haddr : f.addr ∈ f.owned := by simp [RamFile.owned]
  have hfile : f.file ∈ f.owned := by simp [RamFile.owned]
  unfold callbackStep
  rw [hf]
  cases step with
  | stream => exact Or.inr ⟨_, Or.inr ⟨_, hfile, rfl⟩, rfl⟩
  | fields =>
    dsimp only
    by_cases hw : writesChunk s.buffer = true
    · rw [if_pos hw]
      by_cases hseek : seeksChunk layout f s.buffer = true
      · rw [if_pos hseek]
        exact Or.inl ⟨_, haddr, rfl⟩
      · rw [if_neg hseek, received_of_not_seeks hw (Bool.eq_false_iff.mpr hseek)]
        exact Or.inr ⟨_, Or.inr ⟨_, haddr, rfl⟩, rfl⟩
    · rw [if_neg hw, received_of_not_writes (Bool.eq_false_iff.mpr hw)]
      exact Or.inr ⟨_, Or.inl rfl, rfl⟩

theorem FileInv.callbackStep (h : FileInv layout stored s) (hs : s.step ≠ .returned)
    {step : CallbackStep} (hc : s.callback = some step) :
    FileInv layout stored (s.callbackStep layout step) := by
  have hhandling : s.handling = true := by
    unfold handling
    rw [hc]
    rfl
  obtain ⟨p, hp⟩ := h.inLoop (hc ▸ Option.some_ne_none step)
  cases hf : s.fileMngr with
  | none =>
    have hnext : s.callbackStep layout step = { s with callback := none } := by
      unfold FileSenderServer.callbackStep
      rw [hf]
    rw [hnext]
    refine ⟨h.owns, h.start, nofun, h.sizes, ?_⟩
    intro f hf'
    cases hf.symm.trans hf'
  | some f =>
    have hstores := h.stores f hf
    have howns : s.heap.Owns f.owned := by
      have howns := h.owns
      rwa [hf, fileOwned, if_neg hs] at howns
    have hstart : s.step ≠ .createFile := by
      intro hs
      cases hf.symm.trans (h.start hs).1
    rcases callbackStep_cases layout hf step with
      ⟨q, hq, hnext⟩ | ⟨heap, hheap, hnext⟩
    · rw [hnext]
      refine ⟨?_, fun hs => absurd hs hstart, fun _ => ⟨p, hp⟩, h.sizes, ?_⟩
      · change (s.heap.accessed q).Owns (fileOwned s.step s.fileMngr)
        rw [hf, fileOwned, if_neg hs]
        exact howns.accessed hq
      · intro f' hf'
        cases hf.symm.trans hf'
        obtain ⟨hdelete, f₀, handled, hmax, hcontent, hreceived, hdatagrams⟩ := hstores
        rw [pending, if_pos hhandling] at hdatagrams
        exact ⟨hdelete, f₀, handled, hmax, hcontent, hreceived, hdatagrams⟩
    · obtain ⟨content, hframe⟩ := received_frame layout f s.buffer
      rw [hnext]
      refine ⟨?_, fun hs => absurd hs hstart, nofun, h.sizes, ?_⟩
      · change heap.Owns (fileOwned s.step (some (FileTransfer.received layout f s.buffer)))
        rw [fileOwned, if_neg hs, hframe]
        rcases hheap with rfl | ⟨q, hq, rfl⟩
        · exact howns
        · exact howns.accessed hq
      · intro f' hf'
        cases hf'
        exact hstores.received hhandling rfl (pending_of_loop rfl hp)

theorem first_exec_thread {n : NetServers} {thread : RecvThread} (ht : n.threads[0]? = some thread)
    (hrun : thread.step ≠ .returned) : (n.exec (.thread 0 result)).threads[0]? =
      some ⟨thread.server, thread.step.next (n.receiveDataFlag thread.server) result⟩ := by
  have hlt : 0 < n.threads.length := (List.getElem?_eq_some_iff.mp ht).1
  rw [NetServers.exec_thread_run ht hrun]
  exact List.getElem?_set_self hlt

/-- The loop has not received anything, has received a datagram, or enters the callback. -/
theorem loopStep_cases (layout : SizeLayout) (data : List UInt8) {thread : RecvThread}
    (hc : s.callback = none) (ht : s.netServer.threads[0]? = some thread)
    (hrun : thread.step ≠ .returned) :
    let n := s.netServer.exec (.thread 0 result)
    (s.threadStep layout result data = { s with netServer := n } ∧
      s.handling = false ∧ n.threads[0]?.map RecvThread.step ≠ some .callback) ∨
    (result = .bytes ∧ s.threadStep layout result data =
        { s with netServer := n, buffer := data, datagrams := s.datagrams ++ [data] } ∧
      s.handling = false ∧ n.threads[0]?.map RecvThread.step = some .callback) ∨
    (s.threadStep layout result data = { s with netServer := n, callback := some .fields } ∧
      s.handling = true ∧ n.threads[0]? = some ⟨thread.server, .getReceiveDataFlag⟩) := by
  intro n
  have hfirst : n.threads[0]? = _ := first_exec_thread ht hrun
  unfold threadStep handling
  rw [hc, hfirst]
  simp only [ht, Option.isSome_none, Bool.false_or, Option.map_some]
  cases hstep : thread.step with
  | returned => exact absurd hstep hrun
  | callback => exact Or.inr (Or.inr ⟨rfl, rfl, rfl⟩)
  | getReceiveDataFlag =>
    refine Or.inl ⟨rfl, rfl, ?_⟩
    unfold RecvStep.next
    dsimp only
    split <;> exact nofun
  | recvfrom =>
    cases result with
    | bytes => exact Or.inr (Or.inl ⟨rfl, if_pos rfl, rfl, rfl⟩)
    | empty | timeout | failed => exact Or.inl ⟨if_neg nofun, rfl, nofun⟩

theorem FileInv.loopStep (h : FileInv layout stored s) (hc : s.callback = none)
    (he : s.Enabled (.thread result data)) (hstart : s.step = .createFile → s.netServer.Quiet) :
    FileInv layout stored (s.threadStep layout result data) := by
  obtain ⟨hs, ⟨thread, ht, hrun⟩, hdata⟩ := he
  have hnotStart : s.step ≠ .createFile := fun hs => hrun (hstart hs _ (List.mem_of_getElem? ht))
  rcases loopStep_cases layout data hc ht hrun with
    ⟨hnext, hidle, hnot⟩ | ⟨hbytes, hnext, hidle, hcallback⟩ | ⟨hnext, hhandling, hloop⟩
  · rw [hnext]
    refine ⟨h.owns, h.start, fun hsome => absurd hc hsome, h.sizes, ?_⟩
    intro f hf
    obtain ⟨hdelete, f₀, handled, hmax, hcontent, hreceived, hdatagrams⟩ := h.stores f hf
    refine ⟨hdelete, f₀, handled, hmax, hcontent, hreceived, ?_⟩
    rw [pending, hidle] at hdatagrams
    unfold pending handling
    dsimp only
    rw [hc, decide_eq_false hnot]
    exact hdatagrams
  · rw [hnext]
    refine ⟨h.owns, fun hs => absurd hs hnotStart, fun hsome => absurd hc hsome, ?_, ?_⟩
    · exact List.forall_mem_append.mpr ⟨h.sizes, List.forall_mem_singleton.mpr (hdata hbytes)⟩
    · intro f hf
      obtain ⟨hdelete, f₀, handled, hmax, hcontent, hreceived, hdatagrams⟩ := h.stores f hf
      refine ⟨hdelete, f₀, handled, hmax, hcontent, hreceived, ?_⟩
      rw [pending, hidle, if_neg nofun, List.append_nil] at hdatagrams
      unfold pending handling
      dsimp only
      rw [hcallback, decide_eq_true rfl, Bool.or_true, hdatagrams]
      rfl
  · rw [hnext]
    refine ⟨h.owns, h.start, fun _ => ⟨_, hloop⟩, h.sizes, ?_⟩
    intro f hf
    obtain ⟨hdelete, f₀, handled, hmax, hcontent, hreceived, hdatagrams⟩ := h.stores f hf
    refine ⟨hdelete, f₀, handled, hmax, hcontent, hreceived, ?_⟩
    rw [pending, hhandling] at hdatagrams
    exact hdatagrams

/-! ### Runs -/

/-- What holds in every state that the process reaches. -/
structure Inv (layout : SizeLayout) (stored : Option (List UInt8)) (s : FileSenderServer) :
    Prop where
  served : s.netServer.Served s.step
  file : FileInv layout stored s

theorem inv_initial (grant : ℕ → Bool) : Inv layout stored (initial grant) where
  served := Or.inl ⟨NetServers.inv_initial, rfl, rfl, rfl, rfl, rfl⟩
  file := ⟨.start grant 0, fun _ => ⟨rfl, rfl⟩, fun hno => absurd rfl hno, nofun, nofun⟩

theorem Inv.exec (h : Inv layout stored s) {a : ServerAction} (he : s.Enabled a) :
    Inv layout stored (s.exec layout stored a) := by
  cases a with
  | main success =>
    refine ⟨served_main h.served he, ?_⟩
    by_cases hcreate : s.step = .createFile
    · exact h.file.createFile hcreate (quiet_of_served h.served (Or.inl hcreate))
    by_cases hdestroy : s.step = .destroyFile
    · exact h.file.destroyFile hdestroy
    · exact h.file.leads (leads_main hcreate hdestroy he.1) he.1
  | thread result data =>
    refine ⟨served_thread h.served, ?_⟩
    cases hc : s.callback with
    | none => exact h.file.loopStep hc he fun hs => quiet_of_served h.served (Or.inl hs)
    | some step =>
      have hnext : s.threadStep layout result data = s.callbackStep layout step := by
        unfold threadStep
        rw [hc]
      unfold FileSenderServer.exec
      dsimp only
      rw [hnext]
      exact h.file.callbackStep he.1 hc

variable {grant : ℕ → Bool}

theorem inv_of_reach (h : Reach Enabled (exec layout stored) (initial grant) s) :
    Inv layout stored s :=
  h.invariant (Inv layout stored) (inv_initial grant) fun _ _ hinv he => hinv.exec he

/-- The process starts, receives the datagram, and is stopped by a signal. -/
def receiveOne (d : List UInt8) : List ServerAction :=
  List.replicate 14 (.main true) ++
    [.thread .timeout [], .thread .bytes d, .thread .timeout [], .thread .timeout [],
      .thread .timeout []] ++
    List.replicate 5 (.main true) ++ [.thread .timeout []] ++ List.replicate 7 (.main true)

/-- The file is used properly in every run. The server is as long as no system call on it has
failed, and is then freed once; after a failure the teardown frees it a second time. Of what was
allocated for the file only its path is left. -/
theorem process_safe (h : Reach Enabled (exec layout stored) (initial grant) s) :
    HeapEvent.Clean s.heap.events ∧ (s.netServer.failed = false → s.netServer.Safe) ∧
      (s.step = .returned →
        s.heap.Owns (s.fileMngr.elim 0 fun f => {f.filePath}) ∧
        (s.netServer.Safe ↔ s.netServer.failed = false) ∧
        (s.netServer.failed = false → ∀ p ∈ s.netServer.handle,
          (HeapEvent.released s.netServer.events).count p = 1)) := by
  obtain ⟨hserved, hfile⟩ := inv_of_reach h
  have hsound : s.netServer.failed = false → s.netServer.Sound s.step := by
    intro hgood
    refine hserved.resolve_right fun hbroken => ?_
    cases hgood.symm.trans hbroken.failed
  have hsafe : s.netServer.failed = false → s.netServer.Safe :=
    fun hgood => NetServers.safe_iff.mpr (hsound hgood).inv.clean
  refine ⟨hfile.owns.ledger.clean, hsafe, ?_⟩
  intro hreturned
  have howns := hfile.owns
  rw [hreturned] at hserved hsound howns
  refine ⟨?_, ⟨?_, hsafe⟩, ?_⟩
  · cases hf : s.fileMngr with
    | none =>
      rw [hf] at howns
      exact howns
    | some f =>
      rw [hf] at howns
      exact howns
  · intro hs
    rcases hserved with hserved | hserved
    · exact hserved.failed
    · obtain ⟨p, -, -, htwice⟩ := hserved.phase
      exact absurd hs.1 htwice
  · intro hgood p hp
    have hfreed := (hsound hgood).phase.2.2 p hp
    exact List.count_eq_one_of_mem (hsafe hgood).1 hfreed

theorem process_safe_one : ∃ s,
    Reach Enabled (exec .littleEndian none) (initial fun _ => true) s ∧ s.step = .returned ∧
      s.netServer.handle = some 0 ∧ s.netServer.Safe := by
  have h : Reach Enabled (exec .littleEndian none) (initial fun _ => true) _ :=
    Reach.start.foldl (receiveOne (List.replicate 17 0)) (by decide +kernel)
  refine ⟨_, h, ?_, ?_, (process_safe h).2.1 ?_⟩
  · decide +kernel
  · decide +kernel
  · decide +kernel

/-- Only `recvfrom` adds a datagram. -/
theorem datagrams_exec (layout : SizeLayout) (stored : Option (List UInt8)) (s : FileSenderServer)
    (a : ServerAction) : (s.exec layout stored a).datagrams = s.datagrams ∨
      ∃ data, a = .thread .bytes data ∧
        (s.exec layout stored a).datagrams = s.datagrams ++ [data] := by
  cases a with
  | main success =>
    left
    change (s.mainStep stored success).datagrams = s.datagrams
    by_cases hframe : s.step ≠ .createFile ∧ s.step ≠ .destroyFile ∧ s.step ≠ .returned
    · exact (leads_main hframe.1 hframe.2.1 hframe.2.2).datagrams
    · have hs : s.step = .createFile ∨ s.step = .destroyFile ∨ s.step = .returned := by tauto
      unfold mainStep
      rcases hs with hs | hs | hs <;> rw [hs] <;> dsimp only
      · split <;> rfl
      · split
        · rfl
        · split <;> rfl
  | thread result data =>
    change (s.threadStep layout result data).datagrams = _ ∨ ∃ d, _ ∧
      (s.threadStep layout result data).datagrams = _
    cases hc : s.callback with
    | some step =>
      left
      unfold threadStep
      rw [hc]
      exact (callbackStep_frame layout s step).2.2.1
    | none =>
      cases ht : s.netServer.threads[0]? with
      | none =>
        left
        unfold threadStep
        rw [hc, ht]
      | some thread =>
        by_cases hrun : thread.step = .returned
        · left
          unfold threadStep
          rw [hc, ht]
          dsimp only
          rw [hrun]
        rcases loopStep_cases layout data hc ht hrun with
          ⟨hnext, -⟩ | ⟨hbytes, hnext, -⟩ | ⟨hnext, -⟩
        · rw [hnext]
          exact Or.inl rfl
        · rw [hnext, hbytes]
          exact Or.inr ⟨data, rfl, rfl⟩
        · rw [hnext]
          exact Or.inl rfl

theorem Inv.content (h : Inv layout stored s) : ∀ f ∈ s.fileMngr, ∃ handled,
    s.datagrams = handled ++ s.pending ∧
      f.content = writeAll 0 (stored.getD []) (acceptedChunks layout handled) := by
  intro f hf
  obtain ⟨-, f₀, handled, hmax, hcontent, hreceived, hdatagrams⟩ := h.file.stores f hf
  refine ⟨handled, hdatagrams, ?_⟩
  have hlen : ∀ d ∈ handled, d.length < 2 ^ 63 := by
    intro d hd
    apply length_lt_of_buffer
    exact (h.file.sizes d (hdatagrams ▸ List.mem_append_left _ hd)).2
  rw [hreceived, receivedAll_content hmax hlen, hcontent]
  rfl

theorem Inv.pending_returned (h : Inv layout stored s) (hs : s.step = .returned) :
    s.pending = [] := by
  have hquiet := quiet_of_served h.served (Or.inr (Or.inr hs))
  exact pending_of_quiet (h.file.callback_none hquiet) hquiet

/-- The file has the datagrams that the callback has handled, each of them once and in the order
of their arrival, and none is left when `main` returns. -/
theorem process_stores (h : Reach Enabled (exec layout stored) (initial grant) s) :
    ∀ f ∈ s.fileMngr, ∃ handled, s.datagrams = handled ++ s.pending ∧
      f.content = writeAll 0 (stored.getD []) (acceptedChunks layout handled) ∧
      (s.step = .returned → s.pending = []) := by
  intro f hf
  have hinv := inv_of_reach h
  obtain ⟨handled, hdatagrams, hcontent⟩ := hinv.content f hf
  exact ⟨handled, hdatagrams, hcontent, hinv.pending_returned⟩

theorem process_stores_one : ∃ s f handled,
    Reach Enabled (exec .littleEndian (some [9])) (initial fun _ => true) s ∧
      s.step = .returned ∧ s.fileMngr = some f ∧ s.datagrams = handled ∧ handled.length = 1 ∧
      f.content = writeAll 0 [9] (acceptedChunks .littleEndian handled) := by
  have h : Reach Enabled (exec .littleEndian (some [9])) (initial fun _ => true) _ :=
    Reach.start.foldl (receiveOne (List.replicate 17 0)) (by decide +kernel)
  obtain ⟨f, hf⟩ : ∃ f, ((receiveOne (List.replicate 17 0)).foldl (exec .littleEndian (some [9]))
      (initial fun _ => true)).fileMngr = some f :=
    Option.isSome_iff_exists.mp (by decide +kernel)
  obtain ⟨handled, hdatagrams, hcontent, hend⟩ := process_stores h f hf
  have hreturned : ((receiveOne (List.replicate 17 0)).foldl (exec .littleEndian (some [9]))
      (initial fun _ => true)).step = .returned := by decide +kernel
  rw [hend hreturned, List.append_nil] at hdatagrams
  refine ⟨_, f, handled, h, hreturned, hf, hdatagrams, ?_, hcontent⟩
  rw [← hdatagrams]
  decide +kernel

end FileSenderServer
end FileTransfer
