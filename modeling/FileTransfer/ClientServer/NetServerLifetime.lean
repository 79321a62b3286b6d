import FileTransfer.ClientServer.NetServer

/-! When a server is freed at most once and left alone afterwards: in every run in which the
caller drops a handle that failed, and no server is freed under a running receive thread. -/
namespace FileTransfer
open Run

namespace NetServerStep

/-- The steps at which no thread may receive for the server. -/
def exclusive : NetServerStep → Bool
  | .socket | .setReuseAddr | .setSockAddr | .setReceiveTimeout | .bind => true
  | .closeSocket | .freeServer => true
  | _ => false

/-- The steps of `cleanup_server`. -/
def cleanup : NetServerStep → Bool
  | .closeSocket | .freeServer => true
  | _ => false

end NetServerStep

/-- The call under way and the receive threads go on, and the caller issues nothing. -/
def NetServerAction.underway : NetServerAction → Bool
  | .proceed _ | .thread _ _ => true
  | _ => false

namespace NetServers

/-- No server is freed twice, and none is touched after it was freed. -/
def Safe (s : NetServers) : Prop :=
  (HeapEvent.released s.events).Nodup ∧ ∀ later earlier p,
    s.events = later ++ .access p :: earlier → p ∉ HeapEvent.released earlier

/-- The caller uses no handle that failed. No server is destroyed under a running thread, and
`pthread_create` does not fail under one. -/
def Careful (s : NetServers) : NetServerAction → Prop
  | .create _ | .thread _ _ => True
  | .start callback => callback = true → s.failed = false
  | .stop => s.failed = false
  | .destroy => s.failed = false ∧ ∀ p ∈ s.handle, s.Idle p
  | .proceed success => success = false → ∀ call ∈ s.call, call.1 = .createThread → s.Idle call.2

instance (s : NetServers) : ∀ a, Decidable (s.Careful a)
  | .create _ | .thread _ _ => isTrue trivial
  | .start _ => inferInstanceAs (Decidable (_ → _))
  | .stop => inferInstanceAs (Decidable (_ = _))
  | .destroy => inferInstanceAs (Decidable (_ ∧ ∀ _ ∈ _, _))
  | .proceed _ => inferInstanceAs (Decidable (_ → ∀ _ ∈ _, _ → _))

section Invariant
variable (s : NetServers)

/-- What holds of a server while a call works on it. -/
structure Serves (step : NetServerStep) (p : ℕ) : Prop where
  handle : s.handle = some p
  live : p ∉ HeapEvent.released s.events
  idle : step.exclusive = true → s.Idle p
  ends : step.cleanup = true → s.failed = true ∨ s.destroyed = true

structure Inv : Prop where
  clean : HeapEvent.Clean s.events
  released_lt : ∀ p ∈ HeapEvent.released s.events, p < s.servers
  handle_lt : ∀ p ∈ s.handle, p < s.servers
  thread_lt : ∀ thread ∈ s.threads, thread.server < s.servers
  running : ∀ thread ∈ s.threads, thread.step ≠ .returned →
    thread.server ∉ HeapEvent.released s.events
  live : s.failed = false → s.destroyed = false →
    ∀ p ∈ s.handle, p ∉ HeapEvent.released s.events
  call : ∀ step p, s.call = some (step, p) → s.Serves step p
  failed : s.failed = true → ∃ p, s.handle = some p ∧
    (p ∈ HeapEvent.released s.events ∨ ∃ step, s.call = some (step, p) ∧ step.cleanup = true)

end Invariant

variable {s : NetServers} {p : ℕ} {step next : NetServerStep}

theorem safe_iff : s.Safe ↔ HeapEvent.Clean s.events := by
  rw [HeapEvent.Clean, Lifetime.clean_iff, Safe, HeapEvent.released]
  refine and_congr_right fun _ => ⟨fun h later e earlier p hes he => ?_,
    fun h later earlier p hes => h later (.access p) earlier p hes rfl⟩
  cases e with
  | access q =>
    cases he
    exact h later earlier p hes
  | alloc q => cases he
  | release q => cases he

theorem inv_initial : initial.Inv where
  clean := HeapEvent.clean_nil
  released_lt _ hp := absurd hp List.not_mem_nil
  handle_lt _ hp := by cases hp
  thread_lt _ ht := absurd ht List.not_mem_nil
  running _ ht := absurd ht List.not_mem_nil
  live _ _ _ hp := by cases hp
  call _ _ hc := by cases hc
  failed hf := by cases hf

/-! ### What the setters keep -/

theorem Inv.touch (h : s.Inv) (hp : p ∉ HeapEvent.released s.events) : (s.touch p).Inv :=
  { h with
    clean := HeapEvent.clean_access.mpr ⟨hp, h.clean⟩
    call := fun step q hc => { h.call step q hc with } }

theorem Inv.setFlag (h : s.Inv) (flag : Bool) : (s.setFlag p flag).Inv :=
  { h with call := fun step q hc => { h.call step q hc with } }

/-- Only the steps of `cleanup_server` follow a failure. -/
theorem Inv.not_failed (h : s.Inv) (hc : s.call = some (step, p)) (hstep : step.cleanup = false) :
    s.failed = false := by
  by_contra hf
  obtain ⟨q, hq, hdead⟩ := h.failed (Bool.eq_true_of_not_eq_false hf)
  have hserves := h.call step p hc
  cases hserves.handle.symm.trans hq
  rcases hdead with hdead | ⟨step', hc', hstep'⟩
  · exact hserves.live hdead
  · cases hc.symm.trans hc'
    exact absurd hstep' (Bool.eq_false_iff.mp hstep)

theorem Inv.setCall (h : s.Inv) (hf : s.failed = false) {call : Option (NetServerStep × ℕ)}
    (hcall : ∀ step p, call = some (step, p) → s.Serves step p) : (s.setCall call).Inv :=
  { h with
    call := fun step q hc => { hcall step q hc with }
    failed := fun hf' => absurd hf' (Bool.eq_false_iff.mp hf) }

theorem Inv.finish (h : s.Inv) (hc : s.call = some (step, p)) (hstep : step.cleanup = false) :
    (s.finish p).Inv :=
  (h.touch (h.call step p hc).live).setCall (h.not_failed hc hstep) fun _ _ hnone => by cases hnone

theorem Inv.goOn (h : s.Inv) (hc : s.call = some (step, p)) (hcleanup : step.cleanup = next.cleanup)
    (hexclusive : next.exclusive = true → step.exclusive = true) : (s.goOn p next).Inv := by
  have hserves := h.call step p hc
  refine { h.touch hserves.live with call := ?_, failed := fun hf => ?_ }
  · intro step' q hc'
    cases hc'
    exact { hserves with
      idle := fun hnext => hserves.idle (hexclusive hnext)
      ends := fun hnext => hserves.ends (hcleanup.trans hnext) }
  · obtain ⟨q, hq, hdead⟩ := h.failed hf
    refine ⟨q, hq, hdead.imp_right ?_⟩
    rintro ⟨step', hc', hstep'⟩
    cases hc.symm.trans hc'
    exact ⟨next, rfl, hcleanup.symm.trans hstep'⟩

theorem Inv.cleanup (h : s.Inv) (hc : s.call = some (step, p)) (hidle : s.Idle p) :
    (s.cleanup p).Inv := by
  have hserves := h.call step p hc
  refine { h.touch hserves.live with
    live := fun hf => by cases hf
    call := ?_
    failed := fun _ => ⟨p, hserves.handle, Or.inr ⟨.closeSocket, rfl, rfl⟩⟩ }
  intro step' q hc'
  cases hc'
  exact { hserves with idle := fun _ => hidle, ends := fun _ => Or.inl rfl }

theorem Inv.free (h : s.Inv) (hc : s.call = some (.freeServer, p)) : (s.free p).Inv := by
  have hserves := h.call _ p hc
  refine { h with
    clean := HeapEvent.clean_release.mpr ⟨hserves.live, h.clean⟩
    released_lt := ?_
    running := fun thread ht hrun => ?_
    live := fun hf hd => ?_
    call := fun _ _ hnone => by cases hnone
    failed := fun hf => ?_ }
  · exact List.forall_mem_cons.mpr ⟨h.handle_lt p hserves.handle, h.released_lt⟩
  · have hne : thread.server ≠ p := fun heq => hrun (hserves.idle rfl thread ht heq)
    exact List.not_mem_cons_of_ne_of_not_mem hne (h.running thread ht hrun)
  · rcases hserves.ends rfl with hf' | hd'
    · cases hf.symm.trans hf'
    · cases hd.symm.trans hd'
  · obtain ⟨q, hq, -⟩ := h.failed hf
    cases hserves.handle.symm.trans hq
    exact ⟨p, hq, Or.inl List.mem_cons_self⟩

theorem Inv.addThread (h : s.Inv) (hc : s.call = none) (hp : p < s.servers)
    (hlive : p ∉ HeapEvent.released s.events) : (s.addThread p).Inv :=
  { h with
    thread_lt := List.forall_mem_append.mpr ⟨h.thread_lt, List.forall_mem_singleton.mpr hp⟩
    running := List.forall_mem_append.mpr ⟨h.running, List.forall_mem_singleton.mpr fun _ => hlive⟩
    call := fun step q hc' => by cases hc.symm.trans hc' }

/-- A thread that is still running touches its server and goes on. -/
theorem Inv.setThread (h : s.Inv) {t : ℕ} {thread : RecvThread} (ht : s.threads[t]? = some thread)
    (hrun : thread.step ≠ .returned) (step : RecvStep) :
    ((s.touch thread.server).setThread t { thread with step }).Inv := by
  have hmem : thread ∈ s.threads := List.mem_of_getElem? ht
  have hlive := h.running thread hmem hrun
  have htouch := h.touch hlive
  have hset : ∀ {P : RecvThread → Prop}, (∀ thread ∈ s.threads, P thread) →
      P { thread with step } → ∀ thread' ∈ s.threads.set t { thread with step }, P thread' :=
    fun hP hnew thread' hmem' => (List.mem_or_eq_of_mem_set hmem').elim (hP thread')
      fun heq => heq ▸ hnew
  refine { htouch with
    thread_lt := hset h.thread_lt (h.thread_lt thread hmem)
    running := hset h.running fun _ => hlive
    call := fun step' q hc => ?_ }
  have hserves := htouch.call step' q hc
  exact { hserves with
    idle := fun hstep' => hset (hserves.idle hstep') fun hq =>
      absurd (hserves.idle hstep' thread hmem hq) hrun }

/-! ### What the functions keep -/

theorem Inv.create (h : s.Inv) (hc : s.call = none) (memory : Bool) :
    (s.netServerCreate memory).Inv := by
  unfold netServerCreate
  cases memory with
  | false =>
    exact { h with
      handle_lt := fun _ hnone => by cases hnone
      live := fun _ _ _ hnone => by cases hnone
      call := fun step q hc' => by cases hc.symm.trans hc'
      failed := fun hf => by cases hf }
  | true =>
    have hlive : s.servers ∉ HeapEvent.released s.events :=
      fun hmem => Nat.lt_irrefl _ (h.released_lt _ hmem)
    refine { h with
      clean := HeapEvent.clean_alloc.mpr h.clean
      released_lt := fun q hq => Nat.lt_succ_of_lt (h.released_lt q hq)
      handle_lt := ?_
      thread_lt := fun thread ht => Nat.lt_succ_of_lt (h.thread_lt thread ht)
      live := ?_
      call := ?_
      failed := fun hf => by cases hf }
    · intro q hq
      cases hq
      exact Nat.lt_succ_self _
    · intro _ _ q hq
      cases hq
      exact hlive
    · intro step q hc'
      cases hc'
      exact {
        handle := rfl
        live := hlive
        idle := fun _ thread ht heq => absurd heq (Nat.ne_of_lt (h.thread_lt thread ht))
        ends := fun hstep => by cases hstep }

theorem Inv.callStep (h : s.Inv) (hc : s.call = some (step, p)) {success : Bool}
    (hidle : success = false → step = .createThread → s.Idle p) :
    (s.callStep p success step).Inv := by
  have hserves := h.call step p hc
  have hcleanup : step.exclusive = true → (s.cleanup p).Inv := fun hstep =>
    h.cleanup hc (hserves.idle hstep)
  cases step with
  | socket | setReuseAddr | setReceiveTimeout =>
    cases success with
    | true => exact h.goOn hc rfl fun _ => rfl
    | false => exact hcleanup rfl
  | setSockAddr => exact (h.setFlag false).goOn hc rfl fun _ => rfl
  | bind =>
    cases success with
    | true => exact h.finish hc rfl
    | false => exact hcleanup rfl
  | setReceiveDataFlag => exact (h.setFlag true).goOn hc rfl nofun
  | setCallback => exact h.goOn hc rfl nofun
  | setUserCtx => exact h.goOn hc rfl nofun
  | createThread =>
    cases success with
    | true =>
      exact (h.finish hc rfl).addThread rfl (h.handle_lt p hserves.handle) hserves.live
    | false => exact h.cleanup hc (hidle rfl rfl)
  | getReceiveDataFlag =>
    unfold NetServers.callStep
    dsimp only
    split
    · exact h.goOn hc rfl nofun
    · exact h.finish hc rfl
  | clearReceiveDataFlag => exact (h.setFlag false).goOn hc rfl nofun
  | getServerThread => exact h.goOn hc rfl nofun
  | join t => exact h.setCall (h.not_failed hc rfl) nofun
  | closeSocket => exact h.goOn hc rfl fun _ => rfl
  | freeServer => exact h.free hc

theorem Inv.recvStep (h : s.Inv) {t : ℕ} {thread : RecvThread} (ht : s.threads[t]? = some thread)
    (result : RecvResult) : (s.recvStep t thread result).Inv := by
  unfold NetServers.recvStep
  cases hstep : thread.step with
  | returned => exact h
  | getReceiveDataFlag | recvfrom | callback => exact h.setThread ht (by simp [hstep]) _

/-- `net_server_start` and `net_server_stop` begin to work on a live server. -/
theorem Inv.issue (h : s.Inv) (hf : s.failed = false) (hd : s.destroyed = false)
    (hh : s.handle = some p) (hexclusive : step.exclusive = false)
    (hcleanup : step.cleanup = false) : (s.setCall (some (step, p))).Inv := by
  refine h.setCall hf ?_
  intro step' q hc
  cases hc
  exact {
    handle := hh
    live := h.live hf hd p hh
    idle := fun hstep => absurd hstep (Bool.eq_false_iff.mp hexclusive)
    ends := fun hstep => absurd hstep (Bool.eq_false_iff.mp hcleanup) }

theorem Inv.start (h : s.Inv) (hd : s.destroyed = false) {callback : Bool}
    (hf : callback = true → s.failed = false) : (s.netServerStart callback).Inv := by
  unfold netServerStart
  split
  · exact h
  · rename_i p hh
    split
    · rename_i hcallback
      exact h.issue (hf hcallback) hd hh rfl rfl
    · exact h

theorem Inv.stop (h : s.Inv) (hd : s.destroyed = false) (hf : s.failed = false) :
    s.netServerStop.Inv := by
  unfold netServerStop
  split
  · exact h
  · rename_i p hh
    exact h.issue hf hd hh rfl rfl

theorem Inv.destroy (h : s.Inv) (hc : s.call = none) (hd : s.destroyed = false)
    (hf : s.failed = false) (hidle : ∀ p ∈ s.handle, s.Idle p) : s.netServerDestroy.Inv := by
  unfold netServerDestroy
  split
  · exact { h with
      live := nofun
      call := fun step q hc' => by cases hc.symm.trans hc' }
  · rename_i p hh
    refine { h with live := nofun, call := ?_, failed := fun hf' => ?_ }
    · intro step q hc'
      cases hc'
      exact ⟨hh, h.live hf hd p hh, fun _ => hidle p hh, fun _ => Or.inr rfl⟩
    · cases hf.symm.trans hf'

theorem Inv.exec (h : s.Inv) {a : NetServerAction} (he : s.Enabled a) (hcareful : s.Careful a) :
    (s.exec a).Inv := by
  cases a with
  | create memory => exact h.create he.1 memory
  | start callback => exact h.start he.2 hcareful
  | stop => exact h.stop he.2 hcareful
  | destroy => exact h.destroy he.1 he.2 hcareful.1 hcareful.2
  | proceed success =>
    cases hc : s.call with
    | none =>
      rw [exec_proceed_none hc]
      exact h
    | some call =>
      rw [exec_proceed hc]
      exact h.callStep hc fun hfail hstep => hcareful hfail call hc hstep
  | thread t result =>
    cases ht : s.threads[t]? with
    | none =>
      rw [exec_thread_none ht]
      exact h
    | some thread =>
      rw [exec_thread ht]
      exact h.recvStep ht result

theorem inv_of_careful (h : Reach (fun s a => s.Enabled a ∧ s.Careful a) exec initial s) :
    s.Inv :=
  h.invariant Inv inv_initial fun _ _ hinv hok => hinv.exec hok.1 hok.2

/-! ### What a careless step leads to -/

/-- The calls and threads that are under way can come to free a server twice, or to touch one
that was freed. -/
def AtRisk (s : NetServers) : Prop :=
  ∃ s', Reach (fun s a => s.Enabled a ∧ a.underway = true) exec s s' ∧ ¬ s'.Safe

theorem not_safe {es : List HeapEvent} (hs : s.events = .access p :: es)
    (hp : p ∈ HeapEvent.released es) : ¬ s.Safe := by
  rw [safe_iff, hs, HeapEvent.clean_access]
  exact fun h => h.1 hp

/-- A call on a server that was freed touches it at its first step. -/
theorem atRisk_of_freed (hc : s.call = some (step, p)) (hdead : p ∈ HeapEvent.released s.events)
    (hstep : step = .setReceiveDataFlag ∨ step = .getReceiveDataFlag ∨ step = .closeSocket) :
    s.AtRisk := by
  have hen : s.Enabled (.proceed true) :=
    enabled_proceed hc (by rcases hstep with rfl | rfl | rfl <;> nofun)
  have hev : (s.exec (.proceed true)).events = .access p :: s.events := by
    rw [exec_proceed hc]
    rcases hstep with rfl | rfl | rfl
    · rfl
    · unfold callStep
      dsimp only
      split <;> rfl
    · rfl
  exact ⟨_, Reach.start.step _ ⟨hen, rfl⟩, not_safe hev hdead⟩

/-- A running thread touches the server that `cleanup_server` frees under it. -/
theorem atRisk_of_running (hc : s.call = some (.closeSocket, p)) (hrun : ¬ s.Idle p) :
    s.AtRisk := by
  simp only [Idle, not_forall] at hrun
  obtain ⟨thread, hmem, rfl, hstep⟩ := hrun
  obtain ⟨t, ht⟩ := List.mem_iff_getElem?.mp hmem
  let s₁ := s.goOn thread.server .freeServer
  let s₂ := s₁.callStep thread.server true .freeServer
  have h₁ : s.exec (.proceed true) = s₁ := exec_proceed hc
  have h₂ : s₁.exec (.proceed true) = s₂ := exec_proceed rfl
  have h₃ : s₂.exec (.thread t .bytes) = s₂.recvStep t thread .bytes := exec_thread ht
  have hev : (s₂.recvStep t thread .bytes).events = .access thread.server :: s₂.events := by
    unfold recvStep
    cases hthread : thread.step with
    | returned => exact absurd hthread hstep
    | getReceiveDataFlag | recvfrom | callback => rfl
  have hreach₁ : Reach (fun s a => s.Enabled a ∧ a.underway = true) exec s s₁ :=
    h₁ ▸ Reach.start.step _ ⟨enabled_proceed hc nofun, rfl⟩
  have hreach₂ : Reach (fun s a => s.Enabled a ∧ a.underway = true) exec s s₂ :=
    h₂ ▸ hreach₁.step _ ⟨enabled_proceed rfl nofun, rfl⟩
  have hlt : t < s₂.threads.length := (List.getElem?_eq_some_iff.mp ht).1
  refine ⟨_, hreach₂.step (.thread t .bytes) ⟨hlt, rfl⟩, ?_⟩
  rw [h₃]
  exact not_safe hev List.mem_cons_self

/-- The handle is all that is left of a server after a failure. -/
theorem Inv.handle_freed (h : s.Inv) (hc : s.call = none) (hf : s.failed = true) :
    ∃ p, s.handle = some p ∧ p ∈ HeapEvent.released s.events := by
  obtain ⟨p, hp, hdead⟩ := h.failed hf
  refine ⟨p, hp, hdead.resolve_right ?_⟩
  rintro ⟨step, hc', -⟩
  cases hc.symm.trans hc'

theorem Inv.atRisk (h : s.Inv) {a : NetServerAction} (he : s.Enabled a)
    (hcareless : ¬ s.Careful a) : (s.exec a).AtRisk := by
  cases a with
  | create memory => exact absurd trivial hcareless
  | thread t result => exact absurd trivial hcareless
  | start callback =>
    obtain ⟨rfl, hf⟩ := Classical.not_imp.mp hcareless
    obtain ⟨p, hh, hdead⟩ := h.handle_freed he.1 (Bool.eq_true_of_not_eq_false hf)
    have hexec : s.exec (.start true) = s.setCall (some (.setReceiveDataFlag, p)) := by
      simp only [NetServers.exec, netServerStart, hh, if_true]
    rw [hexec]
    exact atRisk_of_freed rfl hdead (Or.inl rfl)
  | stop =>
    obtain ⟨p, hh, hdead⟩ := h.handle_freed he.1 (Bool.eq_true_of_not_eq_false hcareless)
    have hexec : s.exec .stop = s.setCall (some (.getReceiveDataFlag, p)) := by
      simp only [NetServers.exec, netServerStop, hh]
    rw [hexec]
    exact atRisk_of_freed rfl hdead (Or.inr (Or.inl rfl))
  | destroy =>
    have hexec : ∀ p, s.handle = some p →
        s.exec .destroy = { s.setCall (some (.closeSocket, p)) with destroyed := true } := by
      intro p hh
      simp only [NetServers.exec, netServerDestroy, hh]
    cases hf : s.failed with
    | true =>
      obtain ⟨p, hh, hdead⟩ := h.handle_freed he.1 hf
      rw [hexec p hh]
      exact atRisk_of_freed rfl hdead (Or.inr (Or.inr rfl))
    | false =>
      have hrun : ¬ ∀ p ∈ s.handle, s.Idle p := fun hidle => hcareless ⟨hf, hidle⟩
      simp only [not_forall] at hrun
      obtain ⟨p, hh, hidle⟩ := hrun
      rw [hexec p hh]
      exact atRisk_of_running rfl hidle
  | proceed success =>
    simp only [Careful, Classical.not_imp, not_forall] at hcareless
    obtain ⟨rfl, ⟨step, p⟩, hc, rfl, hidle⟩ := hcareless
    rw [exec_proceed hc]
    exact atRisk_of_running rfl hidle

/-- In every run whose steps are all careful, a server is freed at most once and left alone
afterwards; and after a careful run each careless step puts a server at risk. -/
theorem servers_safe_while_careful
    (h : Reach (fun s a => s.Enabled a ∧ s.Careful a) exec initial s) :
    s.Safe ∧ ∀ a, s.Enabled a → ¬ s.Careful a → (s.exec a).AtRisk :=
  ⟨safe_iff.mpr (inv_of_careful h).clean, fun _ he => (inv_of_careful h).atRisk he⟩

/-- The server runs, receives, is stopped and destroyed. -/
theorem servers_safe_while_careful_run : ∃ s,
    Reach (fun s a => s.Enabled a ∧ s.Careful a) exec initial s ∧
      HeapEvent.released s.events = [0] ∧ s.threads = [⟨0, .returned⟩] ∧ s.Safe := by
  have h : Reach (fun s a => s.Enabled a ∧ s.Careful a) exec initial _ := Reach.start.foldl
    [.create true, .proceed true, .proceed true, .proceed true, .proceed true, .proceed true,
      .start true, .proceed true, .proceed true, .proceed true, .proceed true,
      .thread 0 .timeout, .thread 0 .bytes, .thread 0 .timeout,
      .stop, .proceed true, .proceed true, .proceed true, .thread 0 .timeout, .proceed true,
      .destroy, .proceed true, .proceed true] (by decide)
  exact ⟨_, h, rfl, rfl, (servers_safe_while_careful h).1⟩

/-- After a `bind` that fails, the caller stops and destroys the server as in `app_teardown`: the
server is read after it was freed, and freed once more. -/
theorem teardown_after_failed_bind : ∃ s, Reach Enabled exec initial s ∧
    s.events.take 4 = [.release 0, .access 0, .access 0, .release 0] ∧ ¬ s.Safe := by
  have h : Reach Enabled exec initial _ := Reach.start.foldl
    [.create true, .proceed true, .proceed true, .proceed true, .proceed true, .proceed false,
      .proceed true, .proceed true,
      .stop, .proceed true,
      .destroy, .proceed true, .proceed true] (by decide)
  refine ⟨_, h, rfl, ?_⟩
  rintro ⟨hnodup, -⟩
  exact absurd hnodup (by decide)

end NetServers
end FileTransfer
