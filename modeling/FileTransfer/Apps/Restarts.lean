import FileTransfer.Apps.TransferSystem

/-! One server process after the other, while the senders and the network go on. A process ends
whenever it is killed, or on its own, and the next one opens the file that it finds. -/
namespace FileTransfer
open Overlay Run

namespace FileSenderServer

/-- What the path of the file leads to. A write is flushed before the callback returns, and so it
does not end with the process. -/
def onDisk (stored : Option (List UInt8)) (s : FileSenderServer) : Option (List UInt8) :=
  match s.fileMngr with
  | none => stored
  | some f => some f.content

/-- The datagrams that the callback is done with. -/
def handled (s : FileSenderServer) : List (List UInt8) :=
  match s.fileMngr with
  | none => []
  | some _ => s.datagrams.take (s.datagrams.length - s.pending.length)

section Handled
variable {layout : SizeLayout} {stored : Option (List UInt8)} {s : FileSenderServer}

theorem handled_subset {d : List UInt8} (hd : d ∈ s.handled) : d ∈ s.datagrams := by
  unfold handled at hd
  cases hf : s.fileMngr with
  | none =>
    rw [hf] at hd
    cases hd
  | some f =>
    rw [hf] at hd
    exact List.mem_of_mem_take hd

theorem Inv.onDisk (h : Inv layout stored s) : (s.onDisk stored).getD [] =
    writeAll 0 (stored.getD []) (acceptedChunks layout s.handled) := by
  unfold FileSenderServer.onDisk FileSenderServer.handled
  cases hf : s.fileMngr with
  | none => rfl
  | some f =>
    obtain ⟨handled, hdatagrams, hcontent⟩ := h.content f hf
    dsimp only
    rw [hdatagrams, List.length_append, Nat.add_sub_cancel, List.take_left]
    exact hcontent

end Handled
end FileSenderServer

/-- `stored` is the file that the process has found, and `before` are the datagrams that the
processes before it have handled. -/
structure Restarts where
  transfer : TransferSystem
  stored : Option (List UInt8)
  before : List (List UInt8)

inductive RestartAction
  | transfer (a : TransferAction)
  /-- The process is gone, and a new one starts. -/
  | restart (grant : ℕ → Bool)

namespace Restarts

def exec (layout : SizeLayout) (r : Restarts) : RestartAction → Restarts
  | .transfer a => { r with transfer := r.transfer.exec layout r.stored a }
  | .restart grant => {
    transfer := { r.transfer with server := .initial grant }
    stored := r.transfer.server.onDisk r.stored
    before := r.before ++ r.transfer.server.handled }

def Enabled (r : Restarts) : RestartAction → Prop
  | .transfer a => r.transfer.Enabled a
  | .restart _ => True

instance (r : Restarts) : ∀ a, Decidable (r.Enabled a)
  | .transfer a => inferInstanceAs (Decidable (r.transfer.Enabled a))
  | .restart _ => isTrue trivial

def start (transfer : TransferSystem) (stored : Option (List UInt8)) : Restarts :=
  ⟨transfer, stored, []⟩

variable (r : Restarts)

/-- The content of the file. -/
def file : List UInt8 := (r.transfer.server.onDisk r.stored).getD []

/-- The datagrams that were handled so far. -/
def handled : List (List UInt8) := r.before ++ r.transfer.server.handled

/-- Every sender has the same file to send. -/
def Sends (data : List UInt8) : Prop := ∀ p ∈ r.transfer.senders, p.data = data

/-- Every datagram that was handled had been sent, and the file is what they have made of the file
that the first process found. -/
structure Inv (layout : SizeLayout) (stored₀ : Option (List UInt8)) (r : Restarts) : Prop where
  transfer : r.transfer.Inv layout r.stored
  sent : ∀ d ∈ r.before, d ∈ r.transfer.sent
  stored : r.stored.getD [] = writeAll 0 (stored₀.getD []) (acceptedChunks layout r.before)

variable {r} {layout : SizeLayout} {stored₀ : Option (List UInt8)} {data : List UInt8}
  {t : TransferSystem}

theorem acceptedChunks_append (handled handled' : List (List UInt8)) :
    acceptedChunks layout (handled ++ handled') =
      acceptedChunks layout handled ++ acceptedChunks layout handled' := by
  unfold acceptedChunks
  rw [List.filter_append, List.map_append]

theorem Inv.file_eq (h : r.Inv layout stored₀) :
    r.file = writeAll 0 (stored₀.getD []) (acceptedChunks layout r.handled) := by
  unfold file handled
  rw [h.transfer.server.onDisk, h.stored, acceptedChunks_append, writeAll_append]

theorem Inv.sent_handled (h : r.Inv layout stored₀) : ∀ d ∈ r.handled, d ∈ r.transfer.sent := by
  intro d hd
  rcases List.mem_append.mp hd with hd | hd
  · exact h.sent d hd
  · exact h.transfer.datagrams d (FileSenderServer.handled_subset hd)

theorem inv_start (h : t.Initial) : (start t stored₀).Inv layout stored₀ where
  transfer := h.inv
  sent := nofun
  stored := rfl

theorem Inv.exec (h : r.Inv layout stored₀) {a : RestartAction} (he : r.Enabled a) :
    (r.exec layout a).Inv layout stored₀ := by
  cases a with
  | transfer a =>
    refine ⟨h.transfer.exec he, ?_, h.stored⟩
    intro d hd
    cases a with
    | round k => exact TransferSystem.sent_subset_round h.transfer (h.sent d hd)
    | server a => exact h.sent d hd
  | restart grant =>
    constructor
    · refine ⟨h.transfer.senders, FileSenderServer.inv_initial grant, nofun⟩
    · exact h.sent_handled
    · exact h.file_eq

theorem inv_of_reach (h₀ : t.Initial)
    (h : Reach Enabled (exec layout) (start t stored₀) r) : r.Inv layout stored₀ :=
  h.invariant (Inv layout stored₀) (inv_start h₀) fun _ _ hinv he => hinv.exec he

theorem sends_of_reach (h₀ : t.Initial) (hsends : (start t stored₀).Sends data)
    (h : Reach Enabled (exec layout) (start t stored₀) r) : r.Sends data := by
  have hboth : r.Inv layout stored₀ ∧ r.Sends data := by
    apply h.invariant (fun r => r.Inv layout stored₀ ∧ r.Sends data) ⟨inv_start h₀, hsends⟩
    intro r a hr he
    refine ⟨hr.1.exec he, ?_⟩
    cases a with
    | transfer a => exact hr.1.transfer.data_exec (P := fun data' => data' = data) hr.2 a
    | restart grant => exact hr.2
  exact hboth.2

/-- Whenever the processes end, the file is what the datagrams that any of them has handled make
of the first one's file, in their order; and each of these had been sent. -/
theorem restarts_durable (h₀ : t.Initial)
    (h : Reach Enabled (exec layout) (start t stored₀) r) :
    r.file = writeAll 0 (stored₀.getD []) (acceptedChunks layout r.handled) ∧
      ∀ d ∈ r.handled, d ∈ r.transfer.sent := by
  have hinv := inv_of_reach h₀ h
  exact ⟨hinv.file_eq, hinv.sent_handled⟩

/-- Where all senders send one file: it is complete as soon as each of its datagrams was handled by
some process; and two runs in which the same datagrams were handled, in any order, any number of
times and by any processes, have the same file. -/
theorem restarts_converge (h₀ : t.Initial)
    (h : Reach Enabled (exec layout) (start t stored₀) r)
    (hsends : (start t stored₀).Sends data) (hmax : data.length ≤ MAX_FILE_SIZE.toNat) :
    (wire layout data ⊆ r.handled → r.file = data ++ (stored₀.getD []).drop data.length) ∧
      ∀ t' r', t'.Initial → Reach Enabled (exec layout) (start t' stored₀) r' →
        (∀ d, d ∈ r.handled ↔ d ∈ r'.handled) → r.file = r'.file := by
  have hinv := inv_of_reach h₀ h
  have hwire : ∀ d ∈ r.handled, d ∈ wire layout data := fun d hd =>
    hinv.transfer.sent_wire (sends_of_reach h₀ hsends h) (hinv.sent_handled d hd)
  constructor
  · intro hall
    rw [hinv.file_eq, TransferSystem.writeAll_wire hmax hwire hall]
  · intro t' r' h₀' h' hsame
    have hinv' := inv_of_reach h₀' h'
    have hwire' : ∀ d ∈ r'.handled, d ∈ wire layout data := fun d hd =>
      hwire d ((hsame d).mpr hd)
    rw [hinv.file_eq, hinv'.file_eq, TransferSystem.acceptedChunks_of_wire hmax hwire,
      TransferSystem.acceptedChunks_of_wire hmax hwire']
    apply writeAll_congr
    · intro w hw
      obtain ⟨d, hd, rfl⟩ := List.mem_map.mp hw
      exact TransferSystem.agrees_of_mem_wire hmax (hwire d hd)
    · intro w
      simp only [List.mem_map, hsame]

/-- A process is up, and the datagram is received and handled. -/
def serve (d : List UInt8) : List TransferAction :=
  List.replicate 14 (.server (.main true)) ++
    [.server (.thread .timeout []), .server (.thread .bytes d), .server (.thread .timeout []),
      .server (.thread .timeout []), .server (.thread .timeout [])]

/-- The first process is killed after it has handled a datagram, and the second one handles
another. -/
def killed (d d' : List UInt8) : List RestartAction :=
  [.transfer (.round 0), .transfer (.round 1)] ++ (serve d).map .transfer ++
    [.restart fun _ => true] ++ (serve d').map .transfer

theorem restarts_durable_killed : ∃ t r, t.Initial ∧
    Reach Enabled (exec .littleEndian) (start t none) r ∧ r.handled.length = 2 ∧
      r.file = writeAll 0 [] (acceptedChunks .littleEndian r.handled) := by
  have h₀ : (TransferSystem.sampleSystem [[1, 2], [3]]).Initial := by
    apply TransferSystem.initial_sampleSystem
    simp only [List.forall_mem_cons, List.not_mem_nil, false_implies, implies_true, and_true]
    exact ⟨TransferSystem.fresh_sampleSender rfl, TransferSystem.fresh_sampleSender rfl⟩
  have h : Reach Enabled (exec .littleEndian)
      (start (TransferSystem.sampleSystem [[1, 2], [3]]) none) _ :=
    Reach.start.foldl
      (killed (wireChunk .littleEndian [1, 2] 0) (wireChunk .littleEndian [3] 0))
      (by decide +kernel)
  exact ⟨_, _, h₀, h, by decide +kernel, (restarts_durable h₀ h).1⟩

theorem restarts_converge_killed : ∃ t r, t.Initial ∧
    Reach Enabled (exec .littleEndian) (start t (some [7, 8, 9])) r ∧ r.file = [1, 2, 9] := by
  have h₀ : (TransferSystem.sampleSystem [[1, 2], [1, 2]]).Initial := by
    apply TransferSystem.initial_sampleSystem
    simp only [List.forall_mem_cons, List.not_mem_nil, false_implies, implies_true, and_true]
    exact ⟨TransferSystem.fresh_sampleSender rfl, TransferSystem.fresh_sampleSender rfl⟩
  have h : Reach Enabled (exec .littleEndian)
      (start (TransferSystem.sampleSystem [[1, 2], [1, 2]]) (some [7, 8, 9])) _ :=
    Reach.start.foldl
      (killed (wireChunk .littleEndian [1, 2] 0) (wireChunk .littleEndian [1, 2] 0))
      (by decide +kernel)
  have hsends : (start (TransferSystem.sampleSystem [[1, 2], [1, 2]])
      (some [7, 8, 9])).Sends [1, 2] := by
    unfold Sends
    decide +kernel
  refine ⟨_, _, h₀, h, (restarts_converge h₀ h hsends (by decide)).1 ?_⟩
  decide +kernel

end Restarts
end FileTransfer
