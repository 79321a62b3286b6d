import FileTransfer.Apps.ServerRuns
import FileTransfer.Apps.Transcript

/-! Any number of senders and the server process. The senders send round by round, and the
network hands any datagram that was sent to the server, at any later time and any number of times,
or never. -/
namespace FileTransfer
open Overlay Run

/-- A sender in front of a round of its loop, or with what its loop returned. -/
structure Sender where
  source : List UInt8
  client : FileSenderClient
  fileOffset : UInt64
  result : Option (Except Errno Unit)

structure TransferSystem where
  senders : List Sender
  server : FileSenderServer

inductive TransferAction
  | round (k : ℕ)
  | server (a : ServerAction)
deriving DecidableEq, Repr

/-- The bytes that `recvfrom` gives. -/
def ServerAction.arrival : ServerAction → Option (List UInt8)
  | .thread .bytes data => some data
  | _ => none

namespace Sender

/-- The bytes that the sender reads and sends. -/
def data (p : Sender) : List UInt8 := p.source.take (sourceSize p.source).toNat

def sent (p : Sender) : List (List UInt8) := p.client.netClient.sent

/-- One round of `sendLoop`. -/
def round (layout : SizeLayout) (p : Sender) : Sender :=
  let fileSize := sourceSize p.source
  match p.result with
  | some _ => p
  | none =>
    if p.fileOffset < fileSize then
      let dataChunkSize :=
        if fileSize - p.fileOffset < MAX_FILE_CHUNK_SIZE then fileSize - p.fileOffset
        else MAX_FILE_CHUNK_SIZE
      match (sendChunk layout p.fileOffset dataChunkSize).run p.client with
      | .ok _ client => { p with client, fileOffset := p.fileOffset + dataChunkSize }
      | .error e client => { p with client, result := some (.error e) }
    else { p with result := some (.ok ()) }

/-- The sender has been set up, and has not sent anything yet. -/
def Fresh (p : Sender) : Prop :=
  p.fileOffset = 0 ∧ p.result = none ∧ ∃ net heap heap',
    (fileSenderSetup p.source net).run heap = .ok p.client heap'

end Sender

namespace TransferSystem

def exec (layout : SizeLayout) (stored : Option (List UInt8)) (s : TransferSystem) :
    TransferAction → TransferSystem
  | .round k => { s with senders := s.senders.modify k (Sender.round layout) }
  | .server a => { s with server := s.server.exec layout stored a }

def sent (s : TransferSystem) : List (List UInt8) := s.senders.flatMap Sender.sent

/-- The network makes up no datagrams, and changes none. -/
def Enabled (s : TransferSystem) : TransferAction → Prop
  | .round _ => True
  | .server a => s.server.Enabled a ∧ ∀ data ∈ a.arrival, data ∈ s.sent

instance (s : TransferSystem) : ∀ a, Decidable (s.Enabled a)
  | .round _ => isTrue trivial
  | .server _ => inferInstanceAs (Decidable (_ ∧ ∀ _ ∈ _, _))

end TransferSystem

namespace Sender
variable {layout : SizeLayout} {p : Sender}

/-! ### A sender -/

/-- What was sent is the start of the wire; as long as the loop goes on, it is at a round. -/
structure Inv (layout : SizeLayout) (p : Sender) : Prop where
  size : (sourceSize p.source).toNat < 2 ^ 63
  sent : p.sent <+: wire layout p.data
  atRound : p.result = none → (p.sent = [] ∧ sourceSize p.source = 0) ∨
    ∃ sendto k, AtRound layout p.source sendto (sourceSize p.source) k p.client p.fileOffset
  all : p.result = some (.ok ()) → p.sent = wire layout p.data

theorem Fresh.inv (h : p.Fresh) : p.Inv layout := by
  obtain ⟨hoffset, hresult, net, heap, heap', hc⟩ := h
  obtain ⟨-, hsize, hsent, hsending⟩ := fileSenderSetup_ok layout hc
  have hnone : p.sent = [] := hsent
  refine ⟨hsize, ?_, ?_, ?_⟩
  · rw [hnone]
    exact List.nil_prefix
  · intro _
    by_cases hzero : sourceSize p.source = 0
    · exact Or.inl ⟨hnone, hzero⟩
    · rw [hoffset]
      exact Or.inr ⟨_, 0, atRound_zero hc hzero⟩
  · intro hok
    cases hresult.symm.trans hok

theorem round_some (hresult : p.result ≠ none) : p.round layout = p := by
  obtain ⟨r, hr⟩ := Option.ne_none_iff_exists'.mp hresult
  unfold round
  rw [hr]

theorem round_done (hresult : p.result = none) (hle : ¬ p.fileOffset < sourceSize p.source) :
    p.round layout = { p with result := some (.ok ()) } := by
  unfold round
  rw [hresult]
  exact if_neg hle

theorem round_next (layout : SizeLayout) (hresult : p.result = none)
    (hlt : p.fileOffset < sourceSize p.source) :
    p.round layout =
      let dataChunkSize := if sourceSize p.source - p.fileOffset < MAX_FILE_CHUNK_SIZE then
        sourceSize p.source - p.fileOffset else MAX_FILE_CHUNK_SIZE
      match (sendChunk layout p.fileOffset dataChunkSize).run p.client with
      | .ok _ client => { p with client, fileOffset := p.fileOffset + dataChunkSize }
      | .error e client => { p with client, result := some (.error e) } := by
  unfold round
  rw [hresult]
  exact if_pos hlt

/-- A round takes nothing back of what was sent. -/
theorem Inv.round (h : p.Inv layout) : (p.round layout).Inv layout ∧
    (p.round layout).source = p.source ∧ p.sent <+: (p.round layout).sent := by
  have hsource := sourceSize_le p.source
  by_cases hresult : p.result = none
  swap
  · rw [round_some hresult]
    exact ⟨h, rfl, List.prefix_rfl⟩
  by_cases hlt : p.fileOffset < sourceSize p.source
  · rcases h.atRound hresult with ⟨-, hzero⟩ | ⟨sendto, k, hround⟩
    · rw [hzero] at hlt
      exact absurd hlt UInt64.not_lt_zero
    obtain ⟨hk, hn, -⟩ := hround.next hsource hlt
    have hsent := hround.sendChunk h.size hsource hk hn
    rw [round_next layout hresult hlt]
    dsimp only
    generalize (if sourceSize p.source - p.fileOffset < MAX_FILE_CHUNK_SIZE then
      sourceSize p.source - p.fileOffset else MAX_FILE_CHUNK_SIZE) = n at hsent ⊢
    cases hrun : (sendChunk layout p.fileOffset n).run p.client with
    | ok u client =>
      rw [hrun] at hsent
      have htake : client.netClient.sent = (wire layout p.data).take (k + 1) := hsent.sent
      refine ⟨⟨h.size, ?_, fun _ => Or.inr ⟨sendto, k + 1, hsent⟩, ?_⟩, rfl, ?_⟩
      · change client.netClient.sent <+: _
        rw [htake]
        exact List.take_prefix _ _
      · intro hok
        cases hresult.symm.trans hok
      · change p.client.netClient.sent <+: client.netClient.sent
        rw [hround.sent, htake]
        exact List.take_prefix_take_left (Nat.le_succ k)
    | error e client =>
      rw [hrun] at hsent
      have hsame : client.netClient.sent = p.client.netClient.sent := hsent.1
      refine ⟨⟨h.size, ?_, nofun, nofun⟩, rfl, ?_⟩
      · change client.netClient.sent <+: _
        rw [hsame]
        exact h.sent
      · change p.client.netClient.sent <+: client.netClient.sent
        rw [hsame]
  · rw [round_done hresult hlt]
    refine ⟨⟨h.size, h.sent, nofun, fun _ => ?_⟩, rfl, List.prefix_rfl⟩
    rcases h.atRound hresult with ⟨hnone, hzero⟩ | ⟨sendto, k, hround⟩
    · have hnil : wire layout p.data = [] := by
        rw [← List.length_eq_zero_iff, length_wire, data, List.length_take, hzero,
          UInt64.toNat_zero, Nat.zero_min]
      exact hnone.trans hnil.symm
    · exact (hround.done hsource hlt).1

/-- The rounds of a sender are those of the loop of `main`. -/
theorem round_sendLoop {rounds : ℕ} (hresult : p.result = none)
    (hrounds : (sourceSize p.source).toNat ≤ p.fileOffset.toNat + rounds) :
    ∃ n fileOffset,
      (Sender.round layout)^[n] p =
        match (sendLoop layout (sourceSize p.source) rounds p.fileOffset).run p.client with
        | .ok _ client => ⟨p.source, client, fileOffset, some (.ok ())⟩
        | .error e client => ⟨p.source, client, fileOffset, some (.error e)⟩ := by
  induction rounds generalizing p with
  | zero =>
    refine ⟨1, p.fileOffset, ?_⟩
    rw [Function.iterate_one, round_done hresult]
    · rfl
    · rw [UInt64.lt_iff_toNat_lt]
      exact Nat.not_lt.mpr hrounds
  | succ rounds ih =>
    unfold sendLoop
    by_cases hlt : p.fileOffset < sourceSize p.source
    · rw [if_pos hlt, EStateM.run_bind]
      have hnext := round_next layout hresult hlt
      dsimp only at hnext
      obtain ⟨m, hm, hend⟩ : ∃ m, m = (if sourceSize p.source - p.fileOffset < MAX_FILE_CHUNK_SIZE
          then sourceSize p.source - p.fileOffset else MAX_FILE_CHUNK_SIZE) ∧
          p.fileOffset.toNat < (p.fileOffset + m).toNat := by
        refine ⟨_, rfl, ?_⟩
        have hsub : (sourceSize p.source - p.fileOffset).toNat =
            (sourceSize p.source).toNat - p.fileOffset.toNat :=
          UInt64.toNat_sub_of_le _ _ (UInt64.le_of_lt hlt)
        have hchunk : MAX_FILE_CHUNK_SIZE.toNat = 1024 := rfl
        have hbound : (sourceSize p.source).toNat < 2 ^ 64 := UInt64.toNat_lt _
        rw [UInt64.lt_iff_toNat_lt] at hlt
        rw [UInt64.toNat_add]
        split_ifs with hlast
        · rw [Nat.mod_eq_of_lt (by omega)]
          omega
        · rw [UInt64.lt_iff_toNat_lt] at hlast
          rw [Nat.mod_eq_of_lt (by omega)]
          omega
      rw [← hm] at hnext ⊢
      cases hrun : (sendChunk layout p.fileOffset m).run p.client with
      | ok u client =>
        rw [hrun] at hnext
        obtain ⟨n, fileOffset, hn⟩ := ih (p := p.round layout) (by rw [hnext]; exact hresult)
          (by rw [hnext]; dsimp only; omega)
        refine ⟨n + 1, fileOffset, ?_⟩
        rw [Function.iterate_succ_apply, hn, hnext]
      | error e client =>
        rw [hrun] at hnext
        exact ⟨1, p.fileOffset, hnext⟩
    · rw [if_neg hlt]
      exact ⟨1, p.fileOffset, round_done hresult hlt⟩

/-- Once a sender has returned, the number of its rounds does not matter. -/
theorem iterate_returned {m n : ℕ} (hm : ((Sender.round layout)^[m] p).result ≠ none)
    (hn : ((Sender.round layout)^[n] p).result ≠ none) :
    (Sender.round layout)^[m] p = (Sender.round layout)^[n] p := by
  calc (Sender.round layout)^[m] p
      = (Sender.round layout)^[n] ((Sender.round layout)^[m] p) :=
        (Function.iterate_fixed (round_some hm) n).symm
    _ = (Sender.round layout)^[m] ((Sender.round layout)^[n] p) := by
        rw [← Function.iterate_add_apply, ← Function.iterate_add_apply, Nat.add_comm]
    _ = (Sender.round layout)^[n] p := Function.iterate_fixed (round_some hn) m

/-- What a sender has returned is what the loop of `main` returns, and it leaves the same behind. -/
theorem Fresh.answer_send (h : p.Fresh) {m : ℕ} {r : Except Errno Unit}
    (hr : ((Sender.round layout)^[m] p).result = some r) :
    answer (fileSenderSend layout (sourceSize p.source)) p.client =
      (r, ((Sender.round layout)^[m] p).client) := by
  obtain ⟨hoffset, hresult, -⟩ := h
  have hm : ((Sender.round layout)^[m] p).result ≠ none := by
    rw [hr]
    exact Option.some_ne_none r
  obtain ⟨n, fileOffset, hloop⟩ := @round_sendLoop layout p _ hresult
    (Nat.le_add_left (sourceSize p.source).toNat p.fileOffset.toNat)
  rw [hoffset] at hloop
  cases hrun : (fileSenderSend layout (sourceSize p.source)).run p.client with
  | ok u client =>
    rw [fileSenderSend] at hrun
    rw [hrun] at hloop
    have hn : ((Sender.round layout)^[n] p).result ≠ none := by
      rw [hloop]
      exact Option.some_ne_none _
    rw [iterate_returned hm hn, hloop] at hr ⊢
    cases hr
    exact answer_ok hrun
  | error e client =>
    rw [fileSenderSend] at hrun
    rw [hrun] at hloop
    have hn : ((Sender.round layout)^[n] p).result ≠ none := by
      rw [hloop]
      exact Option.some_ne_none _
    rw [iterate_returned hm hn, hloop] at hr ⊢
    cases hr
    exact answer_error hrun

end Sender

namespace TransferSystem
variable {layout : SizeLayout} {stored : Option (List UInt8)} {s s₀ : TransferSystem}
  {d : List UInt8} {n k : ℕ}

/-! ### The system -/

/-- Some senders that have been set up, and the server process at its start. -/
def Initial (s : TransferSystem) : Prop :=
  (∀ p ∈ s.senders, p.Fresh) ∧ ∃ grant, s.server = .initial grant

structure Inv (layout : SizeLayout) (stored : Option (List UInt8)) (s : TransferSystem) :
    Prop where
  senders : ∀ p ∈ s.senders, p.Inv layout
  server : s.server.Inv layout stored
  datagrams : ∀ d ∈ s.server.datagrams, d ∈ s.sent

theorem Initial.inv (h : s.Initial) : s.Inv layout stored := by
  obtain ⟨hsenders, grant, hserver⟩ := h
  refine ⟨fun p hp => (hsenders p hp).inv, ?_, ?_⟩
  · rw [hserver]
    exact FileSenderServer.inv_initial grant
  · rw [hserver]
    exact nofun

/-- A sender after a round of one of them. -/
theorem mem_senders_round {p : Sender} (hp : p ∈ s.senders.modify k (Sender.round layout)) :
    p ∈ s.senders ∨ ∃ q ∈ s.senders, p = q.round layout := by
  obtain ⟨i, hi⟩ := List.mem_iff_getElem?.mp hp
  rw [List.getElem?_modify] at hi
  obtain ⟨q, hq, rfl⟩ := Option.map_eq_some_iff.mp hi
  by_cases hk : k = i
  · exact Or.inr ⟨q, List.mem_of_getElem? hq, if_pos hk⟩
  · exact Or.inl (if_neg hk ▸ List.mem_of_getElem? hq)

theorem sent_subset_round (h : s.Inv layout stored) (hd : d ∈ s.sent) :
    d ∈ (s.exec layout stored (.round k)).sent := by
  obtain ⟨p, hp, hsent⟩ := List.mem_flatMap.mp hd
  obtain ⟨i, hi⟩ := List.mem_iff_getElem?.mp hp
  have hnext : (s.senders.modify k (Sender.round layout))[i]? =
      some (if k = i then p.round layout else p) := by
    rw [List.getElem?_modify, hi]
    rfl
  apply List.mem_flatMap.mpr
  refine ⟨_, List.mem_of_getElem? hnext, ?_⟩
  split
  · exact (h.senders p hp).round.2.2.subset hsent
  · exact hsent

theorem Inv.exec (h : s.Inv layout stored) {a : TransferAction} (he : s.Enabled a) :
    (s.exec layout stored a).Inv layout stored := by
  cases a with
  | round k =>
    refine ⟨?_, h.server, fun d hd => sent_subset_round h (h.datagrams d hd)⟩
    intro p hp
    rcases mem_senders_round hp with hp | ⟨q, hq, rfl⟩
    · exact h.senders p hp
    · exact (h.senders q hq).round.1
  | server a =>
    refine ⟨h.senders, h.server.exec he.1, ?_⟩
    intro d hd
    change d ∈ (s.server.exec layout stored a).datagrams at hd
    rcases FileSenderServer.datagrams_exec layout stored s.server a with hsame | ⟨data, ha, hnew⟩
    · rw [hsame] at hd
      exact h.datagrams d hd
    · rw [hnew] at hd
      rcases List.mem_append.mp hd with hd | hd
      · exact h.datagrams d hd
      · rw [List.mem_singleton.mp hd]
        exact he.2 data (ha ▸ rfl)

theorem inv_of_reach (h₀ : s₀.Initial) (h : Reach Enabled (exec layout stored) s₀ s) :
    s.Inv layout stored :=
  h.invariant (Inv layout stored) h₀.inv fun _ _ hinv he => hinv.exec he

/-- Each sender has made some rounds of its own. -/
theorem rounds_of_reach (h : Reach Enabled (exec layout stored) s₀ s) (k : ℕ) :
    ∃ m, s.senders[k]? = (s₀.senders[k]?).map (Sender.round layout)^[m] := by
  apply h.invariant fun s => ∃ m, s.senders[k]? = (s₀.senders[k]?).map (Sender.round layout)^[m]
  · refine ⟨0, ?_⟩
    rw [Function.iterate_zero, Option.map_id_fun, id_eq]
  · rintro s a ⟨m, hm⟩ -
    cases a with
    | server a => exact ⟨m, hm⟩
    | round j =>
      by_cases hj : j = k
      · subst hj
        refine ⟨m + 1, ?_⟩
        dsimp only [exec]
        rw [List.getElem?_modify_eq, hm, Function.iterate_succ', ← Option.map_map]
        rfl
      · refine ⟨m, ?_⟩
        dsimp only [exec]
        rw [List.getElem?_modify_ne _ _ hj, hm]

/-- Whatever the others do, a sender returns what the loop of `main` returns. -/
theorem answer_of_reach (h₀ : s₀.Initial) (h : Reach Enabled (exec layout stored) s₀ s)
    {k : ℕ} {p₀ p : Sender} {r : Except Errno Unit} (hp₀ : s₀.senders[k]? = some p₀)
    (hp : s.senders[k]? = some p) (hr : p.result = some r) :
    answer (fileSenderSend layout (sourceSize p₀.source)) p₀.client = (r, p.client) := by
  obtain ⟨m, hm⟩ := rounds_of_reach h k
  rw [hp₀, hp, Option.map_some, Option.some_inj] at hm
  subst hm
  exact (h₀.1 p₀ (List.mem_of_getElem? hp₀)).answer_send hr

/-- The senders go on reading what they read. -/
theorem Inv.data_exec (h : s.Inv layout stored) {P : List UInt8 → Prop}
    (hdata : ∀ p ∈ s.senders, P p.data) (a : TransferAction) :
    ∀ p ∈ (s.exec layout stored a).senders, P p.data := by
  cases a with
  | server a => exact hdata
  | round k =>
    intro p hp
    rcases mem_senders_round hp with hp | ⟨q, hq, rfl⟩
    · exact hdata p hp
    · have hsource : (q.round layout).data = q.data := by
        unfold Sender.data
        rw [(h.senders q hq).round.2.1]
      rw [hsource]
      exact hdata q hq

theorem data_of_reach (P : List UInt8 → Prop) (hP : ∀ p ∈ s₀.senders, P p.data)
    (h₀ : s₀.Initial) (h : Reach Enabled (exec layout stored) s₀ s) :
    ∀ p ∈ s.senders, P p.data := by
  have hall : s.Inv layout stored ∧ ∀ p ∈ s.senders, P p.data := by
    apply h.invariant (fun s => s.Inv layout stored ∧ ∀ p ∈ s.senders, P p.data) ⟨h₀.inv, hP⟩
    intro s a hs he
    exact ⟨hs.1.exec he, hs.1.data_exec hs.2 a⟩
  exact hall.2

/-! ### What arrives -/

theorem covers_cell {data : List UInt8} {i : ℕ} :
    Covers (1024 * k, cell data k) i ↔ i / 1024 = k ∧ i < data.length := by
  unfold Covers
  dsimp only
  rw [length_cell]
  omega

theorem getElem?_cell {data : List UInt8} {i : ℕ} (h : Covers (1024 * k, cell data k) i) :
    (cell data k)[i - 1024 * k]? = data[i]? := by
  obtain ⟨hi, -⟩ := covers_cell.mp h
  unfold cell
  rw [List.getElem?_take_of_lt (by omega), List.getElem?_drop]
  congr 1
  omega

theorem chunk_wireChunk (layout : SizeLayout) {data : List UInt8} (hk : 1024 * k < 2 ^ 64) :
    chunk layout (wireChunk layout data k) = (1024 * k, cell data k) := by
  have hoffset : chunkOffset layout (wireChunk layout data k) = UInt64.ofNat (1024 * k) := by
    unfold chunkOffset wireChunk
    rw [List.drop_left' List.length_replicate, List.take_left' (layout.length_toBytes _),
      layout.ofBytes_toBytes]
  unfold chunk
  rw [hoffset, UInt64.toNat_ofNat', Nat.mod_eq_of_lt hk]
  congr 1
  unfold chunkData wireChunk
  rw [← List.append_assoc]
  apply List.drop_left'
  rw [List.length_append, List.length_replicate, layout.length_toBytes]
  rfl

/-- A datagram of a file is one of its cells. -/
theorem mem_wire {data : List UInt8} (hlen : data.length < 2 ^ 64) (hd : d ∈ wire layout data) :
    ∃ k, 1024 * k < data.length ∧ d = wireChunk layout data k ∧
      chunk layout d = (1024 * k, cell data k) := by
  obtain ⟨k, hk, rfl⟩ := List.mem_map.mp hd
  have hlt : 1024 * k < data.length := by
    rw [List.mem_range] at hk
    omega
  exact ⟨k, hlt, rfl, chunk_wireChunk layout (by omega)⟩

/-- Every datagram that was received is a cell of a sender's file. -/
theorem Inv.received (h : s.Inv layout stored) (hd : d ∈ s.server.datagrams) :
    ∃ p ∈ s.senders, ∃ k, 1024 * k < p.data.length ∧ d = wireChunk layout p.data k ∧
      chunk layout d = (1024 * k, cell p.data k) := by
  obtain ⟨p, hp, hsent⟩ := List.mem_flatMap.mp (h.datagrams d hd)
  have hbound : p.data.length < 2 ^ 63 :=
    (List.length_take_le _ _).trans_lt (h.senders p hp).size
  exact ⟨p, hp, mem_wire (by omega) ((h.senders p hp).sent.subset hsent)⟩

/-- A list that has the bytes of a cell. -/
theorem cell_prefix {data content : List UInt8}
    (h : ∀ i, Covers (1024 * k, cell data k) i → content[i]? = data[i]?) :
    cell data k <+: cell content k := by
  have hlen : (cell data k).length = min 1024 (data.length - 1024 * k) := length_cell
  have hcell : cell data k = (content.drop (1024 * k)).take (cell data k).length := by
    apply List.ext_getElem?
    intro i
    by_cases hi : i < (cell data k).length
    · have hcov : Covers (1024 * k, cell data k) (1024 * k + i) := by
        unfold Covers
        dsimp only
        omega
      have hdata := getElem?_cell hcov
      rw [Nat.add_sub_cancel_left] at hdata
      rw [hdata, ← h _ hcov, List.getElem?_take_of_lt hi, List.getElem?_drop]
    · rw [List.getElem?_eq_none (Nat.not_lt.mp hi), List.getElem?_eq_none]
      rw [List.length_take]
      omega
  rw [hcell]
  exact List.take_prefix_take_left (by omega)

theorem length_wireChunk {data : List UInt8} :
    (wireChunk layout data k).length = 16 + (cell data k).length := by
  unfold wireChunk
  rw [List.length_append, List.length_append, List.length_replicate, layout.length_toBytes]
  omega

/-- A cell of a file that fits is accepted. -/
theorem accepted_wireChunk {data : List UInt8} (hk : 1024 * k < data.length)
    (hmax : data.length ≤ MAX_FILE_SIZE.toNat) : Accepted layout (wireChunk layout data k) := by
  have hbound : MAX_FILE_SIZE.toNat < 2 ^ 64 := by decide
  have hcell : (cell data k).length = min 1024 (data.length - 1024 * k) := length_cell
  unfold Accepted
  rw [chunk_wireChunk layout (by omega), length_wireChunk]
  dsimp only
  omega

theorem acceptedChunks_eq {deliveries : List (List UInt8)}
    (h : ∀ d ∈ deliveries, Accepted layout d) :
    acceptedChunks layout deliveries = deliveries.map (chunk layout) := by
  unfold acceptedChunks
  rw [List.filter_eq_self.mpr fun d hd => decide_eq_true (h d hd)]

/-- The server is up, and a datagram of each of two senders arrives. -/
def receiveTwo (d d' : List UInt8) : List TransferAction :=
  List.replicate 14 (.server (.main true)) ++ [.round 0, .round 1] ++
    [d, d'].flatMap fun d => [.server (.thread .timeout []), .server (.thread .bytes d),
      .server (.thread .timeout []), .server (.thread .timeout []), .server (.thread .timeout [])]

/-- A sender of which no system call fails. -/
def sampleSender (source : List UInt8) : Sender :=
  ⟨source, ⟨⟨0, 2, 1, UInt64.ofNat source.length, false, source⟩, ⟨[], fun _ => none⟩,
    List.replicate 1040 0⟩, 0, none⟩

theorem fresh_sampleSender {source : List UInt8} {heap : Heap}
    (hc : (fileSenderSetup source (.ok fun _ => none)).run ⟨fun _ => true, 0, []⟩ =
      .ok (sampleSender source).client heap) : (sampleSender source).Fresh :=
  ⟨rfl, rfl, _, _, heap, hc⟩

def sampleSystem (sources : List (List UInt8)) : TransferSystem :=
  ⟨sources.map sampleSender, .initial fun _ => true⟩

theorem initial_sampleSystem {sources : List (List UInt8)}
    (h : ∀ source ∈ sources, (sampleSender source).Fresh) : (sampleSystem sources).Initial := by
  refine ⟨?_, _, rfl⟩
  intro p hp
  obtain ⟨source, hsource, rfl⟩ := List.mem_map.mp hp
  exact h source hsource

/-- Whoever sends, and whatever the network does: a byte of the file is one that a sender has
there, or one that was there before, or fills a gap. -/
theorem bytes_from_senders (h₀ : s₀.Initial) (h : Reach Enabled (exec layout stored) s₀ s) :
    ∀ f ∈ s.server.fileMngr, ∀ i b, f.content[i]? = some b →
      (∃ p ∈ s.senders, p.data[i]? = some b) ∨ (stored.getD [])[i]? = some b ∨
        (stored.getD []).length ≤ i ∧ b = 0 := by
  intro f hf i b hb
  have hinv := inv_of_reach h₀ h
  obtain ⟨handled, hdatagrams, hcontent⟩ := hinv.server.content f hf
  rw [hcontent] at hb
  rcases getElem?_writeAll_cases hb with ⟨w, hw, hcov, hbyte⟩ | hold
  · obtain ⟨d, hd, -, rfl⟩ := mem_acceptedChunks.mp hw
    obtain ⟨p, hp, k, hk, -, hchunk⟩ :=
      hinv.received (hdatagrams ▸ List.mem_append_left _ hd)
    rw [hchunk] at hcov hbyte
    refine Or.inl ⟨p, hp, ?_⟩
    rw [← hbyte]
    exact (getElem?_cell hcov).symm
  · exact Or.inr hold

theorem bytes_from_senders_two : ∃ s₀ s f, s₀.Initial ∧
    Reach Enabled (exec .littleEndian (some [7, 8, 9])) s₀ s ∧ s.server.fileMngr = some f ∧
      ∀ i b, f.content[i]? = some b → (∃ p ∈ s.senders, p.data[i]? = some b) ∨
        ([7, 8, 9] : List UInt8)[i]? = some b ∨ 3 ≤ i ∧ b = 0 := by
  have h₀ : (sampleSystem [[1, 2], [3]]).Initial := by
    apply initial_sampleSystem
    simp only [List.forall_mem_cons, List.not_mem_nil, false_implies, implies_true, and_true]
    exact ⟨fresh_sampleSender rfl, fresh_sampleSender rfl⟩
  have h : Reach Enabled (exec .littleEndian (some [7, 8, 9])) (sampleSystem [[1, 2], [3]]) _ :=
    Reach.start.foldl
      (receiveTwo (wireChunk .littleEndian [1, 2] 0) (wireChunk .littleEndian [3] 0))
      (by decide +kernel)
  obtain ⟨f, hf⟩ := Option.isSome_iff_exists.mp (by decide +kernel : Option.isSome
    ((receiveTwo (wireChunk .littleEndian [1, 2] 0) (wireChunk .littleEndian [3] 0)).foldl
      (exec .littleEndian (some [7, 8, 9])) (sampleSystem [[1, 2], [3]])).server.fileMngr = true)
  exact ⟨_, _, f, h₀, h, hf, bytes_from_senders h₀ h f hf⟩

/-- What the file has of a cell: all of it from the sender whose datagram for it was handled last,
or, if there was none, what it had before. -/
structure CellOf (layout : SizeLayout) (senders : List Sender) (old content : List UInt8)
    (handled : List (List UInt8)) (n k : ℕ) : Prop where
  written : (∃ d ∈ handled, (chunkOffset layout d).toNat = 1024 * k) →
    ∃ before after, ∃ p ∈ senders, handled = before ++ wireChunk layout p.data k :: after ∧
      (∀ d ∈ after, (chunkOffset layout d).toNat ≠ 1024 * k) ∧
      cell p.data k <+: cell content k
  untouched : (∀ d ∈ handled, (chunkOffset layout d).toNat ≠ 1024 * k) →
    ∀ i < n, i / 1024 = k → (i < old.length → content[i]? = old[i]?) ∧
      (old.length ≤ i → i < content.length → content[i]? = some 0)

/-- When all senders send files of one size, a cell of the file is never torn between two of
them. -/
theorem cells_untorn (h₀ : s₀.Initial) (h : Reach Enabled (exec layout stored) s₀ s)
    (hlen : ∀ p ∈ s₀.senders, p.data.length = n) (hmax : n ≤ MAX_FILE_SIZE.toNat) :
    ∀ f ∈ s.server.fileMngr, ∃ handled, s.server.datagrams = handled ++ s.server.pending ∧
      ∀ k, 1024 * k < n →
        CellOf layout s.senders (stored.getD []) f.content handled n k := by
  intro f hf
  have hinv := inv_of_reach h₀ h
  have hsize : ∀ p ∈ s.senders, p.data.length = n :=
    data_of_reach (fun data => data.length = n) hlen h₀ h
  obtain ⟨handled, hdatagrams, hcontent⟩ := hinv.server.content f hf
  refine ⟨handled, hdatagrams, fun k hk => ?_⟩
  have hcells : ∀ d ∈ handled, ∃ p ∈ s.senders, ∃ k, 1024 * k < n ∧
      d = wireChunk layout p.data k ∧ chunk layout d = (1024 * k, cell p.data k) := by
    intro d hd
    obtain ⟨p, hp, j, hj, hwire, hchunk⟩ :=
      hinv.received (hdatagrams ▸ List.mem_append_left _ hd)
    exact ⟨p, hp, j, hsize p hp ▸ hj, hwire, hchunk⟩
  have haccepted : acceptedChunks layout handled = handled.map (chunk layout) := by
    apply acceptedChunks_eq
    intro d hd
    obtain ⟨p, hp, j, hj, rfl, -⟩ := hcells d hd
    exact accepted_wireChunk (by rwa [hsize p hp]) (by rwa [hsize p hp])
  rw [haccepted] at hcontent
  -- a datagram covers all of a cell, or nothing of it
  have hcovers : ∀ d ∈ handled, ∀ i < n, i / 1024 = k →
      (Covers (chunk layout d) i ↔ (chunkOffset layout d).toNat = 1024 * k) := by
    intro d hd i hi hik
    obtain ⟨p, hp, j, -, -, hchunk⟩ := hcells d hd
    have hoffset : (chunkOffset layout d).toNat = 1024 * j := congrArg Prod.fst hchunk
    rw [hchunk, covers_cell, hoffset, hsize p hp]
    omega
  constructor
  · rintro ⟨d, hd, hdk⟩
    have hbase : 1024 * k / 1024 = k := by omega
    obtain ⟨w, hw⟩ : ∃ w, lastWrite (handled.map (chunk layout)) (1024 * k) = some w := by
      apply Option.ne_none_iff_exists'.mp
      intro hnone
      refine lastWrite_eq_none.mp hnone _ (List.mem_map_of_mem hd) ?_
      exact (hcovers d hd _ hk hbase).mpr hdk
    obtain ⟨hcov, before, after, hws, hafter⟩ := lastWrite_eq_some hw
    obtain ⟨before', rest, rfl, rfl, hrest⟩ := List.map_eq_append_iff.mp hws
    obtain ⟨d', after', rfl, rfl, rfl⟩ := List.map_eq_cons_iff.mp hrest
    have hd' : d' ∈ before' ++ d' :: after' := List.mem_append_right _ List.mem_cons_self
    obtain ⟨p, hp, j, hj, rfl, hchunk⟩ := hcells d' hd'
    have hjk : j = k := by
      rw [hchunk, covers_cell] at hcov
      omega
    subst hjk
    refine ⟨before', after', p, hp, rfl, ?_, ?_⟩
    · intro e he heq
      have hmem : e ∈ before' ++ wireChunk layout p.data j :: after' :=
        List.mem_append_right _ (List.mem_cons_of_mem _ he)
      exact hafter _ (List.mem_map_of_mem he) ((hcovers e hmem _ hk hbase).mpr heq)
    · apply cell_prefix
      intro i hi
      obtain ⟨hij, hin⟩ := covers_cell.mp hi
      rw [hsize p hp] at hin
      have hsame : lastWrite ((before' ++ wireChunk layout p.data j :: after').map
          (chunk layout)) i = some (1024 * j, cell p.data j) := by
        rw [← hchunk, ← hw]
        apply lastWrite_congr
        intro w hw
        obtain ⟨e, he, rfl⟩ := List.mem_map.mp hw
        exact (hcovers e he i hin hij).trans (hcovers e he _ hk hbase).symm
      rw [hcontent, getElem?_writeAll, hsame]
      exact getElem?_cell hi
  · intro hno i hi hik
    have hnone : ∀ w ∈ handled.map (chunk layout), ¬ Covers w i := by
      intro w hw
      obtain ⟨d, hd, rfl⟩ := List.mem_map.mp hw
      exact (hcovers d hd i hi hik).not.mpr (hno d hd)
    rw [hcontent]
    exact ⟨writeAll_uncovered hnone, writeAll_gap hnone⟩

theorem cells_untorn_two : ∃ s₀ s f handled, s₀.Initial ∧
    Reach Enabled (exec .littleEndian none) s₀ s ∧ s.server.fileMngr = some f ∧
      handled.length = 2 ∧ CellOf .littleEndian s.senders [] f.content handled 2 0 := by
  have h₀ : (sampleSystem [[1, 2], [3, 4]]).Initial := by
    apply initial_sampleSystem
    simp only [List.forall_mem_cons, List.not_mem_nil, false_implies, implies_true, and_true]
    exact ⟨fresh_sampleSender rfl, fresh_sampleSender rfl⟩
  have h : Reach Enabled (exec .littleEndian none) (sampleSystem [[1, 2], [3, 4]]) _ :=
    Reach.start.foldl
      (receiveTwo (wireChunk .littleEndian [1, 2] 0) (wireChunk .littleEndian [3, 4] 0))
      (by decide +kernel)
  obtain ⟨f, hf⟩ := Option.isSome_iff_exists.mp (by decide +kernel : Option.isSome
    ((receiveTwo (wireChunk .littleEndian [1, 2] 0) (wireChunk .littleEndian [3, 4] 0)).foldl
      (exec .littleEndian none) (sampleSystem [[1, 2], [3, 4]])).server.fileMngr = true)
  obtain ⟨handled, hdatagrams, hcells⟩ :=
    cells_untorn (n := 2) h₀ h (by decide +kernel) (by decide) f hf
  refine ⟨_, _, f, handled, h₀, h, hf, ?_, hcells 0 (by decide)⟩
  have hlength := congrArg List.length hdatagrams
  rw [List.length_append] at hlength
  have hall : ((receiveTwo (wireChunk .littleEndian [1, 2] 0)
      (wireChunk .littleEndian [3, 4] 0)).foldl (exec .littleEndian none)
      (sampleSystem [[1, 2], [3, 4]])).server.datagrams.length = 2 := by decide +kernel
  have hnone : ((receiveTwo (wireChunk .littleEndian [1, 2] 0)
      (wireChunk .littleEndian [3, 4] 0)).foldl (exec .littleEndian none)
      (sampleSystem [[1, 2], [3, 4]])).server.pending.length = 0 := by decide +kernel
  omega

/-! ### Senders of the same file -/

section Wire
variable {data : List UInt8} {handled : List (List UInt8)}

theorem chunk_of_mem_wire (hmax : data.length ≤ MAX_FILE_SIZE.toNat) (hd : d ∈ wire layout data) :
    Accepted layout d ∧ ∃ k, chunk layout d = (1024 * k, cell data k) := by
  have hbound : MAX_FILE_SIZE.toNat < 2 ^ 64 := by decide
  obtain ⟨k, hk, rfl, hchunk⟩ := mem_wire (by omega) hd
  exact ⟨accepted_wireChunk hk hmax, k, hchunk⟩

/-- The data of the datagrams is that of the file. -/
theorem agrees_of_mem_wire (hmax : data.length ≤ MAX_FILE_SIZE.toNat) (hd : d ∈ wire layout data) :
    Agrees data (chunk layout d) := by
  obtain ⟨-, k, hchunk⟩ := chunk_of_mem_wire hmax hd
  rw [hchunk]
  exact fun i hi => getElem?_cell hi

theorem acceptedChunks_of_wire (hmax : data.length ≤ MAX_FILE_SIZE.toNat)
    (h : ∀ d ∈ handled, d ∈ wire layout data) :
    acceptedChunks layout handled = handled.map (chunk layout) :=
  acceptedChunks_eq fun d hd => (chunk_of_mem_wire hmax (h d hd)).1

/-- All datagrams of a file together write the file. -/
theorem writeAll_wire (hmax : data.length ≤ MAX_FILE_SIZE.toNat)
    (h : ∀ d ∈ handled, d ∈ wire layout data) (hall : wire layout data ⊆ handled)
    (old : List UInt8) :
    writeAll 0 old (acceptedChunks layout handled) = data ++ old.drop data.length := by
  rw [acceptedChunks_of_wire hmax h]
  apply writeAll_eq_append
  · intro w hw
    obtain ⟨d, hd, rfl⟩ := List.mem_map.mp hw
    exact agrees_of_mem_wire hmax (h d hd)
  · intro w hw
    obtain ⟨d, hd, rfl⟩ := List.mem_map.mp hw
    obtain ⟨haccepted, k, hchunk⟩ := chunk_of_mem_wire hmax (h d hd)
    have hpos := haccepted.1
    rw [hchunk, length_cell]
    have hlen : (chunk layout d).2.length = d.length - 16 := List.length_drop
    rw [hchunk, length_cell] at hlen
    omega
  · intro i hi
    have hbound : MAX_FILE_SIZE.toNat < 2 ^ 64 := by decide
    have hk : wireChunk layout data (i / 1024) ∈ wire layout data := by
      apply List.mem_map_of_mem
      rw [List.mem_range]
      omega
    refine ⟨_, List.mem_map_of_mem (hall hk), ?_⟩
    rw [chunk_wireChunk layout (by omega), covers_cell]
    exact ⟨rfl, hi⟩

theorem Inv.sent_wire (h : s.Inv layout stored) (hdata : ∀ p ∈ s.senders, p.data = data)
    (hd : d ∈ s.sent) : d ∈ wire layout data := by
  obtain ⟨p, hp, hsent⟩ := List.mem_flatMap.mp hd
  rw [← hdata p hp]
  exact (h.senders p hp).sent.subset hsent

end Wire

/-- A sender returns what the loop of `main` returns, whatever the others do. When all senders send
the same file, of which each may fail at any datagram, the file is complete as soon as each of its
datagrams was handled, whoever sent it; and what a sender has sent when it returns well is all of
them. -/
theorem senders_converge {data : List UInt8} (h₀ : s₀.Initial)
    (h : Reach Enabled (exec layout stored) s₀ s) (hsame : ∀ p ∈ s₀.senders, p.data = data)
    (hmax : data.length ≤ MAX_FILE_SIZE.toNat) :
    (∀ (k : ℕ) (p₀ p : Sender) (r : Except Errno Unit), s₀.senders[k]? = some p₀ →
      s.senders[k]? = some p → p.result = some r →
      answer (fileSenderSend layout (sourceSize p₀.source)) p₀.client = (r, p.client)) ∧
    (∀ p ∈ s.senders, p.result = some (.ok ()) → p.sent = wire layout data) ∧
    ∀ f ∈ s.server.fileMngr, ∃ handled, s.server.datagrams = handled ++ s.server.pending ∧
      (s.server.step = .returned → handled = s.server.datagrams) ∧
      (wire layout data ⊆ handled →
        f.content = data ++ (stored.getD []).drop data.length) := by
  have hinv := inv_of_reach h₀ h
  have hdata : ∀ p ∈ s.senders, p.data = data :=
    data_of_reach (fun data' => data' = data) hsame h₀ h
  refine ⟨fun k p₀ p r hp₀ hp hr => answer_of_reach h₀ h hp₀ hp hr, ?_, ?_⟩
  · intro p hp hok
    rw [(hinv.senders p hp).all hok, hdata p hp]
  · intro f hf
    obtain ⟨handled, hdatagrams, hcontent⟩ := hinv.server.content f hf
    refine ⟨handled, hdatagrams, ?_, ?_⟩
    · intro hreturned
      rw [hdatagrams, hinv.server.pending_returned hreturned, List.append_nil]
    · intro hall
      rw [hcontent]
      apply writeAll_wire hmax _ hall
      intro d hd
      exact hinv.sent_wire hdata (hinv.datagrams d (hdatagrams ▸ List.mem_append_left _ hd))

theorem senders_converge_two : ∃ s₀ s f, s₀.Initial ∧
    Reach Enabled (exec .littleEndian (some [7, 8, 9])) s₀ s ∧ s.server.fileMngr = some f ∧
      f.content = [1, 2, 9] := by
  have h₀ : (sampleSystem [[1, 2], [1, 2]]).Initial := by
    apply initial_sampleSystem
    simp only [List.forall_mem_cons, List.not_mem_nil, false_implies, implies_true, and_true]
    exact ⟨fresh_sampleSender rfl, fresh_sampleSender rfl⟩
  have h : Reach Enabled (exec .littleEndian (some [7, 8, 9])) (sampleSystem [[1, 2], [1, 2]]) _ :=
    Reach.start.foldl
      (receiveTwo (wireChunk .littleEndian [1, 2] 0) (wireChunk .littleEndian [1, 2] 0))
      (by decide +kernel)
  obtain ⟨f, hf⟩ := Option.isSome_iff_exists.mp (by decide +kernel : Option.isSome
    ((receiveTwo (wireChunk .littleEndian [1, 2] 0) (wireChunk .littleEndian [1, 2] 0)).foldl
      (exec .littleEndian (some [7, 8, 9])) (sampleSystem [[1, 2], [1, 2]])).server.fileMngr =
        true)
  have hsame : ∀ p ∈ (sampleSystem [[1, 2], [1, 2]]).senders, p.data = [1, 2] := by
    decide +kernel
  obtain ⟨handled, hdatagrams, -, hcontent⟩ := (senders_converge h₀ h hsame (by decide)).2.2 f hf
  have hnone : ((receiveTwo (wireChunk .littleEndian [1, 2] 0)
      (wireChunk .littleEndian [1, 2] 0)).foldl (exec .littleEndian (some [7, 8, 9]))
      (sampleSystem [[1, 2], [1, 2]])).server.pending = [] := by decide +kernel
  rw [hnone, List.append_nil] at hdatagrams
  refine ⟨_, _, f, h₀, h, hf, ?_⟩
  rw [hcontent]
  · rfl
  · rw [← hdatagrams]
    decide +kernel

end TransferSystem
end FileTransfer
