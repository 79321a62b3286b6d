import FileTransfer.Infra.Ownership

/-! The object of `net_client.c` and its socket: what its creation and its destruction own and
release. -/
namespace FileTransfer
open Heap

structure NetClientObject where
  addr : ℕ
  sockFd : ℕ

/-- `socketErrno` is the `errno` of a `socket` that fails, and `inetAton` says whether `inet_aton`
takes the address of the server. -/
def netClientCreate (socketErrno : Errno) (inetAton : Bool) : HeapCall NetClientObject := do
  match ← request with
  | none => throw .ENOMEM
  | some addr =>
    match ← request with
    | none =>
      access addr
      release addr
      throw socketErrno
    | some sockFd =>
      access addr
      if inetAton then
        return ⟨addr, sockFd⟩
      else
        release addr
        throw .EINVAL

def netClientDestroy (c : NetClientObject) : HeapCall Unit := do
  access c.addr
  release c.sockFd
  release c.addr

def NetClientObject.owned (c : NetClientObject) : Multiset ℕ := {c.sockFd, c.addr}

section Calls
variable {heap : Heap} {F : Multiset ℕ} {E : Option (Multiset ℕ)}

theorem NetClientObject.owned_add (c : NetClientObject) (F : Multiset ℕ) :
    c.owned + F = c.sockFd ::ₘ c.addr ::ₘ F := by
  simp only [owned, Multiset.insert_eq_cons, Multiset.cons_add, Multiset.singleton_add]

/-- A socket that is open when the address is found out not to be taken is never closed. -/
theorem netClientCreate_accounts {inetAton : Bool} (socketErrno : Errno) (F : Multiset ℕ)
    (hok : inetAton = false → heap.grant heap.requests = true →
      heap.grant (heap.requests + 1) = false) :
    Accounts heap F (netClientCreate socketErrno inetAton) (fun c => c.owned + F) (some F) := by
  unfold netClientCreate
  apply Accounts.request_bind
  · intro hobject
    apply Accounts.request_bind
    · intro hsocket
      apply Accounts.access_bind
      · simp
      intro heap₁
      cases inetAton with
      | true =>
        apply Accounts.pure
        rw [NetClientObject.owned_add]
      | false => cases (hok rfl hobject).symm.trans hsocket
    · apply Accounts.access_bind
      · simp
      intro heap₁
      apply Accounts.release_bind
      intro heap₂
      exact .throw socketErrno
  · exact .throw .ENOMEM

/-- With a good address only the memory or the socket can be missing. -/
theorem netClientCreate_error {socketErrno e : Errno} {heap₁ : Heap}
    (hrun : (netClientCreate socketErrno true).run heap = .error e heap₁) :
    heap.grant heap.requests = true → heap.grant (heap.requests + 1) = false := by
  intro hobject
  rw [← Bool.not_eq_true]
  intro hsocket
  have hsocket' : heap.granted.grant heap.granted.requests = true := hsocket
  unfold netClientCreate at hrun
  rw [request_bind_run, if_pos hobject] at hrun
  dsimp only at hrun
  rw [request_bind_run, if_pos hsocket'] at hrun
  cases hrun

theorem netClientDestroy_accounts (c : NetClientObject) (F : Multiset ℕ) :
    Accounts heap (c.owned + F) (netClientDestroy c) (fun _ => F) E := by
  unfold netClientDestroy
  rw [NetClientObject.owned_add]
  apply Accounts.access_bind
  · simp
  intro heap₁
  apply Accounts.release_bind
  intro heap₂
  exact .release

theorem netClientCreate_badAddress (socketErrno : Errno)
    (hobject : heap.grant heap.requests = true)
    (hsocket : heap.grant (heap.requests + 1) = true) :
    (netClientCreate socketErrno false).run heap = .error .EINVAL
      { heap.granted.granted with
        events := .release heap.requests :: .access heap.requests ::
          heap.granted.granted.events } := by
  have hsocket' : heap.granted.grant heap.granted.requests = true := hsocket
  unfold netClientCreate
  rw [request_bind_run, if_pos hobject]
  dsimp only
  rw [request_bind_run, if_pos hsocket']
  rfl

end Calls

/-- Creation and destruction release everything, unless the address is not taken while there is
memory and a socket. -/
theorem net_client_releases_all_iff (socketErrno : Errno) (inetAton : Bool) (grant : ℕ → Bool)
    (n : ℕ) : ReleasesAll (netClientCreate socketErrno inetAton) netClientDestroy ⟨grant, n, []⟩ ↔
      (inetAton = false → grant n = true → grant (n + 1) = false) := by
  constructor
  · rintro hall rfl hobject
    rw [← Bool.not_eq_true]
    intro hsocket
    unfold ReleasesAll at hall
    rw [netClientCreate_badAddress socketErrno hobject hsocket] at hall
    have honce := hall.once (n + 1) List.mem_cons_self
    simp [Lifetime.freed, List.filterMap_cons, HeapEvent.releases, granted] at honce
  · intro hok
    have haccounts : Accounts ⟨grant, n, []⟩ 0 (netClientCreate socketErrno inetAton)
        (fun c => c.owned + 0) (some 0) := netClientCreate_accounts socketErrno 0 hok
    apply haccounts.releasesAll
    intro c heap₁ _
    exact netClientDestroy_accounts c 0

end FileTransfer
