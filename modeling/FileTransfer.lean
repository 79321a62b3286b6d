import FileTransfer.Foundation.Run
import FileTransfer.BuddyAllocator.Create
import FileTransfer.BuddyAllocator.Session
import FileTransfer.BuddyAllocator.Invariants
import FileTransfer.BuddyAllocator.DoubleFree
import FileTransfer.Foundation.Lifo
import FileTransfer.Infra.IdPool
import FileTransfer.Infra.IdPoolLifo
import FileTransfer.ClientsManager.Manager
import FileTransfer.ClientsManager.Create
import FileTransfer.ClientsManager.Session
import FileTransfer.ClientsManager.Orphans
import FileTransfer.ClientServer.RamFileCtrl
import FileTransfer.StorageManager.StoreMngr
import FileTransfer.StorageManager.Session
import FileTransfer.StorageManager.Isolation
import FileTransfer.StorageManager.ReadBack
import FileTransfer.Apps.FileTransferProtocol
import FileTransfer.Apps.FileSenderClient
import FileTransfer.Apps.FileSenderServer
import FileTransfer.Apps.Transfer
import FileTransfer.BuddyAllocator.Rounding
import FileTransfer.BuddyAllocator.Requests
import FileTransfer.BuddyAllocator.RoundTrip
import FileTransfer.BuddyAllocator.SlotMemory
import FileTransfer.Infra.IdPoolReturn
import FileTransfer.ClientsManager.FileMap
import FileTransfer.Apps.Successive
import FileTransfer.Apps.Untrusted
import FileTransfer.ClientServer.NetServer
import FileTransfer.ClientServer.NetServerLifetime
import FileTransfer.BuddyAllocator.SlotFormula
import FileTransfer.Infra.IdPoolMemory
import FileTransfer.ClientsManager.Atomic
import FileTransfer.ClientServer.BoundedFile
import FileTransfer.BuddyAllocator.Counting
import FileTransfer.Foundation.Ledger
import FileTransfer.Infra.Ownership
import FileTransfer.BuddyAllocator.Ownership
import FileTransfer.StorageManager.Ownership
import FileTransfer.ClientsManager.Ownership
import FileTransfer.Apps.ServerPhases
import FileTransfer.Apps.ServerRuns
import FileTransfer.Apps.Shutdown
import FileTransfer.Apps.Transcript
import FileTransfer.Apps.TransferSystem
import FileTransfer.ClientsManager.Registry
import FileTransfer.BuddyAllocator.Capacity
import FileTransfer.Apps.Restarts
import FileTransfer.Apps.SenderProcess
import FileTransfer.StorageManager.Lifetime
import FileTransfer.Apps.FileCreator
import FileTransfer.Infra.Stack
import FileTransfer.Apps.Delivery
import FileTransfer.ClientServer.RamFileDisk
import FileTransfer.BuddyAllocator.PoolInvariants
import FileTransfer.BuddyAllocator.PoolRequests
import FileTransfer.StorageManager.PoolAccess
