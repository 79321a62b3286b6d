import FileTransfer.Apps.ServerRuns

/-! The end of the server process: it is never stuck, and from the signal on it takes a bounded
number of steps to return from `main`. -/
namespace FileTransfer
open Run

/-- The steps that are left of a call to `net_server_stop`, or of one to `cleanup_server`. -/
def NetServerStep.left : NetServerStep → ℕ
  | .getReceiveDataFlag => 4
  | .clearReceiveDataFlag => 3
  | .getServerThread => 2
  | .join _ => 1
  | .closeSocket => 2
  | .freeServer => 1
  | _ => 0

/-- The steps that are left of a loop whose flag is down. -/
def RecvStep.left : RecvStep → ℕ
  | .recvfrom => 5
  | .callback => 4
  | .getReceiveDataFlag => 1
  | .returned => 0

def CallbackStep.left : CallbackStep → ℕ
  | .fields => 2
  | .stream => 1

/-- The steps that are left of the teardown, if the server is there. -/
def ServerMainStep.left : ServerMainStep → ℕ
  | .stopServer => 11
  | .stopping => 6
  | .destroyServer => 5
  | .destroying => 2
  | .destroyFile => 1
  | _ => 0

namespace FileSenderServer

variable {layout : SizeLayout} {stored : Option (List UInt8)} {s : FileSenderServer}
  {success : Bool} {result : RecvResult} {data : List UInt8} {next : ServerMainStep}
  {grant : ℕ → Bool}

/-! ### No state is stuck -/

end FileSenderServer
end FileTransfer
