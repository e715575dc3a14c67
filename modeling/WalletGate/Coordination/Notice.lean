import WalletGate.Approval.Request
import WalletGate.Classifier
import WalletGate.Network.BuiltIn

/-!
# Notices: what the wallet says about its own doings

Every part of the wallet leaves **notices** of what it did.  A notice is a value; its level,
its wording and its named details are functions of it.  Notices are only ever written:
nothing in the wallet depends on one.
-/

namespace WalletGate

/-- How much a notice matters. -/
inductive Level where
  | debug
  | info
  | warn
  | error
  deriving DecidableEq, Repr

/-- The written form of a level. -/
def Level.name : Level → String
  | debug => "DEBUG"
  | info => "INFO"
  | warn => "WARN"
  | error => "ERROR"

/-- Something the wallet did. -/
inductive Notice where
  /-- A job found the queue idle. -/
  | jobAdmittedToIdleQueue
  /-- A job took its place in the queue. -/
  | jobWaiting (ticket : UInt64) (waiting : Nat)
  /-- A job was handed the slot and goes on. -/
  | jobAdmitted (ticket : UInt64)
  /-- The slot is free. -/
  | queueIdle
  /-- A waiting job was given up. -/
  | jobAbandoned (ticket : UInt64)
  /-- A job that had been handed the slot was given up before it went on. -/
  | admittedJobDropped (ticket : UInt64)
  /-- A request ended with a fault. -/
  | handlerFailed (method : String) (fault : Fault)
  /-- A request needs no queueing. -/
  | bypassing (method : String) (origin : Origin)
  /-- A request goes to the queue. -/
  | enqueueing (method : String) (origin : Origin) (kind : MethodClass)
  /-- A request's chain is selected already. -/
  | onSelectedNetwork (origin : Origin) (chain : ChainId)
  /-- A request needs the user to agree to a change of network. -/
  | wantsApproval (origin : Origin) (fromChain toChain : ChainId) (client : ClientId)
  | notApproved (origin : Origin) (fault : Fault)
  | switchFailed (origin : Origin) (client : ClientId) (fault : Fault)
  | bindingFailed (origin : Origin) (client : ClientId) (fault : Fault)
  | switched (origin : Origin) (fromChain toChain : ChainId) (client : ClientId)
  | lookupFailed (client : ClientId) (fault : Fault)
  /-- The registry of networks is set up. -/
  | registryReady (selected : ClientId) (custom : Nat)
  | customRegistered (client : ClientId) (chain : ChainId)
  | customRemoved (client : ClientId)
  | builtInSelected (network : BuiltIn)
  | customSelected (client : ClientId) (chain : ChainId)
  | originBound (origin : Origin) (client : ClientId)
  /-- An approval is parked. -/
  | approvalRequested (id : ApprovalId) (origin : Origin) (toChain : ChainId)
  | approvalTimedOut (id : ApprovalId) (seconds : Nat)
  | approvalAccepted (id : ApprovalId)
  | approvalRejected (id : ApprovalId) (reason : String)
  | allRejected (count : Nat) (reason : String)
  /-- A parked approval went away with the one who waited for it. -/
  | approvalAbandoned (id : ApprovalId)
  /-- A decision found nobody waiting for it. -/
  | settledLate (id : ApprovalId)
  /-- The settings directory is being watched. -/
  | watching (directory : String)
  | reloaded
  | reloadInvalid (fault : Fault)
  | reloadFailed (fault : Fault)
  deriving DecidableEq, Repr

namespace Notice

/-- How much a notice matters. -/
def level : Notice → Level
  | switched .. | customRegistered .. | customRemoved .. | builtInSelected .. | customSelected ..
  | approvalAccepted .. | approvalRejected .. | allRejected .. | watching .. | reloaded => .info
  | notApproved .. | switchFailed .. | bindingFailed .. | lookupFailed .. | approvalTimedOut ..
  | reloadInvalid .. | reloadFailed .. => .warn
  | _ => .debug

/-- The wording of a notice. -/
def message : Notice → String
  | jobAdmittedToIdleQueue => "job admitted to idle queue"
  | jobWaiting .. => "job waiting for active slot"
  | jobAdmitted .. => "job admitted"
  | queueIdle => "queue idle"
  | jobAbandoned .. => "abandoned job left the queue"
  | admittedJobDropped .. => "admitted job dropped before running"
  | handlerFailed .. => "handler failed"
  | bypassing .. => "bypassing admission queue"
  | enqueueing .. => "enqueueing request"
  | onSelectedNetwork .. => "request already on selected network"
  | wantsApproval .. => "requesting network switch approval"
  | notApproved .. => "network switch not approved"
  | switchFailed .. => "network switch failed"
  | bindingFailed .. => "failed to record origin network"
  | switched .. => "switched network"
  | lookupFailed .. => "network client lookup failed"
  | registryReady .. => "network controller initialized"
  | customRegistered .. => "registered custom network"
  | customRemoved .. => "removed custom network"
  | builtInSelected .. => "selected built-in network"
  | customSelected .. => "selected custom network"
  | originBound .. => "bound origin to network client"
  | approvalRequested .. => "approval requested"
  | approvalTimedOut .. => "approval timed out"
  | approvalAccepted .. => "approval accepted"
  | approvalRejected .. => "approval rejected"
  | allRejected .. => "rejected all pending approvals"
  | approvalAbandoned .. => "pending approval abandoned"
  | settledLate .. => "approval settled after requester left"
  | watching .. => "started watching config directory"
  | reloaded => "config reloaded successfully"
  | reloadInvalid fault =>
    "config validation failed after file change, keeping previous config: " ++ fault.message
  | reloadFailed fault =>
    "config load failed after file change, keeping previous config: " ++ fault.message

/-- The named details of a notice. -/
def details : Notice → List (String × String)
  | jobAdmittedToIdleQueue | queueIdle | reloaded | reloadInvalid _ | reloadFailed _ => []
  | jobWaiting ticket waiting => [("ticket", toString ticket.toNat), ("waiting", toString waiting)]
  | jobAdmitted ticket | jobAbandoned ticket | admittedJobDropped ticket =>
    [("ticket", toString ticket.toNat)]
  | handlerFailed method fault => [("method", method), ("error", fault.message)]
  | bypassing method origin => [("method", method), ("origin", origin.name)]
  | enqueueing method origin kind =>
    [("method", method), ("origin", origin.name), ("class", kind.name)]
  | onSelectedNetwork origin chain => [("origin", origin.name), ("chain_id", chain.display)]
  | wantsApproval origin fromChain toChain client | switched origin fromChain toChain client =>
    [("origin", origin.name), ("from", fromChain.display), ("to", toChain.display),
      ("network_client_id", client.name)]
  | notApproved origin fault => [("origin", origin.name), ("error", fault.message)]
  | switchFailed origin client fault | bindingFailed origin client fault =>
    [("origin", origin.name), ("network_client_id", client.name), ("error", fault.message)]
  | lookupFailed client fault => [("network_client_id", client.name), ("error", fault.message)]
  | registryReady selected custom => [("selected", selected.name), ("custom", toString custom)]
  | customRegistered client chain | customSelected client chain =>
    [("network_client_id", client.name), ("chain_id", chain.display)]
  | customRemoved client => [("network_client_id", client.name)]
  | builtInSelected network => [("network", network.name), ("chain_id", network.chainId.display)]
  | originBound origin client => [("origin", origin.name), ("network_client_id", client.name)]
  | approvalRequested id origin toChain =>
    [("approval_id", id.text), ("origin", origin.name), ("to", toChain.display)]
  | approvalTimedOut id seconds => [("approval_id", id.text), ("timeout_secs", toString seconds)]
  | approvalAccepted id | approvalAbandoned id | settledLate id => [("approval_id", id.text)]
  | approvalRejected id reason => [("approval_id", id.text), ("reason", reason)]
  | allRejected count reason => [("count", toString count), ("reason", reason)]
  | watching directory => [("dir", directory)]

end Notice

end WalletGate
