import WalletGate.Network.BuiltIn

/-!
# Settings

The **settings** of a wallet have two parts.  The queue's part says whether requests are
queued at all, which methods need the user's confirmation, which change the network
themselves, and how long an approval may wait.  The networks' part names the client selected
at the start and the custom clients.

A setting nobody wrote has its default; the default of a part is the part with every setting
at its default.
-/

namespace WalletGate

/-- Settings of the admission queue and of approvals. -/
structure QueueSettings where
  queueingEnabled : Bool
  confirmationMethods : List String
  switchMethods : List String
  /-- Seconds an approval may wait; without a number it waits for ever. -/
  approvalTimeout : Option UInt64
  deriving DecidableEq, Repr

namespace QueueSettings

/-- The methods that need the user's confirmation unless the settings say otherwise. -/
def defaultConfirmationMethods : List String :=
  ["eth_sendTransaction", "eth_sign", "personal_sign", "eth_signTypedData", "eth_signTypedData_v1",
    "eth_signTypedData_v3", "eth_signTypedData_v4", "wallet_addEthereumChain", "wallet_watchAsset",
    "wallet_requestPermissions", "eth_requestAccounts"]

/-- The methods that change the network themselves unless the settings say otherwise. -/
def defaultSwitchMethods : List String :=
  ["wallet_switchEthereumChain"]

/-- The queue's settings when nobody wrote any. -/
def default : QueueSettings :=
  ⟨true, defaultConfirmationMethods, defaultSwitchMethods, none⟩

instance : Inhabited QueueSettings := ⟨default⟩

end QueueSettings

/-- A custom network client. -/
structure CustomNetwork where
  id : ClientId
  chainId : ChainId
  rpcUrl : Option String
  ticker : Option String
  deriving DecidableEq, Repr, Inhabited

/-- What the directory of networks says about a custom client. -/
def CustomNetwork.toConfig (c : CustomNetwork) : ClientConfig :=
  ⟨c.chainId, c.rpcUrl, c.ticker⟩

/-- Settings of the networks. -/
structure NetworkSettings where
  /-- The client selected at the start. -/
  selected : ClientId
  custom : List CustomNetwork
  deriving DecidableEq, Repr

namespace NetworkSettings

/-- The client selected unless the settings say otherwise. -/
def defaultSelected : ClientId := BuiltIn.mainnet.clientId

/-- The networks' settings when nobody wrote any. -/
def default : NetworkSettings :=
  ⟨defaultSelected, []⟩

instance : Inhabited NetworkSettings := ⟨default⟩

end NetworkSettings

/-- All settings of a wallet. -/
structure Settings where
  queue : QueueSettings
  networks : NetworkSettings
  deriving DecidableEq, Repr, Inhabited

/-- The settings when nobody wrote any. -/
def Settings.default : Settings :=
  ⟨QueueSettings.default, NetworkSettings.default⟩

end WalletGate
