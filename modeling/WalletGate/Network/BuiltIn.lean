import WalletGate.Network.Client

/-!
# Built-in networks

Six networks are known without any settings.  Each has a client id that no custom client may
take, and a fixed chain id.

* `BuiltIn.ofClientId_clientId` — a built-in network is found under its own id;
* `BuiltIn.clientId_of_ofClientId` — and nothing else is found under that id.
-/

namespace WalletGate

/-- A network known without settings. -/
inductive BuiltIn where
  | mainnet
  | goerli
  | sepolia
  | lineaGoerli
  | lineaSepolia
  | lineaMainnet
  deriving DecidableEq, Repr, Inhabited

namespace BuiltIn

/-- All built-in networks, in their order. -/
def all : List BuiltIn :=
  [mainnet, goerli, sepolia, lineaGoerli, lineaSepolia, lineaMainnet]

/-- The name of a built-in network, which is also the name of its client. -/
def name : BuiltIn → String
  | mainnet => "mainnet"
  | goerli => "goerli"
  | sepolia => "sepolia"
  | lineaGoerli => "linea-goerli"
  | lineaSepolia => "linea-sepolia"
  | lineaMainnet => "linea-mainnet"

/-- The client of a built-in network. -/
def clientId (network : BuiltIn) : ClientId := ⟨network.name⟩

/-- The chain of a built-in network. -/
def chainId : BuiltIn → ChainId
  | mainnet => ⟨0x1⟩
  | goerli => ⟨0x5⟩
  | sepolia => ⟨0xaa36a7⟩
  | lineaGoerli => ⟨0xe704⟩
  | lineaSepolia => ⟨0xe705⟩
  | lineaMainnet => ⟨0xe708⟩

/-- The built-in network whose client has this id. -/
def ofClientId? (id : ClientId) : Option BuiltIn :=
  all.find? fun network => network.name = id.name

/-- The names of the built-in networks, for reading. -/
def names : List (String × BuiltIn) :=
  all.map fun network => (network.name, network)

/-- A built-in network is found under its own id. -/
theorem ofClientId_clientId (network : BuiltIn) : ofClientId? network.clientId = some network := by
  cases network <;> decide

/-- What is found under an id has that id. -/
theorem clientId_of_ofClientId {id : ClientId} {network : BuiltIn}
    (h : ofClientId? id = some network) :
    network.clientId = id := by
  have := List.find?_some h
  simp only [decide_eq_true_eq] at this
  simp [clientId, this]

end BuiltIn

end WalletGate
