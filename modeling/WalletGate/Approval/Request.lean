import WalletGate.Approval.Id
import WalletGate.Approval.Instant
import WalletGate.Json.Reader
import WalletGate.Network.Client

/-!
# Approval requests

An **approval request** asks the user to agree to a change of network on behalf of an
origin: from the chain selected now, to another chain, by way of a named network client.
Its id is what the user's answer refers to.

* `ApprovalRequest.shape`, `ApprovalRequest.toJson` — how a request is read and written.
-/

namespace WalletGate

open Reading

/-- What an approval is asked for. -/
inductive ApprovalKind where
  /-- To change the selected network. -/
  | switchChain
  deriving DecidableEq, Repr, Inhabited

namespace ApprovalKind

/-- The written form of a kind. -/
def name : ApprovalKind → String
  | switchChain => "wallet_switchEthereumChain"

/-- The kinds by their written forms. -/
def names : List (String × ApprovalKind) :=
  [(switchChain.name, switchChain)]

/-- Reads a kind. -/
def read : Json.Spot → Result ApprovalKind :=
  Json.readVariant names

end ApprovalKind

/-- The change of network that is proposed. -/
structure SwitchProposal where
  /-- The chain selected now. -/
  fromChain : ChainId
  /-- The chain the request needs. -/
  toChain : ChainId
  /-- The client that would be selected. -/
  toClient : ClientId
  deriving DecidableEq, Repr, Inhabited

namespace SwitchProposal

/-- A proposal being read. -/
structure Draft where
  fromChain : Option ChainId := none
  toChain : Option ChainId := none
  toClient : Option ClientId := none

/-- The fields of a proposal. -/
def shape : Shape Json.Spot Draft where
  name := "SwitchChainRequestData"
  blank := {}
  fields :=
    [.over "fromChainId" Draft.fromChain (fun v d => { d with fromChain := some v })
        Json.readChainId none,
      .over "toChainId" Draft.toChain (fun v d => { d with toChain := some v })
        Json.readChainId none,
      .over "toNetworkClientId" Draft.toClient (fun v d => { d with toClient := some v })
        (fun s => (Json.readString s).map ClientId.mk) none]

/-- Reads a proposal. -/
def read (spot : Json.Spot) : Result SwitchProposal := do
  match ← Json.readRecord shape spot with
  | ⟨some fromChain, some toChain, some toClient⟩ => .ok ⟨fromChain, toChain, toClient⟩
  | _ => .error .malformed

/-- The members of a written proposal. -/
def toJson (p : SwitchProposal) : Json :=
  .record [("fromChainId", .text p.fromChain.display), ("toChainId", .text p.toChain.display),
    ("toNetworkClientId", .text p.toClient.name)]

end SwitchProposal

/-- A request for the user's approval. -/
structure ApprovalRequest where
  id : ApprovalId
  origin : Origin
  kind : ApprovalKind
  proposal : SwitchProposal
  /-- When the request was raised. -/
  requestedAt : Instant
  deriving DecidableEq, Repr, Inhabited

namespace ApprovalRequest

/-- The request to move from one chain to another on behalf of an origin. -/
def switchChain (id : ApprovalId) (time : Instant) (origin : Origin) (fromChain toChain : ChainId)
    (toClient : ClientId) : ApprovalRequest :=
  ⟨id, origin, .switchChain, ⟨fromChain, toChain, toClient⟩, time⟩

/-- Reads an approval id. -/
def readId (spot : Json.Spot) : Result ApprovalId := do
  match ApprovalId.ofText? (← Json.readTextAs "a formatted UUID string" spot) with
  | some id => .ok id
  | none => refuse .badApprovalId

/-- Reads an instant. -/
def readInstant (spot : Json.Spot) : Result Instant := do
  match Instant.ofText? (← Json.readTextAs "an RFC 3339 formatted date and time string" spot) with
  | some t => .ok t
  | none => refuse .badInstant

/-- A request being read. -/
structure Draft where
  id : Option ApprovalId := none
  origin : Option Origin := none
  kind : Option ApprovalKind := none
  proposal : Option SwitchProposal := none
  requestedAt : Option Instant := none

/-- The fields of an approval request. -/
def shape : Shape Json.Spot Draft where
  name := "ApprovalRequest"
  blank := {}
  fields :=
    [.over "id" Draft.id (fun v d => { d with id := some v }) readId none,
      .over "origin" Draft.origin (fun v d => { d with origin := some v })
        (fun s => (Json.readString s).map Origin.mk) none,
      .over "kind" Draft.kind (fun v d => { d with kind := some v }) ApprovalKind.read none,
      .over "requestData" Draft.proposal (fun v d => { d with proposal := some v })
        SwitchProposal.read none,
      .over "requestedAt" Draft.requestedAt (fun v d => { d with requestedAt := some v })
        readInstant none]

/-- Reads an approval request. -/
def read (spot : Json.Spot) : Result ApprovalRequest := do
  match ← Json.readRecord shape spot with
  | ⟨some id, some origin, some kind, some proposal, some requestedAt⟩ =>
    .ok ⟨id, origin, kind, proposal, requestedAt⟩
  | _ => .error .malformed

/-- The members of a written approval request. -/
def toJson (r : ApprovalRequest) : Json :=
  .record [("id", .text r.id.text), ("origin", .text r.origin.name), ("kind", .text r.kind.name),
    ("requestData", r.proposal.toJson), ("requestedAt", .text r.requestedAt.text)]

/-- One request was raised before another; of two raised at one instant the one with the
smaller id. -/
def precedes (a b : ApprovalRequest) : Bool :=
  a.requestedAt.before b.requestedAt || (a.requestedAt = b.requestedAt && a.id.value ≤ b.id.value)

end ApprovalRequest

end WalletGate
