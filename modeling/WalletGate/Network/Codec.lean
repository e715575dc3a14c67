import WalletGate.Json.Reader
import WalletGate.Network.BuiltIn

/-!
# Networks on the wire

How the names and records about networks are read from JSON and written to it.

* `ClientConfig.shape`, `ClientConfig.toJson` — a client's record: absent texts are left out;
* `BuiltIn.read` — a built-in network is read by its name.
-/

namespace WalletGate

open Reading

/-- A chain id is written as its text. -/
def ChainId.toJson (id : ChainId) : Json := .text id.display

/-- A client id is written as its text. -/
def ClientId.toJson (id : ClientId) : Json := .text id.name

/-- Reads a client id. -/
def ClientId.read (spot : Json.Spot) : Result ClientId :=
  (Json.readString spot).map ClientId.mk

/-- An origin is written as its text. -/
def Origin.toJson (origin : Origin) : Json := .text origin.name

/-- Reads an origin. -/
def Origin.read (spot : Json.Spot) : Result Origin :=
  (Json.readString spot).map Origin.mk

/-- Reads a built-in network by its name. -/
def BuiltIn.read : Json.Spot → Result BuiltIn :=
  Json.readVariant BuiltIn.names

namespace ClientConfig

/-- A client's record being read. -/
structure Draft where
  chainId : Option ChainId := none
  rpcUrl : Option (Option String) := none
  ticker : Option (Option String) := none

/-- The fields of a client's record. -/
def shape : Shape Json.Spot Draft where
  name := "NetworkClientConfig"
  blank := {}
  fields :=
    [.over "chain_id" Draft.chainId (fun v d => { d with chainId := some v }) Json.readChainId none,
      .over "rpc_url" Draft.rpcUrl (fun v d => { d with rpcUrl := some v })
        (Json.readOptional Json.readString) (some none),
      .over "ticker" Draft.ticker (fun v d => { d with ticker := some v })
        (Json.readOptional Json.readString) (some none)]

/-- Reads a client's record. -/
def read (spot : Json.Spot) : Result ClientConfig := do
  match ← Json.readRecord shape spot with
  | ⟨some chainId, some rpcUrl, some ticker⟩ => .ok ⟨chainId, rpcUrl, ticker⟩
  | _ => .error .malformed

/-- The members of a client's written record. -/
def toJson (c : ClientConfig) : Json :=
  .record ([("chain_id", c.chainId.toJson)]
    ++ (c.rpcUrl.map fun s => ("rpc_url", .text s)).toList
    ++ (c.ticker.map fun s => ("ticker", .text s)).toList)

end ClientConfig

end WalletGate
