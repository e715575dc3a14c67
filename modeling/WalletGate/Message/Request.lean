import WalletGate.Json.Reader
import WalletGate.Network.Client

/-!
# Requests

A **request** asks for a method.  It carries the id its answer will echo, optional params,
and two marks the wallet puts on it: the origin it comes from and the network client it was
issued against.

Params that are present may be null; they are written, and read back as absent.

* `Request.shape` — how a request is read: `jsonrpc` and `id` have defaults, `method` has to
  be there;
* `Request.toJson` — how it is written: in the order of the fields, absent ones left out.
-/

namespace WalletGate

open Reading

/-- The version every message carries unless it says otherwise. -/
def protocolVersion : String := "2.0"

/-- A request for a method. -/
structure Request where
  jsonrpc : String
  id : Json
  method : String
  params : Option Json
  origin : Option Origin
  clientId : Option ClientId
  deriving Repr, Inhabited, BEq

namespace Request

/-- A request with nothing but its id and method. -/
def new (id : Json) (method : String) : Request :=
  ⟨protocolVersion, id, method, none, none, none⟩

/-- The request with these params. -/
def withParams (params : Json) (r : Request) : Request := { r with params := some params }

/-- The request from this origin. -/
def withOrigin (origin : Origin) (r : Request) : Request := { r with origin := some origin }

/-- The request issued against this client. -/
def withClientId (id : ClientId) (r : Request) : Request := { r with clientId := some id }

/-- A request being read. -/
structure Draft where
  jsonrpc : Option String := none
  id : Option Json := none
  method : Option String := none
  params : Option (Option Json) := none
  origin : Option (Option Origin) := none
  clientId : Option (Option ClientId) := none

/-- The fields of a request. -/
def shape : Shape Json.Spot Draft where
  name := "JsonRpcRequest"
  blank := {}
  fields :=
    [.over "jsonrpc" Draft.jsonrpc (fun v d => { d with jsonrpc := some v }) Json.readString
        (some protocolVersion),
      .over "id" Draft.id (fun v d => { d with id := some v }) Json.readAny (some .null),
      .over "method" Draft.method (fun v d => { d with method := some v }) Json.readString none,
      .over "params" Draft.params (fun v d => { d with params := some v })
        (Json.readOptional Json.readAny) (some none),
      .over "origin" Draft.origin (fun v d => { d with origin := some v })
        (Json.readOptional fun s => (Json.readString s).map Origin.mk) (some none),
      .over "networkClientId" Draft.clientId (fun v d => { d with clientId := some v })
        (Json.readOptional fun s => (Json.readString s).map ClientId.mk) (some none)]

/-- A draft with every slot filled. -/
def ofDraft (d : Draft) : Result Request :=
  match d with
  | ⟨some jsonrpc, some id, some method, some params, some origin, some clientId⟩ =>
    .ok ⟨jsonrpc, id, method, params, origin, clientId⟩
  | _ => .error .malformed

/-- Reads a request. -/
def read (spot : Json.Spot) : Result Request :=
  Json.readRecord shape spot >>= ofDraft

/-- The members of a written request. -/
def toJson (r : Request) : Json :=
  .record ([("jsonrpc", .text r.jsonrpc), ("id", r.id), ("method", .text r.method)]
    ++ (r.params.map fun v => ("params", v)).toList
    ++ (r.origin.map fun o => ("origin", .text o.name)).toList
    ++ (r.clientId.map fun c => ("networkClientId", .text c.name)).toList)

end Request

end WalletGate
