import WalletGate.Message.Request

/-!
# Responses

A **response** is the slot a request's answer is written into: a result, an error, both or
neither.  It is **settled** once it holds one of them.  Its id is the request's.

An error on a response carries a fault's code and wording (`Fault.toRpcError`), or whatever
a handler chose to write there.

* `Response.isSettled_iff` — settled is a result or an error.
-/

namespace WalletGate

open Reading

/-- A failure, as a response carries it. -/
structure RpcError where
  code : Int
  message : String
  data : Option Json
  deriving Repr, Inhabited, BEq

/-- The form a fault takes on a response. -/
def Fault.toRpcError (fault : Fault) : RpcError :=
  ⟨fault.code, fault.message, none⟩

namespace RpcError

/-- An error being read. -/
structure Draft where
  code : Option Int := none
  message : Option String := none
  data : Option (Option Json) := none

/-- The fields of an error. -/
def shape : Shape Json.Spot Draft where
  name := "JsonRpcError"
  blank := {}
  fields :=
    [.over "code" Draft.code (fun v d => { d with code := some v }) Json.readSigned none,
      .over "message" Draft.message (fun v d => { d with message := some v }) Json.readString none,
      .over "data" Draft.data (fun v d => { d with data := some v })
      (Json.readOptional Json.readAny)
        (some none)]

/-- Reads an error. -/
def read (spot : Json.Spot) : Result RpcError := do
  match ← Json.readRecord shape spot with
  | ⟨some code, some message, some data⟩ => .ok ⟨code, message, data⟩
  | _ => .error .malformed

/-- The members of a written error. -/
def toJson (e : RpcError) : Json :=
  .record ([("code", .whole e.code), ("message", .text e.message)]
    ++ (e.data.map fun v => ("data", v)).toList)

end RpcError

/-- The slot for a request's answer. -/
structure Response where
  jsonrpc : String
  id : Json
  result : Option Json
  error : Option RpcError
  deriving Repr, Inhabited, BEq

namespace Response

/-- The empty slot for a request's answer. -/
def forRequest (r : Request) : Response :=
  ⟨protocolVersion, r.id, none, none⟩

/-- Somebody has written a result or an error. -/
def isSettled (r : Response) : Bool :=
  r.result.isSome || r.error.isSome

/-- The response with a fault in place of any result. -/
def fail (fault : Fault) (r : Response) : Response :=
  { r with result := none, error := some fault.toRpcError }

/-- A response being read. -/
structure Draft where
  jsonrpc : Option String := none
  id : Option Json := none
  result : Option (Option Json) := none
  error : Option (Option RpcError) := none

/-- The fields of a response. -/
def shape : Shape Json.Spot Draft where
  name := "JsonRpcResponse"
  blank := {}
  fields :=
    [.over "jsonrpc" Draft.jsonrpc (fun v d => { d with jsonrpc := some v }) Json.readString
        (some protocolVersion),
      .over "id" Draft.id (fun v d => { d with id := some v }) Json.readAny (some .null),
      .over "result" Draft.result (fun v d => { d with result := some v })
        (Json.readOptional Json.readAny) (some none),
      .over "error" Draft.error (fun v d => { d with error := some v })
        (Json.readOptional RpcError.read) (some none)]

/-- Reads a response. -/
def read (spot : Json.Spot) : Result Response := do
  match ← Json.readRecord shape spot with
  | ⟨some jsonrpc, some id, some result, some error⟩ => .ok ⟨jsonrpc, id, result, error⟩
  | _ => .error .malformed

/-- The members of a written response. -/
def toJson (r : Response) : Json :=
  .record ([("jsonrpc", .text r.jsonrpc), ("id", r.id)]
    ++ (r.result.map fun v => ("result", v)).toList
    ++ (r.error.map fun e => ("error", e.toJson)).toList)

/-- Settled means answered, by a result or by an error. -/
theorem isSettled_iff (r : Response) : r.isSettled = true ↔ r.result ≠ none ∨ r.error ≠ none := by
  simp [isSettled, Option.isSome_iff_ne_none]

end Response

end WalletGate
