import WalletGate.Gate
import WalletGate.Script.Stage

/-!
# Scripted handlers

A scripted handler records its name and the method it sees, does its actions in order, and
ends well unless an action ends it with a fault.  Its actions hand on, write into the
request or the response, or record something about them.
-/

namespace WalletGate.Script

/-- An action of a scripted handler. -/
inductive Action where
  /-- Hands on; a fault ends the script. -/
  | next
  /-- Hands on; a fault is only recorded. -/
  | tryNext
  /-- Hands on to nobody. -/
  | emptyNext
  /-- Answers with the method and params. -/
  | echo
  /-- Takes back result and error. -/
  | clear
  /-- Records whether the response is settled. -/
  | settled
  /-- Records the length of the queue. -/
  | queueLength
  /-- Answers with the selected chain. -/
  | chain
  | result (value : Json)
  | error (error : RpcError)
  /-- Ends the script with a fault. -/
  | fail (fault : Fault)
  /-- Waits at a gate. -/
  | gate (name : String)
  /-- Breaks down. -/
  | panic (text : String)
  | setMethod (method : String)
  | setParams (value : Json)
  | setOrigin (origin : Option Origin)
  | setClient (client : Option ClientId)
  | setId (value : Json)
  deriving Repr

/-- A name and a list of actions. -/
structure ScriptedHandler where
  name : String
  actions : List Action
  deriving Repr

/-- The truth value as a word. -/
def truth (b : Bool) : String := if b then "true" else "false"

/-- Does the actions in order; `queue` is the queue whose length is recorded. -/
def act (name : String) (queue : Nat) (rest : Rest Stage) : List Action → Rest Stage
  | [], request, response => .done (.well request response)
  | .next :: more, request, response =>
    (rest request response).bind fun turn =>
      match turn.outcome with
      | .ok () => act name queue rest more turn.request turn.response
      | .error _ => .done turn
  | .tryNext :: more, request, response =>
    (rest request response).bind fun turn =>
      match turn.outcome with
      | .ok () => act name queue rest more turn.request turn.response
      | .error fault =>
        (record (name ++ " caught " ++ fault.message)).bind fun _ =>
          act name queue rest more turn.request turn.response
  | .emptyNext :: more, request, response =>
    (Pipeline.nothing request response).bind fun turn =>
      act name queue rest more turn.request turn.response
  | .echo :: more, request, response =>
    let shown : Json :=
      .record [("method", .text request.method), ("params", request.params.getD .null)]
    act name queue rest more request { response with result := some shown }
  | .clear :: more, request, response =>
    act name queue rest more request { response with result := none, error := none }
  | .settled :: more, request, response =>
    (record (name ++ " settled " ++ truth response.isSettled)).bind fun _ =>
      act name queue rest more request response
  | .queueLength :: more, request, response =>
    (Program.perform (.queueLength queue)).bind fun n =>
      (record (name ++ " len " ++ toString n)).bind fun _ => act name queue rest more
        request response
  | .chain :: more, request, response =>
    (Program.perform .selectedChain).bind fun
      | .ok chain =>
        act name queue rest more request { response with result := some (.text chain.display) }
      | .error fault => .done (.failed fault request response)
  | .result value :: more, request, response =>
    act name queue rest more request { response with result := some value }
  | .error error :: more, request, response =>
    act name queue rest more request { response with error := some error }
  | .fail fault :: _, request, response => .done (.failed fault request response)
  | .gate gate :: more, request, response =>
    (waitAt gate).bind fun _ => act name queue rest more request response
  | .panic text :: _, _, _ => .panic text
  | .setMethod method :: more, request, response =>
    act name queue rest more { request with method := method } response
  | .setParams value :: more, request, response =>
    act name queue rest more { request with params := some value } response
  | .setOrigin origin :: more, request, response =>
    act name queue rest more { request with origin := origin } response
  | .setClient client :: more, request, response =>
    act name queue rest more { request with clientId := client } response
  | .setId value :: more, request, response =>
    act name queue rest more request { response with id := value }

/-- The script as a handler. -/
def ScriptedHandler.toHandler (queue : Nat) (s : ScriptedHandler) : Handler Stage :=
  fun request response rest =>
    (record (s.name ++ " " ++ request.method)).bind fun _ =>
      act s.name queue rest s.actions request response

end WalletGate.Script
