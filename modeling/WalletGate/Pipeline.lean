import WalletGate.Coordination.Program
import WalletGate.Message.Response

/-!
# The pipeline of handlers

A request passes through a list of **handlers**.  Each may change the request, write into
the response, hand both on to the handlers behind it — once, several times or not at all —
and end well or with a fault.  A handler that does not hand on ends the request.

Requests and responses are passed along as values: what a handler leaves of them, also when
it ends with a fault, is part of its **turn**.

At the end a response is always settled: a fault takes the place of any result, and a
request nobody answered is told that its method is unknown.

* `Pipeline.isSettled_answer` — the answer made of the last turn is settled;
* `Pipeline.isSettled_of_returns` — so is every answer the pipeline gives.
-/

namespace WalletGate

variable {η : Type}

/-- What a handler leaves: how it ended, and the request and response as they are then. -/
structure Turn where
  outcome : Except Fault Unit
  request : Request
  response : Response

namespace Turn

/-- A turn that ended well. -/
def well (request : Request) (response : Response) : Turn := ⟨.ok (), request, response⟩

/-- A turn that ended with a fault. -/
def failed (fault : Fault) (request : Request) (response : Response) : Turn :=
  ⟨.error fault, request, response⟩

end Turn

/-- The handlers that remain, as one. -/
abbrev Rest (η : Type) := Request → Response → Program η Turn

/-- One stage of the pipeline; it is given the handlers that remain. -/
abbrev Handler (η : Type) := Request → Response → Rest η → Program η Turn

namespace Pipeline

/-- No handlers remain. -/
def nothing : Rest η := fun request response => .done (.well request response)

/-- Hands a request on to the first of the handlers. -/
def dispatch : List (Handler η) → Rest η
  | [] => nothing
  | handler :: rest => fun request response => handler request response (dispatch rest)

/-- The response after a turn, a fault in place of any result. -/
def afterFault (turn : Turn) : Response :=
  match turn.outcome with
  | .ok () => turn.response
  | .error fault => turn.response.fail fault

/-- The answer made of a turn: one that nobody settled says that the method is unknown. -/
def answer (turn : Turn) : Response :=
  let response := afterFault turn
  if response.isSettled then response
  else { response with error := some (Fault.methodNotFound turn.request.method).toRpcError }

/-- The notice a turn leaves. -/
def report (turn : Turn) : Program η Unit :=
  match turn.outcome with
  | .ok () => .done ()
  | .error fault => .perform (.note (.handlerFailed turn.request.method fault))

/-- Runs a request through the handlers; its answer. -/
def handle (handlers : List (Handler η)) (request : Request) : Program η Response :=
  (dispatch handlers request (.forRequest request)).bind fun turn =>
    (report turn).bind fun _ => .done (answer turn)

/-- Every answer is settled. -/
theorem isSettled_answer (turn : Turn) : (answer turn).isSettled = true := by
  unfold answer
  dsimp only
  split
  · assumption
  · simp [Response.isSettled]

/-- Every answer the pipeline can give is settled. -/
theorem isSettled_of_returns {handlers : List (Handler η)} {request : Request} {response : Response}
    (h : Program.Returns (handle handlers request) response) : response.isSettled = true := by
  obtain ⟨turn, _, h⟩ := Program.returns_bind h
  obtain ⟨_, _, h⟩ := Program.returns_bind h
  cases h
  exact isSettled_answer turn

end Pipeline

end WalletGate
