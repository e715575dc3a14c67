import WalletGate.Pipeline

/-!
# The gate: requests run on the network they were issued for

The **gate** is a handler.  It turns away requests that name no origin or no client.  With
queueing off, and for methods that bypass the queue, it hands on at once.  Every other
request becomes a job of the admission queue; while it holds the slot

1. a request that needs confirmation has its network selected first (`Gate.ensureNetwork`):
   if another chain is selected, the user is asked, the selection is changed, and the origin
   is bound to the client; 2. the handlers behind the gate run.

A fault inside a job is written into that request's response and goes no further.

The gate knows its **collaborators** — the directory of networks, the user, whoever changes
the network — only by what they answer.
-/

namespace WalletGate

variable {η : Type}

/-- Whom the gate turns to. -/
structure Collaborators (η : Type) : Type 1 where
  /-- Whether requests are queued at all. -/
  isQueueing : Program η Bool
  clientConfig : ClientId → Program η (Except Fault ClientConfig)
  selectedChain : Program η (Except Fault ChainId)
  approve : ApprovalRequest → Program η (Except Fault Unit)
  switchToBuiltIn : BuiltIn → Program η (Except Fault Unit)
  switchToCustom : ClientId → Program η (Except Fault Unit)
  bindOrigin : Origin → ClientId → Program η (Except Fault Unit)

/-- The collaborators that the wallet has itself: its registry, its desk, its flag. -/
def Collaborators.own : Collaborators η where
  isQueueing := .perform .isQueueing
  clientConfig id := .perform (.clientConfig id)
  selectedChain := .perform .selectedChain
  approve request := .approve request
  switchToBuiltIn network := .perform (.switchToBuiltIn network)
  switchToCustom id := .perform (.switchToCustom id)
  bindOrigin origin id := .perform (.bindOrigin origin id)

/-- A gate: the number of its queue, its classifier, its collaborators. -/
structure Gate (η : Type) : Type 1 where
  queue : Nat
  classifier : Classifier
  collaborators : Collaborators η

namespace Gate

/-- Leaves a notice. -/
def note (n : Notice) : Program η Unit := .perform (.note n)

/-- Leaves a notice and ends with a fault. -/
def refuse {α : Type} (n : Notice) (fault : Fault) : Program η (Except Fault α) :=
  (note n).bind fun _ => .done (.error fault)

/-- The chain a client stands for: fixed for a built-in network, looked up for any other. -/
def targetChain (g : Gate η) (client : ClientId) : Program η (Except Fault ChainId) :=
  match BuiltIn.ofClientId? client with
  | some network => .done (.ok network.chainId)
  | none =>
    (g.collaborators.clientConfig client).bind fun
      | .ok config => .done (.ok config.chainId)
      | .error fault => refuse (.lookupFailed client fault) fault

/-- Selects a client. -/
def switchTo (g : Gate η) (client : ClientId) : Program η (Except Fault Unit) :=
  match BuiltIn.ofClientId? client with
  | some network => g.collaborators.switchToBuiltIn network
  | none => g.collaborators.switchToCustom client

/-- The end of a change: the origin was bound to the client, or could not be. -/
def bound (origin : Origin) (client : ClientId) (current target : ChainId) :
    Except Fault Unit → Program η (Except Fault Unit)
  | .error fault => refuse (.bindingFailed origin client fault) fault
  | .ok () => (note (.switched origin current target client)).bind fun _ => .done (.ok ())

/-- Goes on when the client was selected, or could not be. -/
def switched (g : Gate η) (origin : Origin) (client : ClientId) (current target : ChainId) :
    Except Fault Unit → Program η (Except Fault Unit)
  | .error fault => refuse (.switchFailed origin client fault) fault
  | .ok () => (g.collaborators.bindOrigin origin client).bind (bound origin client current target)

/-- Goes on when the user has decided. -/
def decided (g : Gate η) (origin : Origin) (client : ClientId) (current target : ChainId) :
    Except Fault Unit → Program η (Except Fault Unit)
  | .error fault => refuse (.notApproved origin fault) fault
  | .ok () => (g.switchTo client).bind (g.switched origin client current target)

/-- Changes the selected network from one chain to another, with the user's approval. -/
def changeNetwork (g : Gate η) (origin : Origin) (client : ClientId) (current target : ChainId) :
    Program η (Except Fault Unit) :=
  (note (.wantsApproval origin current target client)).bind fun _ =>
  (Program.perform (.draft origin current target client)).bind fun request =>
  (g.collaborators.approve request).bind (g.decided origin client current target)

/-- Goes on when the selected chain is known: it is the one wanted, or has to be changed. -/
def compared (g : Gate η) (origin : Origin) (client : ClientId) (target : ChainId) :
    Except Fault ChainId → Program η (Except Fault Unit)
  | .error fault => .done (.error fault)
  | .ok current =>
    if target = current then
      (note (.onSelectedNetwork origin current)).bind fun _ => .done (.ok ())
    else g.changeNetwork origin client current target

/-- Goes on when the chain wanted is known. -/
def targeted (g : Gate η) (origin : Origin) (client : ClientId) :
    Except Fault ChainId → Program η (Except Fault Unit)
  | .error fault => .done (.error fault)
  | .ok target => g.collaborators.selectedChain.bind (g.compared origin client target)

/-- Makes a request's network the selected one. -/
def ensureNetwork (g : Gate η) (origin : Origin) (client : ClientId) :
    Program η (Except Fault Unit) :=
  (g.targetChain client).bind (g.targeted origin client)

/-- Hands a request on whose network is the selected one. -/
def handOn (request : Request) (response : Response) (rest : Rest η) :
    Except Fault Unit → Program η Turn
  | .error fault => .done (.failed fault request response)
  | .ok () => rest request response

/-- What a request does while it holds the slot. -/
def admitted (g : Gate η) (kind : MethodClass) (origin : Origin) (client : ClientId)
    (request : Request) (response : Response) (rest : Rest η) : Program η Turn :=
  if kind = .requiresConfirmation then (g.ensureNetwork origin client).bind
    (handOn request response rest)
  else rest request response

/-- The turn of a queued request: its fault, if it has one, is written into its response. -/
def settleFault (turn : Turn) : Turn :=
  .well turn.request (Pipeline.afterFault turn)

/-- What the gate does with a request that names its origin and client. -/
def route (g : Gate η) (origin : Origin) (client : ClientId) (request : Request)
    (response : Response) (rest : Rest η) : Program η Turn :=
  g.collaborators.isQueueing.bind fun queueing =>
    if queueing then
      let kind := g.classifier.classify request.method
      if kind.isQueued then
        (note (.enqueueing request.method origin kind)).bind fun _ =>
          .enqueue g.queue (g.admitted kind origin client request response rest) fun turn =>
            .done (settleFault turn)
      else (note (.bypassing request.method origin)).bind fun _ => rest request response
    else rest request response

/-- The gate as a handler. -/
def handle (g : Gate η) : Handler η := fun request response rest =>
  match request.origin with
  | none => .done (.failed .missingOrigin request response)
  | some origin =>
    match request.clientId with
    | none => .done (.failed .missingNetworkClientId request response)
    | some client => g.route origin client request response rest

end Gate

end WalletGate
