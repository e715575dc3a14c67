import WalletGate.Coordination.Notice

/-!
# The registry of networks

The registry holds the custom clients besides the built-in ones, the client selected for the
whole wallet, and the client each origin is bound to.  A built-in client's record is fixed;
a custom one's is what was registered last.

Every operation either does all it should or reports a fault and changes nothing.

* `Registry.resolve_builtIn` — a built-in client resolves to its fixed chain.
-/

namespace WalletGate

/-- What the wallet knows about networks, and which one it uses. -/
structure Registry where
  custom : ClientId → Option ClientConfig
  selected : ClientId
  bindings : Origin → Option ClientId

namespace Registry

/-- Only the built-in networks, on mainnet. -/
def initial : Registry :=
  ⟨fun _ => none, BuiltIn.mainnet.clientId, fun _ => none⟩

instance : Inhabited Registry := ⟨initial⟩

/-- A map with one entry changed. -/
def update {α β : Type} [DecidableEq α] (f : α → β) (a : α) (b : β) : α → β :=
  fun x => if x = a then b else f x

/-- The record of a client, if there is such a client. -/
def resolve (r : Registry) (id : ClientId) : Option ClientConfig :=
  match BuiltIn.ofClientId? id with
  | some network => some ⟨network.chainId, none, none⟩
  | none => r.custom id

/-- Registers the custom clients of settings one after another. -/
def registerAll : List CustomNetwork → Registry → Except Fault Registry
  | [], r => .ok r
  | c :: rest, r =>
    if (BuiltIn.ofClientId? c.id).isSome then
      .error (.config ("custom network '" ++ c.id.name ++ "' shadows a built-in network"))
    else registerAll rest { r with custom := update r.custom c.id (some c.toConfig) }

/-- How many different ids there are. -/
def countIds : List CustomNetwork → Nat
  | [] => 0
  | c :: rest => countIds rest + (if rest.any fun d => d.id = c.id then 0 else 1)

/-- The registry of settings. -/
def ofSettings (n : NetworkSettings) : Except Fault (Registry × Notice) := do
  let r ← registerAll n.custom initial
  if (BuiltIn.ofClientId? n.selected).isSome || (r.custom n.selected).isSome then
    .ok ({ r with selected := n.selected }, .registryReady n.selected (countIds n.custom))
  else
    .error (.config ("selected network '" ++ n.selected.name ++ "' is not a known network client"))

/-- The fault of a client nobody knows. -/
def unknownClient (id : ClientId) : Fault :=
  .networkLookup ("unknown network client '" ++ id.name ++ "'")

/-- Looks a client up. -/
def clientConfig (id : ClientId) (r : Registry) : Except Fault ClientConfig :=
  match r.resolve id with
  | some config => .ok config
  | none => .error (unknownClient id)

/-- The chain of the selected client. -/
def selectedChain (r : Registry) : Except Fault ChainId :=
  (r.clientConfig r.selected).map ClientConfig.chainId

/-- Registers a custom client, or replaces its record. -/
def addCustom (id : ClientId) (config : ClientConfig) (r : Registry) :
    Except Fault (Registry × Notice) :=
  if (BuiltIn.ofClientId? id).isSome then
    .error (.networkLookup ("'" ++ id.name ++ "' is a built-in network client"))
  else
    .ok ({ r with custom := update r.custom id (some config) }, .customRegistered id config.chainId)

/-- Removes a custom client that is not selected. -/
def removeCustom (id : ClientId) (r : Registry) : Except Fault (Registry × Notice) :=
  if r.selected = id then
    .error (.networkLookup ("cannot remove selected network '" ++ id.name ++ "'"))
  else
    match r.custom id with
    | some _ => .ok ({ r with custom := update r.custom id none }, .customRemoved id)
    | none => .error (unknownClient id)

/-- Selects a built-in network. -/
def switchToBuiltIn (network : BuiltIn) (r : Registry) : Except Fault (Registry × Notice) :=
  .ok ({ r with selected := network.clientId }, .builtInSelected network)

/-- Selects a custom client. -/
def switchToCustom (id : ClientId) (r : Registry) : Except Fault (Registry × Notice) :=
  match r.custom id with
  | some config => .ok ({ r with selected := id }, .customSelected id config.chainId)
  | none => .error (.switchActuation ("unknown custom network client '" ++ id.name ++ "'"))

/-- Binds an origin to a client. -/
def bind (origin : Origin) (id : ClientId) (r : Registry) : Except Fault (Registry × Notice) :=
  match r.resolve id with
  | some _ =>
    .ok ({ r with bindings := update r.bindings origin (some id) }, .originBound origin id)
  | none =>
    .error (.switchActuation
      ("cannot bind " ++ origin.name ++ " to unknown network client '" ++ id.name ++ "'"))

/-- A built-in client resolves to its fixed chain, whatever is registered. -/
theorem resolve_builtIn (r : Registry) (network : BuiltIn) :
    r.resolve network.clientId = some ⟨network.chainId, none, none⟩ := by
  simp [resolve, BuiltIn.ofClientId_clientId]

end Registry

end WalletGate
