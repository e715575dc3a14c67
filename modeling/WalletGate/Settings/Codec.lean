import WalletGate.Network.Codec
import WalletGate.Settings.Basic

/-!
# Settings, read and written

The records of the settings are described once and read from every format.  A field nobody
wrote takes a default of its own, which stands here apart from the default of the part as a
whole.  Written as JSON, every field is present.

* `QueueSettings.shape`, `NetworkSettings.shape`, `CustomNetwork.shape` — the fields and
  their defaults;
* `Settings.toJson` — the written form.
-/

namespace WalletGate

open Reading

variable {σ : Type}

namespace QueueSettings

/-- The queue's settings being read. -/
structure Draft where
  queueingEnabled : Option Bool := none
  confirmationMethods : Option (List String) := none
  switchMethods : Option (List String) := none
  approvalTimeout : Option (Option UInt64) := none

/-- The fields of the queue's settings. -/
def shape (f : Format σ) : Shape σ Draft where
  name := "QueueConfig"
  blank := {}
  fields :=
    [.over "queueing_enabled" Draft.queueingEnabled
      (fun v d => { d with queueingEnabled := some v })
        f.flag (some true),
      .over "confirmation_methods" Draft.confirmationMethods
        (fun v d => { d with confirmationMethods := some v }) (f.listOf f.text)
        (some defaultConfirmationMethods),
      .over "network_switch_methods" Draft.switchMethods
      (fun v d => { d with switchMethods := some v })
        (f.listOf f.text) (some defaultSwitchMethods),
      .over "approval_timeout_secs" Draft.approvalTimeout
        (fun v d => { d with approvalTimeout := some v }) (f.optional f.word)
        (some none)]

/-- Reads the queue's settings. -/
def read (f : Format σ) (s : σ) : Result QueueSettings := do
  match ← f.record (shape f) s with
  | ⟨some queueingEnabled, some confirmationMethods, some switchMethods, some approvalTimeout⟩ =>
    .ok ⟨queueingEnabled, confirmationMethods, switchMethods, approvalTimeout⟩
  | _ => .error .malformed

/-- The members of the queue's written settings. -/
def toJson (q : QueueSettings) : Json :=
  .record [("queueing_enabled", .bool q.queueingEnabled),
    ("confirmation_methods", .list (q.confirmationMethods.map .text)),
    ("network_switch_methods", .list (q.switchMethods.map .text)),
    ("approval_timeout_secs",
      match q.approvalTimeout with
      | some n => .whole n.toNat
      | none => .null)]

end QueueSettings

namespace CustomNetwork

/-- A custom client being read. -/
structure Draft where
  id : Option ClientId := none
  chainId : Option ChainId := none
  rpcUrl : Option (Option String) := none
  ticker : Option (Option String) := none

/-- The fields of a custom client. -/
def shape (f : Format σ) : Shape σ Draft where
  name := "CustomNetworkConfig"
  blank := {}
  fields :=
    [.over "id" Draft.id (fun v d => { d with id := some v })
      (fun s => (f.text s).map ClientId.mk) none,
      .over "chain_id" Draft.chainId (fun v d => { d with chainId := some v }) f.chainId none,
      .over "rpc_url" Draft.rpcUrl (fun v d => { d with rpcUrl := some v }) (f.optional f.text)
        (some none),
      .over "ticker" Draft.ticker (fun v d => { d with ticker := some v }) (f.optional f.text)
        (some none)]

/-- Reads a custom client. -/
def read (f : Format σ) (s : σ) : Result CustomNetwork := do
  match ← f.record (shape f) s with
  | ⟨some id, some chainId, some rpcUrl, some ticker⟩ => .ok ⟨id, chainId, rpcUrl, ticker⟩
  | _ => .error .malformed

/-- The members of a custom client's written form. -/
def toJson (c : CustomNetwork) : Json :=
  .record [("id", c.id.toJson), ("chain_id", c.chainId.toJson), ("rpc_url", .ofText? c.rpcUrl),
    ("ticker", .ofText? c.ticker)]

end CustomNetwork

namespace NetworkSettings

/-- The networks' settings being read. -/
structure Draft where
  selected : Option ClientId := none
  custom : Option (List CustomNetwork) := none

/-- The fields of the networks' settings. -/
def shape (f : Format σ) : Shape σ Draft where
  name := "NetworksConfig"
  blank := {}
  fields :=
    [.over "selected" Draft.selected (fun v d => { d with selected := some v })
        (fun s => (f.text s).map ClientId.mk) (some defaultSelected),
      .over "custom" Draft.custom (fun v d => { d with custom := some v })
        (f.listOf (CustomNetwork.read f)) (some [])]

/-- Reads the networks' settings. -/
def read (f : Format σ) (s : σ) : Result NetworkSettings := do
  match ← f.record (shape f) s with
  | ⟨some selected, some custom⟩ => .ok ⟨selected, custom⟩
  | _ => .error .malformed

/-- The members of the networks' written settings. -/
def toJson (n : NetworkSettings) : Json :=
  .record [("selected", n.selected.toJson), ("custom", .list (n.custom.map CustomNetwork.toJson))]

end NetworkSettings

namespace Settings

/-- All settings being read. -/
structure Draft where
  queue : Option QueueSettings := none
  networks : Option NetworkSettings := none

/-- The two parts of the settings; both have to be there. -/
def shape (f : Format σ) : Shape σ Draft where
  name := "SwitchyardConfig"
  blank := {}
  fields :=
    [.over "queue" Draft.queue (fun v d => { d with queue := some v }) (QueueSettings.read f) none,
      .over "networks" Draft.networks (fun v d => { d with networks := some v })
      (NetworkSettings.read f)
        none]

/-- Reads all settings. -/
def read (f : Format σ) (s : σ) : Result Settings := do
  match ← f.record (shape f) s with
  | ⟨some queue, some networks⟩ => .ok ⟨queue, networks⟩
  | _ => .error .malformed

/-- The members of the written settings. -/
def toJson (s : Settings) : Json :=
  .record [("queue", s.queue.toJson), ("networks", s.networks.toJson)]

end Settings

end WalletGate
