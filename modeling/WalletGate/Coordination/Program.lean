import WalletGate.Coordination.World

/-!
# Programs: what runs in a wallet

A **program** is a description of what to do, one call after another; nothing happens until
it is run.  A call asks the world for something (`Call`) and goes on with the answer, which
is there at once.  Three things may have to wait, and two of those come to an end in every
case, even when the program is given up in the middle:

* `await` takes a step of the host, as soon as the host can take it;
* `ask` parks an approval request, waits for the decision, and leaves nothing on the desk;
* `enqueue` runs a job while it holds the slot of a queue, and gives the slot up behind it.

There is no other way to touch a queue or the requests on the desk, so whatever a program
does, it takes a slot only to give it back.

`Returns` says which values a program can end with, whatever the world answers.

* `Program.bind_done`, `Program.bind_assoc` — programs compose;
* `Program.returns_bind` — the ends of a composed program.
-/

namespace WalletGate

/-- A question to the world that is answered at once. -/
inductive Call : Type → Type 1 where
  /-- Leaves a notice. -/
  | note (n : Notice) : Call Unit
  /-- The length of a queue. -/
  | queueLength (queue : Nat) : Call Nat
  /-- Whether requests are queued at all. -/
  | isQueueing : Call Bool
  | clientConfig (id : ClientId) : Call (Except Fault ClientConfig)
  | selectedChain : Call (Except Fault ChainId)
  | switchToBuiltIn (network : BuiltIn) : Call (Except Fault Unit)
  | switchToCustom (id : ClientId) : Call (Except Fault Unit)
  | bindOrigin (origin : Origin) (id : ClientId) : Call (Except Fault Unit)
  /-- Draws up an approval request. -/
  | draft (origin : Origin) (fromChain toChain : ChainId) (client : ClientId) : Call ApprovalRequest

/-- The world's answer to a call, and the world behind it. -/
def Call.answer {η β : Type} : Call β → World η → β × World η
  | note n, w => ((), w.note n)
  | queueLength queue, w => ((w.queues queue).length, w)
  | isQueueing, w => (w.queueing, w)
  | clientConfig id, w => (w.registry.clientConfig id, w)
  | selectedChain, w => (w.registry.selectedChain, w)
  | switchToBuiltIn network, w => w.onRegistry (Registry.switchToBuiltIn network)
  | switchToCustom id, w => w.onRegistry (Registry.switchToCustom id)
  | bindOrigin origin id, w => w.onRegistry (Registry.bind origin id)
  | draft origin fromChain toChain client, w => w.draft origin fromChain toChain client

/-- What to do, one call after another, until a value is there. -/
inductive Program (η : Type) : Type → Type 1 where
  /-- Ends with a value. -/
  | done {α : Type} (a : α) : Program η α
  /-- Breaks down. -/
  | panic {α : Type} (text : String) : Program η α
  /-- Asks the world and goes on with the answer. -/
  | call {α β : Type} (c : Call β) (next : β → Program η α) : Program η α
  /-- Takes a step of the host as soon as the step gives something, and goes on with what it
  gives. -/
  | await {α β : Type} (step : η → Option (β × η)) (next : β → Program η α) : Program η α
  /-- Asks the user and goes on with the decision. -/
  | ask {α : Type} (request : ApprovalRequest) (next : Except Fault Unit → Program η α) :
    Program η α
  /-- Runs a job while holding a queue's slot and goes on with its value. -/
  | enqueue {α β : Type} (queue : Nat) (job : Program η β) (next : β → Program η α) : Program η α

namespace Program

variable {η : Type} {α β γ : Type}

/-- Goes on with another program. -/
def bind : Program η α → (α → Program η β) → Program η β
  | done a, f => f a
  | panic text, _ => panic text
  | call c next, f => call c fun b => bind (next b) f
  | await step next, f => await step fun b => bind (next b) f
  | ask request next, f => ask request fun answer => bind (next answer) f
  | enqueue queue job next, f => enqueue queue job fun b => bind (next b) f

instance : Monad (Program η) where
  pure := done
  bind := bind

/-- A single call. -/
def perform (c : Call α) : Program η α := call c done

/-- A single step of the host. -/
def awaiting (step : η → Option (α × η)) : Program η α := await step done

/-- A step the host can always take. -/
def hosted (step : η → α × η) : Program η α := await (fun h => some (step h)) done

/-- A program that runs as a job of a queue. -/
def queued (queue : Nat) (job : Program η α) : Program η α := enqueue queue job done

/-- A program that asks the user. -/
def approve (request : ApprovalRequest) : Program η (Except Fault Unit) := ask request done

/-- A value a program can end with, for some answers of the world. -/
inductive Returns : {α : Type} → Program η α → α → Prop
  | done {α : Type} (a : α) : Returns (done a) a
  | call {α β : Type} {c : Call β} {next : β → Program η α} {a : α} (b : β) :
    Returns (next b) a → Returns (call c next) a
  | await {α β : Type} {step : η → Option (β × η)} {next : β → Program η α} {a : α} (b : β) :
    Returns (next b) a → Returns (await step next) a
  | ask {α : Type} {request : ApprovalRequest} {next : Except Fault Unit → Program η α} {a : α}
    (answer : Except Fault Unit) : Returns (next answer) a → Returns (ask request next) a
  | enqueue {α β : Type} {queue : Nat} {job : Program η β} {next : β → Program η α}
    {a : α} (b : β) :
    Returns job b → Returns (next b) a → Returns (enqueue queue job next) a

/-- A value goes straight on. -/
@[simp] theorem bind_done (a : α) (f : α → Program η β) : (done a).bind f = f a := rfl

/-- A program is unchanged by going on with its own value. -/
theorem bind_self (p : Program η α) : p.bind done = p := by
  induction p with
  | done a => rfl
  | panic text => rfl
  | call c next ih => simp [bind, ih]
  | await step next ih => simp [bind, ih]
  | ask request next ih => simp [bind, ih]
  | enqueue queue job next _ ih => simp [bind, ih]

/-- Programs compose: it does not matter how they are grouped. -/
theorem bind_assoc (p : Program η α) (f : α → Program η β) (g : β → Program η γ) :
    (p.bind f).bind g = p.bind fun a => (f a).bind g := by
  induction p with
  | done a => rfl
  | panic text => rfl
  | call c next ih => simp [bind, ih]
  | await step next ih => simp [bind, ih]
  | ask request next ih => simp [bind, ih]
  | enqueue queue job next _ ih => simp [bind, ih]

/-- The ends of a composed program. -/
theorem returns_bind {p : Program η α} {f : α → Program η β} {b : β} :
    Returns (p.bind f) b → ∃ a, Returns p a ∧ Returns (f a) b := by
  induction p with
  | done a => exact fun h => ⟨a, .done a, h⟩
  | panic text => intro h; cases h
  | call c next ih =>
    intro h
    cases h with
    | call x h =>
      obtain ⟨a, ha, hb⟩ := ih x h
      exact ⟨a, .call x ha, hb⟩
  | await step next ih =>
    intro h
    cases h with
    | await x h =>
      obtain ⟨a, ha, hb⟩ := ih x h
      exact ⟨a, .await x ha, hb⟩
  | ask request next ih =>
    intro h
    cases h with
    | ask x h =>
      obtain ⟨a, ha, hb⟩ := ih x h
      exact ⟨a, .ask x ha, hb⟩
  | enqueue queue job next _ ih =>
    intro h
    cases h with
    | enqueue x hj h =>
      obtain ⟨a, ha, hb⟩ := ih x h
      exact ⟨a, .enqueue x hj ha, hb⟩

end Program

end WalletGate
