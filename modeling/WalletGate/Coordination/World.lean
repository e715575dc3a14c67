import WalletGate.Coordination.Desk
import WalletGate.Coordination.Queue
import WalletGate.Coordination.Registry

/-!
# The world a program runs in

The **world** is everything the wallet's programs share: a clock, the admission queues, the
approval desk, the registry of networks, the flag that turns queueing on, and the notices
left so far.  Next to it stands the **host**, the state of whatever embeds the wallet; its
type `η` is left open, and only steps the host supplies itself touch it.

Queues are told apart by number; one nobody has used is idle.
-/

namespace WalletGate

/-- Everything the programs of a wallet share. -/
structure World (η : Type) where
  /-- Milliseconds since the start. -/
  clock : Nat
  queues : Nat → Queue
  desk : Desk
  registry : Registry
  /-- Whether requests are queued at all. -/
  queueing : Bool
  /-- How many approval requests were drawn up. -/
  drafts : Nat
  /-- The notices left, newest first. -/
  notices : List Notice
  host : η

namespace World

variable {η : Type}

/-- A world in which nothing has happened. -/
def start (host : η) : World η :=
  ⟨0, fun _ => Queue.idle, Desk.empty none, Registry.initial, true, 0, [], host⟩

/-- Leaves a notice. -/
def note (n : Notice) (w : World η) : World η :=
  { w with notices := n :: w.notices }

/-- Leaves notices, the first one first. -/
def noteAll (ns : List Notice) (w : World η) : World η :=
  { w with notices := ns.reverse ++ w.notices }

/-- The notices left so far, oldest first, are taken away. -/
def takeNotices (w : World η) : List Notice × World η :=
  (w.notices.reverse, { w with notices := [] })

/-- Replaces a queue. -/
def setQueue (key : Nat) (q : Queue) (w : World η) : World η :=
  { w with queues := Registry.update w.queues key q }

/-- Time passes. -/
def advance (milliseconds : Nat) (w : World η) : World η :=
  { w with clock := w.clock + milliseconds }

/-- The present moment. -/
def now (w : World η) : Instant :=
  ⟨w.clock / 1000, w.clock % 1000 * 1000000⟩

/-- Does something with the registry: what cannot be done changes nothing. -/
def onRegistry (act : Registry → Except Fault (Registry × Notice)) (w : World η) :
    Except Fault Unit × World η :=
  match act w.registry with
  | .ok (r, n) => (.ok (), note n { w with registry := r })
  | .error fault => (.error fault, w)

/-- Does something with the desk: what cannot be done changes nothing. -/
def onDesk (act : Desk → Except Fault (Desk × List Notice)) (w : World η) :
    Except Fault Unit × World η :=
  match act w.desk with
  | .ok (d, ns) => (.ok (), noteAll ns { w with desk := d })
  | .error fault => (.error fault, w)

/-- The user rejects everything parked. -/
def rejectAll (reason : String) (w : World η) : Nat × World η :=
  let (count, d, ns) := w.desk.rejectAll reason
  (count, noteAll ns { w with desk := d })

/-- Draws up an approval request with an id of its own. -/
def draft (origin : Origin) (fromChain toChain : ChainId) (client : ClientId) (w : World η) :
    ApprovalRequest × World η :=
  (.switchChain (.fresh w.drafts) w.now origin fromChain toChain client,
    { w with drafts := w.drafts + 1 })

/-- A job comes to a queue. -/
def enter (key : Nat) (w : World η) : Option Waiter × World η :=
  let (place, q, n) := (w.queues key).enter
  (place, note n (w.setQueue key q))

/-- A job whose wait is over goes on. -/
def goOn (key : Nat) (place : Waiter) (w : World η) : World η :=
  let (q, n) := (w.queues key).goOn place
  note n (w.setQueue key q)

/-- A job gives the slot up. -/
def release (key : Nat) (w : World η) : World η :=
  let (q, ns) := (w.queues key).release
  noteAll ns (w.setQueue key q)

/-- A waiting job gives up. -/
def abandon (key : Nat) (place : Waiter) (w : World η) : World η :=
  let (q, ns) := (w.queues key).abandon place
  noteAll ns (w.setQueue key q)

/-- A request is parked at the desk; gives its requester and the moment its wait is over. -/
def park (request : ApprovalRequest) (w : World η) : Nat × Option Nat × World η :=
  let (requester, d, n) := w.desk.park request
  (requester, w.desk.limit.map (w.clock + ·), note n { w with desk := d })

/-- What a requester finds at the desk now. -/
def look (requester : Nat) (deadline : Option Nat) (w : World η) : Option Desk.Ending :=
  w.desk.look requester deadline w.clock

/-- A requester stops waiting. -/
def leave (requester : Nat) (id : ApprovalId) (w : World η) : World η :=
  let (d, ns) := w.desk.leave requester id
  noteAll ns { w with desk := d }

/-- A requester's wait ends: it takes its answer and leaves. -/
def conclude (requester : Nat) (request : ApprovalRequest) (ending : Desk.Ending) (w : World η) :
    Except Fault Unit × World η :=
  let (answer, ns) := w.desk.conclude request ending
  (answer, (noteAll ns w).leave requester request.id)

end World

end WalletGate
