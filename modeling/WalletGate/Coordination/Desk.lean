import WalletGate.Coordination.Notice

/-!
# The approval desk

An approval request is **parked** at the desk until the user decides on it.  Whoever waits
for the decision has a requester number.  A decision takes the entry off the desk and leaves
a **verdict** for its requester; the requester finds the verdict when it next looks.

At most one entry is parked under an id: a second request with the id of a parked one takes
its place, and the first requester learns that its entry was dropped.  A requester that
stops waiting for whatever reason takes away the entry parked under its id.

Every parked request is announced.  A subscriber reads the announcements made since it came,
at its own pace; only the last 64 are kept, and one that fell behind is told how many it
missed.

* `Desk.parked_rejectAll` — rejecting all leaves nobody parked.
-/

namespace WalletGate

/-- What the user decided. -/
inductive Verdict where
  | accepted
  | rejected (reason : String)
  deriving DecidableEq, Repr

/-- An approval request on the desk. -/
structure Parked where
  request : ApprovalRequest
  requester : Nat
  deriving DecidableEq, Repr

/-- The approval desk. -/
structure Desk where
  /-- How many milliseconds a request may wait; none is for ever. -/
  limit : Option Nat
  /-- The requests nobody has decided on. -/
  parked : List Parked
  /-- How many requesters there ever were. -/
  requesters : Nat
  /-- The requesters that still wait. -/
  listening : List Nat
  /-- The decisions not yet noticed by their requesters. -/
  verdicts : List (Nat × Verdict)
  /-- Every request ever parked, newest first. -/
  announced : List ApprovalRequest
  deriving DecidableEq, Repr

namespace Desk

/-- A desk nobody has used. -/
def empty (limit : Option Nat) : Desk := ⟨limit, [], 0, [], [], []⟩

instance : Inhabited Desk := ⟨empty none⟩

/-- The desk of the queue's settings: the timeout is given in seconds. -/
def ofSettings (q : QueueSettings) : Desk :=
  empty (q.approvalTimeout.map fun n => n.toNat * 1000)

/-- The desk with this limit. -/
def withLimit (milliseconds : Nat) (d : Desk) : Desk :=
  { d with limit := some milliseconds }

/-- The entry parked under an id. -/
def find? (id : ApprovalId) (d : Desk) : Option Parked :=
  d.parked.find? fun p => p.request.id = id

/-- The desk without the entry parked under an id. -/
def remove (id : ApprovalId) (d : Desk) : Desk :=
  { d with parked := d.parked.filter fun p => p.request.id != id }

/-- Parks a request; gives the number of its requester. -/
def park (request : ApprovalRequest) (d : Desk) : Nat × Desk × Notice :=
  let key := d.requesters
  (key,
    { d.remove request.id with
      parked := (d.remove request.id).parked ++ [⟨request, key⟩]
      requesters := d.requesters + 1
      listening := key :: d.listening
      announced := request :: d.announced },
    .approvalRequested request.id request.origin request.proposal.toChain)

/-- Hands a verdict to a requester, if it still waits. -/
def deliver (requester : Nat) (verdict : Verdict) (d : Desk) : Desk :=
  if d.listening.contains requester then
    { d with verdicts := (requester, verdict) :: d.verdicts }
  else d

/-- The fault of a decision on an id that is not parked. -/
def notPending (id : ApprovalId) : Fault :=
  .approval ("no pending approval with id " ++ id.text)

/-- Decides on the request parked under an id. -/
def settle (id : ApprovalId) (verdict : Verdict) (d : Desk) : Except Fault (Desk × List Notice) :=
  match d.find? id with
  | none => .error (notPending id)
  | some p =>
    let left := d.remove id
    if left.listening.contains p.requester then .ok (left.deliver p.requester verdict, [])
    else .ok (left, [.settledLate id])

/-- The user accepts. -/
def accept (id : ApprovalId) (d : Desk) : Except Fault (Desk × List Notice) :=
  (d.settle id .accepted).map fun (d, notices) => (d, notices ++ [.approvalAccepted id])

/-- The user rejects, with a reason. -/
def reject (id : ApprovalId) (reason : String) (d : Desk) : Except Fault (Desk × List Notice) :=
  (d.settle id (.rejected reason)).map fun (d, notices) =>
    (d, notices ++ [.approvalRejected id reason])

/-- The user rejects everything parked; gives the number of requests rejected. -/
def rejectAll (reason : String) (d : Desk) : Nat × Desk × List Notice :=
  let count := d.parked.length
  let told := d.parked.foldl (fun d p => d.deliver p.requester (.rejected reason))
    { d with parked := [] }
  (count, told, if count = 0 then [] else [.allRejected count reason])

/-- The requests nobody has decided on, oldest first. -/
def pending (d : Desk) : List ApprovalRequest :=
  (d.parked.map Parked.request).mergeSort ApprovalRequest.precedes

/-- How a wait for a decision ends. -/
inductive Ending where
  | decided (verdict : Verdict)
  /-- The entry went away without a decision. -/
  | dropped
  | timedOut
  deriving DecidableEq, Repr

/-- What a requester finds that looks at the desk at a given time; none if it has to go on
waiting.  A verdict counts even when the deadline has passed. -/
def look (requester : Nat) (deadline : Option Nat) (now : Nat) (d : Desk) : Option Ending :=
  match d.verdicts.lookup requester with
  | some verdict => some (.decided verdict)
  | none =>
    if d.parked.any fun p => p.requester = requester then
      match deadline with
      | some t => if t ≤ now then some .timedOut else none
      | none => none
    else some .dropped

/-- A requester stops waiting: it takes away what is parked under its id. -/
def leave (requester : Nat) (id : ApprovalId) (d : Desk) : Desk × List Notice :=
  let left := d.remove id
  ({ left with
      listening := left.listening.filter (· != requester)
      verdicts := left.verdicts.filter fun v => v.1 != requester },
    if (d.find? id).isSome then [.approvalAbandoned id] else [])

/-- What a requester makes of the end of its wait, with the notice it leaves. -/
def conclude (request : ApprovalRequest) (d : Desk) : Ending → Except Fault Unit × List Notice
  | .decided .accepted => (.ok (), [])
  | .decided (.rejected reason) => (.error (.approvalDeclined reason), [])
  | .dropped =>
    (.error (.approval ("approval " ++ request.id.text ++ " was dropped without a decision")), [])
  | .timedOut =>
    let seconds := d.limit.getD 0 / 1000
    (.error (.timeout
        ("approval " ++ request.id.text ++ " not answered within " ++ toString seconds ++ "s")),
      [.approvalTimedOut request.id seconds])

/-- How many announcements are kept for subscribers. -/
def capacity : Nat := 64

/-- What a subscriber gets when it reads. -/
inductive Delivery where
  | request (r : ApprovalRequest)
  | nothing
  /-- So many announcements were missed. -/
  | lagged (missed : Nat)
  deriving DecidableEq, Repr

/-- Reads the announcement with number `next`; gives the number to go on with. -/
def receive (next : Nat) (d : Desk) : Delivery × Nat :=
  let total := d.announced.length
  if next + capacity < total then (.lagged (total - capacity - next), total - capacity)
  else
    match d.announced.reverse[next]? with
    | some r => (.request r, next + 1)
    | none => (.nothing, next)

/-- Delivering a verdict parks nobody. -/
@[simp] theorem parked_deliver (n : Nat) (v : Verdict) (d : Desk) :
    (d.deliver n v).parked = d.parked := by
  unfold deliver
  split <;> rfl

/-- Rejecting all leaves nobody parked. -/
theorem parked_rejectAll (reason : String) (d : Desk) : (d.rejectAll reason).2.1.parked = [] := by
  have aux : ∀ (ps : List Parked) (e : Desk), e.parked = [] →
      (ps.foldl (fun d p => d.deliver p.requester (.rejected reason)) e).parked = [] := by
    intro ps
    induction ps with
    | nil => intro e he; simpa using he
    | cons p rest ih => intro e he; exact ih _ (by simpa using he)
  exact aux d.parked _ rfl

end Desk

end WalletGate
