import WalletGate.Coordination.Notice

/-!
# The admission queue

One job at a time holds the **slot**; the others wait in the order in which they came.  A
job that finds the slot free takes it at once.  Otherwise it leaves a **waiter** behind, a
ticket together with the number of the signal that will wake it, and goes to sleep.

Whoever gives the slot up hands it to the oldest waiter whose job still listens: the waiter
is taken off the queue and its signal is sent.  The queue stays active all along, so nobody
who comes in between can take the slot.  A job that gives up while waiting takes its own
waiter away; one that gives up after its signal was sent passes the slot on.

Each change of the queue's length is published.

* `Queue.length_enter` — a job that comes makes the queue longer by one.
-/

namespace WalletGate

/-- A place in the queue. -/
structure Waiter where
  ticket : UInt64
  /-- The number of the signal that hands over the slot. -/
  signal : Nat
  deriving DecidableEq, Repr, Inhabited

/-- The admission queue. -/
structure Queue where
  /-- A job holds the slot or is about to go on with it. -/
  active : Bool
  nextTicket : UInt64
  /-- The jobs that wait, oldest first. -/
  waiting : List Waiter
  /-- How many signals were ever made. -/
  signals : Nat
  /-- The signals somebody still waits for. -/
  listening : List Nat
  /-- The signals that were sent and not yet noticed. -/
  sent : List Nat
  /-- The length last published. -/
  published : Nat
  /-- How often a length was published. -/
  publications : Nat
  deriving DecidableEq, Repr

namespace Queue

/-- A queue nobody has used. -/
def idle : Queue := ⟨false, 0, [], 0, [], [], 0, 0⟩

instance : Inhabited Queue := ⟨idle⟩

/-- The number of jobs in the queue, with the one that holds the slot. -/
def length (q : Queue) : Nat :=
  q.waiting.length + (if q.active then 1 else 0)

/-- Publishes the length. -/
def publish (q : Queue) : Queue :=
  { q with published := q.length, publications := q.publications + 1 }

/-- A job comes: it takes the slot, or a place at the end. -/
def enter (q : Queue) : Option Waiter × Queue × Notice :=
  if q.active then
    let w : Waiter := ⟨q.nextTicket, q.signals⟩
    let waiting := q.waiting ++ [w]
    (some w,
      publish { q with
        nextTicket := q.nextTicket + 1
        waiting := waiting
        signals := q.signals + 1
        listening := q.signals :: q.listening },
      .jobWaiting w.ticket waiting.length)
  else (none, publish { q with active := true }, .jobAdmittedToIdleQueue)

/-- The wait of a job is over: its waiter is no longer in the queue. -/
def isOver (q : Queue) (w : Waiter) : Bool :=
  !(q.waiting.any fun other => other.signal = w.signal)

/-- Nobody waits for a signal any more. -/
def silence (signal : Nat) (q : Queue) : Queue :=
  { q with
    listening := q.listening.filter (· != signal)
    sent := q.sent.filter (· != signal) }

/-- A job whose wait is over goes on. -/
def goOn (w : Waiter) (q : Queue) : Queue × Notice :=
  (q.silence w.signal, .jobAdmitted w.ticket)

/-- The oldest waiter that still listens and those behind it; the ones in front are gone. -/
def oldest? (listening : List Nat) : List Waiter → Option (Waiter × List Waiter)
  | [] => none
  | w :: rest => if listening.contains w.signal then some (w, rest) else oldest? listening rest

/-- The slot is given up: it goes to the oldest waiter, or nobody holds it. -/
def release (q : Queue) : Queue × List Notice :=
  match oldest? q.listening q.waiting with
  | some (w, rest) => (publish { q with waiting := rest, sent := w.signal :: q.sent }, [])
  | none => (publish { q with waiting := [], active := false }, [.queueIdle])

/-- A waiting job gives up. -/
def abandon (w : Waiter) (q : Queue) : Queue × List Notice :=
  if q.waiting.any fun other => other.ticket = w.ticket then
    let left := publish { q with waiting := q.waiting.eraseP fun other => other.ticket = w.ticket }
    (left.silence w.signal, [.jobAbandoned w.ticket])
  else if q.sent.contains w.signal then
    let (q, notices) := q.release
    (q.silence w.signal, .admittedJobDropped w.ticket :: notices)
  else (q.silence w.signal, [])

/-- A job that comes makes the queue longer by one. -/
theorem length_enter (q : Queue) : q.enter.2.1.length = q.length + 1 := by
  unfold enter
  by_cases h : q.active = true
  · simp [h, length, publish]
  · simp only [Bool.not_eq_true] at h
    simp [h, length, publish]

end Queue

end WalletGate
