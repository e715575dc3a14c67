import WalletGate.Coordination.Program

/-!
# Threads: programs under way

A program runs until it ends, breaks down, or has to wait.  A **thread** is what is left of
it in between.  It waits in one of three ways: for the host, for the user's decision, or for
the slot of a queue; and it may do so while holding the slot of one queue or of several, one
inside the other.

A thread can also be **given up**.  Then what it holds is given back from the inside out:
first the request it parked at the desk or its place in a queue, then the slots around it.

* `Program.run` — runs a program as far as it goes;
* `Thread.resume` — goes on with a thread whose wait is over;
* `Thread.cancel` — gives a thread up;
* `Thread.resume_of_not_isReady` — a thread whose wait is not over stays as it is, and so
  does the world.
-/

namespace WalletGate

/-- What is left of a program that has to wait, or has not been started. -/
inductive Thread (η : Type) : Type → Type 1 where
  /-- Nothing has happened yet. -/
  | fresh {α : Type} (p : Program η α) : Thread η α
  /-- Waits for the host. -/
  | held {α β : Type} (step : η → Option (β × η)) (next : β → Program η α) : Thread η α
  /-- Waits for the user's decision. -/
  | asking {α : Type} (requester : Nat) (deadline : Option Nat) (request : ApprovalRequest)
    (next : Except Fault Unit → Program η α) : Thread η α
  /-- Waits for the slot of a queue. -/
  | waiting {α β : Type} (queue : Nat) (place : Waiter) (job : Program η β)
    (next : β → Program η α) :
    Thread η α
  /-- Holds the slot of a queue; the job inside waits. -/
  | holding {α β : Type} (queue : Nat) (inner : Thread η β) (next : β → Program η α) : Thread η α

/-- How far a program came. -/
inductive Outcome (η α : Type) : Type 1 where
  | finished (a : α)
  | panicked (text : String)
  | suspended (t : Thread η α)

variable {η α : Type}

/-- Runs a program until it ends, breaks down, or has to wait. -/
def Program.run {α : Type} : Program η α → World η → Outcome η α × World η
  | .done a, w => (.finished a, w)
  | .panic text, w => (.panicked text, w)
  | .call c next, w =>
    match c.answer w with
    | (b, w) => (next b).run w
  | .await step next, w =>
    match step w.host with
    | some (b, h) => (next b).run { w with host := h }
    | none => (.suspended (.held step next), w)
  | .ask request next, w =>
    match w.park request with
    | (requester, deadline, w) =>
      match w.look requester deadline with
      | none => (.suspended (.asking requester deadline request next), w)
      | some ending =>
        match w.conclude requester request ending with
        | (answer, w) => (next answer).run w
  | .enqueue queue job next, w =>
    match w.enter queue with
    | (some place, w) => (.suspended (.waiting queue place job next), w)
    | (none, w) =>
      match job.run w with
      | (.finished b, w) => (next b).run (w.release queue)
      | (.panicked text, w) => (.panicked text, w.release queue)
      | (.suspended t, w) => (.suspended (.holding queue t next), w)

/-- What follows a job that holds the slot of a queue: the slot is given up unless the job
has to wait. -/
def Outcome.behindSlot {β : Type} (queue : Nat) (next : β → Program η α) :
    Outcome η β × World η → Outcome η α × World η
  | (.finished b, w) => (next b).run (w.release queue)
  | (.panicked text, w) => (.panicked text, w.release queue)
  | (.suspended t, w) => (.suspended (.holding queue t next), w)

namespace Thread

/-- The wait of a thread is over, or it was never started. -/
def isReady {α : Type} : Thread η α → World η → Bool
  | fresh _, _ => true
  | held step _, w => (step w.host).isSome
  | asking requester deadline _ _, w => (w.look requester deadline).isSome
  | waiting queue place _ _, w => (w.queues queue).isOver place
  | holding _ inner _, w => inner.isReady w

/-- Goes on with a thread as far as it goes; one whose wait is not over stays as it is. -/
def resume {α : Type} : Thread η α → World η → Outcome η α × World η
  | fresh p, w => p.run w
  | held step next, w =>
    match step w.host with
    | some (b, h) => (next b).run { w with host := h }
    | none => (.suspended (held step next), w)
  | asking requester deadline request next, w =>
    match w.look requester deadline with
    | none => (.suspended (asking requester deadline request next), w)
    | some ending =>
      match w.conclude requester request ending with
      | (answer, w) => (next answer).run w
  | waiting queue place job next, w =>
    if (w.queues queue).isOver place then Outcome.behindSlot queue next
      (job.run (w.goOn queue place))
    else (.suspended (waiting queue place job next), w)
  | holding queue inner next, w => Outcome.behindSlot queue next (inner.resume w)

/-- Gives a thread up: what it holds is given back, from the inside out. -/
def cancel {α : Type} : Thread η α → World η → World η
  | fresh _, w => w
  | held _ _, w => w
  | asking requester _ request _, w => w.leave requester request.id
  | waiting queue place _ _, w => w.abandon queue place
  | holding queue inner _, w => (inner.cancel w).release queue

/-- A thread whose wait is not over stays as it is, and so does the world. -/
theorem resume_of_not_isReady {t : Thread η α} {w : World η} (h : t.isReady w = false) :
    t.resume w = (.suspended t, w) := by
  induction t with
  | fresh p => simp [isReady] at h
  | held step next =>
    have hs : step w.host = none := by simpa [isReady] using h
    simp [resume, hs]
  | asking requester deadline request next =>
    have hs : w.look requester deadline = none := by simpa [isReady] using h
    simp [resume, hs]
  | waiting queue place job next =>
    have hs : (w.queues queue).isOver place = false := h
    simp [resume, hs]
  | holding queue inner next ih =>
    have hs : inner.isReady w = false := h
    simp [resume, ih hs, Outcome.behindSlot]

end Thread

/-- A job that finds the slot free is run inside of it. -/
theorem Program.run_enqueue_of_free {β : Type} {queue : Nat} {job : Program η β}
    {next : β → Program η α} {w v : World η} (h : w.enter queue = (none, v)) :
    (Program.enqueue queue job next).run w = Outcome.behindSlot queue next (job.run v) := by
  rw [Program.run, h]
  dsimp only
  rcases job.run v with ⟨o, u⟩
  cases o <;> rfl

end WalletGate
