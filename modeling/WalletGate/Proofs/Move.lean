import WalletGate.Coordination.Crew
import Mathlib.Logic.Relation

/-!
# Moves: threads one step at a time

`Program.run` and `Thread.resume` go as far as they can in one go.  Several threads in one
world may be interleaved more finely than that: between any two questions to the world
another thread may act.  A **move** is the smallest thing a thread does — it asks one
question, parks one request, takes or leaves one place in a queue.  What is shown of all
interleavings of moves is shown of every moment inside a `resume`.

A move says what it did to the slot of a queue, if anything (`Deed`).

* `Thread.reaches_resume` — resuming a thread is a sequence of moves;
* `Thread.move_bind` — a thread that goes on with something moves as it would alone;
* `Thread.becomes_of_move`, `Thread.becomes_cancel` — what a move, and giving a thread up,
  can do to the world.
-/

namespace WalletGate

variable {η α β : Type}

/-- What a move does to the slot of a queue. -/
inductive Deed where
  /-- A job comes and has to wait. -/
  | came
  /-- A job comes and starts at once. -/
  | cameIn
  /-- A job that waited starts. -/
  | began
  /-- A job ends, well or not, and the slot is given up. -/
  | ended
  deriving DecidableEq, Repr

/-- What a move did to a queue, and the thread and the world behind it. -/
structure Move (η α : Type) : Type 1 where
  deed : Option (Nat × Deed)
  thread : Thread η α
  world : World η

/-- The first move of a program that has not come to its end. -/
def Program.move {α : Type} : Program η α → World η → Option (Move η α)
  | .done _, _ => none
  | .panic _, _ => none
  | .call c next, w => some ⟨none, .fresh (next (c.answer w).1), (c.answer w).2⟩
  | .await step next, w => some ⟨none, .held step next, w⟩
  | .ask request next, w =>
    match w.park request with
    | (requester, deadline, w) => some ⟨none, .asking requester deadline request next, w⟩
  | .enqueue queue job next, w =>
    match w.enter queue with
    | (some place, w) => some ⟨some (queue, .came), .waiting queue place job next, w⟩
    | (none, w) => some ⟨some (queue, .cameIn), .holding queue (.fresh job) next, w⟩

namespace Thread

/-- The end a thread has come to, if it has. -/
def ended? {α : Type} : Thread η α → Option (TaskEnd α)
  | fresh (.done a) => some (.finished a)
  | fresh (.panic text) => some (.panicked text)
  | _ => none

/-- The next move of a thread; none if it has to wait or has come to its end. -/
def move {α : Type} : Thread η α → World η → Option (Move η α)
  | fresh p, w => p.move w
  | held step next, w => (step w.host).map fun x => ⟨none, fresh (next x.1), { w with host := x.2 }⟩
  | asking requester deadline request next, w =>
    (w.look requester deadline).map fun ending =>
      ⟨none, fresh (next (w.conclude requester request ending).1),
        (w.conclude requester request ending).2⟩
  | waiting queue place job next, w =>
    if (w.queues queue).isOver place then
      some ⟨some (queue, .began), holding queue (fresh job) next, w.goOn queue place⟩
    else none
  | holding queue inner next, w =>
    match inner.ended? with
    | some (.finished b) => some ⟨some (queue, .ended), fresh (next b), w.release queue⟩
    | some (.panicked text) => some ⟨some (queue, .ended), fresh (.panic text), w.release queue⟩
    | none => (inner.move w).map fun m => ⟨m.deed, holding queue m.thread next, m.world⟩

/-- A thread after its next move, if it has one. -/
def after {α : Type} (t : Thread η α) (w : World η) : Thread η α :=
  match t.move w with
  | some m => m.thread
  | none => t

/-- Goes on with another program when the thread has come to its end. -/
def bind {α : Type} : Thread η α → (α → Program η β) → Thread η β
  | fresh p, f => fresh (p.bind f)
  | held step next, f => held step fun b => (next b).bind f
  | asking requester deadline request next, f =>
    asking requester deadline request fun answer => (next answer).bind f
  | waiting queue place job next, f => waiting queue place job fun b => (next b).bind f
  | holding queue inner next, f => holding queue inner fun b => (next b).bind f

/-- A thread that has come to its end moves no more. -/
theorem move_of_ended {t : Thread η α} {w : World η} {e : TaskEnd α} (h : t.ended? = some e) :
    t.move w = none := by
  cases t with
  | fresh p => cases p <;> simp_all [ended?, move, Program.move]
  | held step next => simp [ended?] at h
  | asking requester deadline request next => simp [ended?] at h
  | waiting queue place job next => simp [ended?] at h
  | holding queue inner next => simp [ended?] at h

/-- A thread that moves has not come to its end. -/
theorem ended?_of_move {t : Thread η α} {w : World η} {m : Move η α} (h : t.move w = some m) :
    t.ended? = none := by
  cases he : t.ended? with
  | none => rfl
  | some e => simp [move_of_ended he] at h

/-- A thread that goes on with something has not come to its end before it got there. -/
theorem ended?_bind {t : Thread η α} (f : α → Program η β) (h : t.ended? = none) :
    (t.bind f).ended? = none := by
  cases t with
  | fresh p => cases p <;> simp_all [ended?, bind, Program.bind]
  | held step next => rfl
  | asking requester deadline request next => rfl
  | waiting queue place job next => rfl
  | holding queue inner next => rfl

/-- A thread that goes on with something moves as it would alone. -/
theorem move_bind {t : Thread η α} (f : α → Program η β) (w : World η) (h : t.ended? = none) :
    (t.bind f).move w = (t.move w).map fun m => ⟨m.deed, m.thread.bind f, m.world⟩ := by
  cases t with
  | fresh p =>
    cases p with
    | done a => simp [ended?] at h
    | panic text => simp [ended?] at h
    | call c next => rfl
    | await step next => rfl
    | ask request next => rfl
    | enqueue queue job next =>
      simp only [bind, Program.bind, move, Program.move]
      rcases w.enter queue with ⟨_ | place, v⟩ <;> rfl
  | held step next => simp only [bind, move, Option.map_map]; rfl
  | asking requester deadline request next => simp only [bind, move, Option.map_map]; rfl
  | waiting queue place job next =>
    simp only [bind, move]
    split <;> rfl
  | holding queue inner next =>
    simp only [bind, move]
    rcases inner.ended? with _ | _ | _
    · simp only [Option.map_map]; rfl
    · rfl
    · rfl

/-- One thread and world comes from another by moves. -/
def Reaches {α : Type} : Thread η α × World η → Thread η α × World η → Prop :=
  Relation.ReflTransGen fun x y => ∃ deed, x.1.move x.2 = some ⟨deed, y.1, y.2⟩

/-- A first move goes in front of others. -/
theorem Reaches.head {t s : Thread η α} {w v : World η} {d : Option (Nat × Deed)}
    {y : Thread η α × World η} (hmove : t.move w = some ⟨d, s, v⟩) (h : Reaches (s, v) y) :
    Reaches (t, w) y :=
  Relation.ReflTransGen.head ⟨d, hmove⟩ h

/-- The job inside a slot moves as it would alone. -/
theorem Reaches.holding (queue : Nat) (next : β → Program η α) {t s : Thread η β} {w v : World η}
    (h : Reaches (t, w) (s, v)) :
    Reaches (Thread.holding queue t next, w) (Thread.holding queue s next, v) := by
  have lift : ∀ x y : Thread η β × World η, (∃ deed, x.1.move x.2 = some ⟨deed, y.1, y.2⟩) →
      ∃ deed, (Thread.holding queue x.1 next).move x.2
        = some ⟨deed, Thread.holding queue y.1 next, y.2⟩ := by
    rintro x y ⟨deed, hmove⟩
    exact ⟨deed, by simp [Thread.move, ended?_of_move hmove, hmove]⟩
  exact Relation.ReflTransGen.lift
    (fun x : Thread η β × World η => (Thread.holding queue x.1 next, x.2)) lift
    _ _ h

end Thread

/-- An outcome as a thread: one that ended stands at its end. -/
def Outcome.thread {α : Type} : Outcome η α → Thread η α
  | .finished a => .fresh (.done a)
  | .panicked text => .fresh (.panic text)
  | .suspended t => t

/-- What follows a job that holds a slot is reached once the outcome of the job is. -/
theorem Outcome.reaches_behindSlot (queue : Nat) {next : β → Program η α}
    (hnext : ∀ b w,
      Thread.Reaches (.fresh (next b), w) (((next b).run w).1.thread, ((next b).run w).2))
    {t : Thread η β} {w : World η} {o : Outcome η β × World η}
    (h : Thread.Reaches (t, w) (o.1.thread, o.2)) :
    Thread.Reaches (.holding queue t next, w)
      ((behindSlot queue next o).1.thread, (behindSlot queue next o).2) := by
  have inside := h.holding queue next
  obtain ⟨o, v⟩ := o
  cases o with
  | finished b =>
    refine inside.trans (Thread.Reaches.head (d := some (queue, .ended)) ?_ (hnext b _))
    simp [Outcome.thread, Thread.move, Thread.ended?]
  | panicked text =>
    refine inside.trans (Thread.Reaches.head (d := some (queue, .ended)) ?_ .refl)
    rfl
  | suspended s => exact inside

/-- Running a program is a sequence of moves. -/
theorem Program.reaches_run (p : Program η α) (w : World η) :
    Thread.Reaches (.fresh p, w) ((p.run w).1.thread, (p.run w).2) := by
  induction p generalizing w with
  | done a => exact .refl
  | panic text => exact .refl
  | call c next ih => exact .head rfl (ih _ _)
  | await step next ih =>
    refine .head rfl ?_
    rw [Program.run]
    cases hs : step w.host with
    | none => exact .refl
    | some x => exact .head (d := none) (by rw [Thread.move, hs]; rfl) (ih _ _)
  | ask request next ih =>
    refine .head rfl ?_
    rw [Program.run]
    dsimp only
    cases hl : (w.park request).2.2.look (w.park request).1 (w.park request).2.1 with
    | none => exact .refl
    | some ending =>
      exact .head (d := none) (by simp only [Thread.move]; exact congrArg (Option.map _) hl)
        (ih _ _)
  | enqueue queue job next ihj ihn =>
    rcases he : w.enter queue with ⟨_ | place, v⟩
    · rw [Program.run_enqueue_of_free he]
      refine .head (d := some (queue, .cameIn)) ?_ (Outcome.reaches_behindSlot queue ihn (ihj v))
      simp [Thread.move, Program.move, he]
    · refine .head (d := some (queue, .came)) (s := .waiting queue place job next) (v := v) ?_ ?_
      · simp [Thread.move, Program.move, he]
      · rw [Program.run, he]
        exact .refl

/-- Resuming a thread is a sequence of moves. -/
theorem Thread.reaches_resume (t : Thread η α) (w : World η) :
    Reaches (t, w) ((t.resume w).1.thread, (t.resume w).2) := by
  induction t generalizing w with
  | fresh p => exact p.reaches_run w
  | held step next =>
    rw [resume]
    cases hs : step w.host with
    | none => exact .refl
    | some x => exact .head (d := none) (by rw [move, hs]; rfl) ((next _).reaches_run _)
  | asking requester deadline request next =>
    rw [resume]
    cases hl : w.look requester deadline with
    | none => exact .refl
    | some ending => exact .head (d := none) (by rw [move, hl]; rfl) ((next _).reaches_run _)
  | waiting queue place job next =>
    rw [resume]
    split
    · next hover =>
      refine .head (d := some (queue, .began)) ?_
        (Outcome.reaches_behindSlot queue (fun b => (next b).reaches_run) (job.reaches_run _))
      simp [move, hover]
    · exact .refl
  | holding queue inner next ih =>
    exact Outcome.reaches_behindSlot queue (fun b => (next b).reaches_run) (ih w)

/-- The world after one thing a thread did, whatever the thread. -/
inductive World.Becomes (w : World η) : World η → Prop
  | same : Becomes w w
  | called {β : Type} (c : Call β) : Becomes w (c.answer w).2
  | hosted (host : η) : Becomes w { w with host := host }
  | parked (request : ApprovalRequest) : Becomes w (w.park request).2.2
  | concluded (requester : Nat) (request : ApprovalRequest) (ending : Desk.Ending) :
    Becomes w (w.conclude requester request ending).2
  | left (requester : Nat) (id : ApprovalId) : Becomes w (w.leave requester id)
  | entered (queue : Nat) : Becomes w (w.enter queue).2
  | wentOn (queue : Nat) (place : Waiter) : Becomes w (w.goOn queue place)
  | released (queue : Nat) : Becomes w (w.release queue)
  | abandoned (queue : Nat) (place : Waiter) : Becomes w (w.abandon queue place)

/-- A move does one thing to the world. -/
theorem Thread.becomes_of_move {t : Thread η α} {w : World η} {m : Move η α}
    (h : t.move w = some m) :
    w.Becomes m.world := by
  induction t with
  | fresh p =>
    cases p with
    | done a => simp [move, Program.move] at h
    | panic text => simp [move, Program.move] at h
    | call c next =>
      simp only [move, Program.move, Option.some.injEq] at h
      exact h ▸ .called c
    | await step next =>
      simp only [move, Program.move, Option.some.injEq] at h
      exact h ▸ .same
    | ask request next =>
      simp only [move, Program.move, Option.some.injEq] at h
      exact h ▸ .parked request
    | enqueue queue job next =>
      have entered := World.Becomes.entered (w := w) queue
      simp only [move, Program.move] at h
      rcases he : w.enter queue with ⟨_ | place, v⟩ <;> rw [he] at h entered <;>
        simp only [Option.some.injEq] at h <;> exact h ▸ entered
  | held step next =>
    obtain ⟨x, _, rfl⟩ := Option.map_eq_some_iff.1 h
    exact .hosted x.2
  | asking requester deadline request next =>
    obtain ⟨ending, _, rfl⟩ := Option.map_eq_some_iff.1 h
    exact .concluded requester request ending
  | waiting queue place job next =>
    rw [move] at h
    split at h
    · exact Option.some.inj h ▸ .wentOn queue place
    · simp at h
  | holding queue inner next ih =>
    rw [move] at h
    split at h
    · exact Option.some.inj h ▸ .released queue
    · exact Option.some.inj h ▸ .released queue
    · obtain ⟨m', hm, rfl⟩ := Option.map_eq_some_iff.1 h
      exact ih hm

/-- Giving a thread up does one thing to the world after another. -/
theorem Thread.becomes_cancel (t : Thread η α) (w : World η) :
    Relation.ReflTransGen World.Becomes w (t.cancel w) := by
  induction t with
  | fresh p => exact .refl
  | held step next => exact .refl
  | asking requester deadline request next => exact .single (.left requester request.id)
  | waiting queue place job next => exact .single (.abandoned queue place)
  | holding queue inner next ih => exact ih.tail (.released queue)

end WalletGate
