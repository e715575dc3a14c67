import WalletGate.Proofs.Move

/-!
# The rules of moves

`Thread.move` computes the next move of a thread.  Read as a relation it has one **rule**
for each kind of thread that can move (`Thread.Moves`), and what is shown of every rule is
shown of every move.

* `Thread.moves_of_move` — every move is made by one of the rules;
* `Thread.eq_fresh_of_ended` — a thread that has come to its end is a program at its end.
-/

namespace WalletGate

variable {η α : Type}

/-- The rules of moves. -/
inductive Thread.Moves (w : World η) : {α : Type} → Thread η α → Move η α → Prop
  /-- A question is answered at once. -/
  | call {α β : Type} (c : Call β) (next : β → Program η α) :
    Moves w (.fresh (.call c next)) ⟨none, .fresh (next (c.answer w).1), (c.answer w).2⟩
  /-- A step of the host is waited for. -/
  | await {α β : Type} (step : η → Option (β × η)) (next : β → Program η α) :
    Moves w (.fresh (.await step next)) ⟨none, .held step next, w⟩
  /-- A request is parked. -/
  | ask {α : Type} (request : ApprovalRequest) (next : Except Fault Unit → Program η α) :
    Moves w (.fresh (.ask request next))
      ⟨none, .asking (w.park request).1 (w.park request).2.1 request next, (w.park request).2.2⟩
  /-- A job comes and has to wait. -/
  | came {α β : Type} (queue : Nat) (place : Waiter) (job : Program η β) (next : β → Program η α)
    (taken : (w.enter queue).1 = some place) :
    Moves w (.fresh (.enqueue queue job next))
      ⟨some (queue, .came), .waiting queue place job next, (w.enter queue).2⟩
  /-- A job comes and starts at once. -/
  | cameIn {α β : Type} (queue : Nat) (job : Program η β) (next : β → Program η α)
    (free : (w.enter queue).1 = none) :
    Moves w (.fresh (.enqueue queue job next))
      ⟨some (queue, .cameIn), .holding queue (.fresh job) next, (w.enter queue).2⟩
  /-- The host takes the step. -/
  | hosted {α β : Type} (step : η → Option (β × η)) (next : β → Program η α) (b : β) (host : η)
    (taken : step w.host = some (b, host)) :
    Moves w (.held step next) ⟨none, .fresh (next b), { w with host := host }⟩
  /-- The wait for a decision is over. -/
  | concluded {α : Type} (requester : Nat) (deadline : Option Nat) (request : ApprovalRequest)
    (next : Except Fault Unit → Program η α) (ending : Desk.Ending)
    (found : w.look requester deadline = some ending) :
    Moves w (.asking requester deadline request next)
      ⟨none, .fresh (next (w.conclude requester request ending).1),
        (w.conclude requester request ending).2⟩
  /-- A job that waited starts. -/
  | began {α β : Type} (queue : Nat) (place : Waiter) (job : Program η β) (next : β → Program η α)
    (woken : (w.queues queue).isOver place = true) :
    Moves w (.waiting queue place job next)
      ⟨some (queue, .began), .holding queue (.fresh job) next, w.goOn queue place⟩
  /-- A job has come to its end. -/
  | finished {α β : Type} (queue : Nat) (b : β) (next : β → Program η α) :
    Moves w (.holding queue (.fresh (.done b)) next)
      ⟨some (queue, .ended), .fresh (next b), w.release queue⟩
  /-- A job has broken down. -/
  | panicked {α β : Type} (queue : Nat) (text : String) (next : β → Program η α) :
    Moves w (.holding queue (.fresh (.panic text)) next)
      ⟨some (queue, .ended), .fresh (.panic text), w.release queue⟩
  /-- The job inside a slot moves. -/
  | inside {α β : Type} (queue : Nat) {inner : Thread η β} {m : Move η β} (next : β → Program η α)
    (moves : Moves w inner m) :
    Moves w (.holding queue inner next) ⟨m.deed, .holding queue m.thread next, m.world⟩

namespace Thread

/-- A thread at its end is a program at its end. -/
theorem eq_fresh_of_ended {t : Thread η α} {e : TaskEnd α} (h : t.ended? = some e) :
    (∃ a, t = fresh (.done a) ∧ e = .finished a) ∨ ∃ text, t = fresh (.panic text) ∧
    e = .panicked text := by
  cases t with
  | fresh p =>
    cases p with
    | done a => exact .inl ⟨a, rfl, (Option.some.inj h).symm⟩
    | panic text => exact .inr ⟨text, rfl, (Option.some.inj h).symm⟩
    | call c next => simp [ended?] at h
    | await step next => simp [ended?] at h
    | ask request next => simp [ended?] at h
    | enqueue queue job next => simp [ended?] at h
  | held step next => simp [ended?] at h
  | asking requester deadline request next => simp [ended?] at h
  | waiting queue place job next => simp [ended?] at h
  | holding queue inner next => simp [ended?] at h

/-- **Every move is made by one of the rules.** -/
theorem moves_of_move {t : Thread η α} {w : World η} {m : Move η α} (h : t.move w = some m) :
    Moves w t m := by
  induction t with
  | fresh p =>
    cases p with
    | done a => simp [move, Program.move] at h
    | panic text => simp [move, Program.move] at h
    | call c next => exact Option.some.inj h ▸ .call c next
    | await step next => exact Option.some.inj h ▸ .await step next
    | ask request next => exact Option.some.inj h ▸ .ask request next
    | enqueue queue job next =>
      have came := fun place => Moves.came (w := w) queue place job next
      have cameIn := Moves.cameIn (w := w) queue job next
      rw [move, Program.move] at h
      rcases he : w.enter queue with ⟨_ | place, v⟩
      · simp only [he, Option.some.injEq] at h cameIn
        exact h ▸ cameIn trivial
      · simp only [he, Option.some.injEq] at h came
        exact h ▸ came place rfl
  | held step next =>
    obtain ⟨⟨b, host⟩, htaken, rfl⟩ := Option.map_eq_some_iff.1 h
    exact .hosted step next b host htaken
  | asking requester deadline request next =>
    obtain ⟨ending, hfound, rfl⟩ := Option.map_eq_some_iff.1 h
    exact .concluded requester deadline request next ending hfound
  | waiting queue place job next =>
    rw [move] at h
    split at h
    · next hover => exact Option.some.inj h ▸ .began queue place job next hover
    · simp at h
  | holding queue inner next ih =>
    rw [move] at h
    split at h
    · next b hb =>
      obtain ⟨a, rfl, heq⟩ | ⟨text, _, heq⟩ := eq_fresh_of_ended hb
      · obtain rfl := TaskEnd.finished.inj heq
        exact Option.some.inj h ▸ .finished queue b next
      · simp at heq
    · next text htext =>
      obtain ⟨a, _, heq⟩ | ⟨text', rfl, heq⟩ := eq_fresh_of_ended htext
      · simp at heq
      · obtain rfl := TaskEnd.panicked.inj heq
        exact Option.some.inj h ▸ .panicked queue text next
    · obtain ⟨m', hm, rfl⟩ := Option.map_eq_some_iff.1 h
      exact .inside queue next (ih hm)

end Thread

end WalletGate
