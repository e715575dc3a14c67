import Mathlib.Data.List.Forall2
import WalletGate.Pipeline
import WalletGate.Proofs.Polls

/-!
# What a program sees of the world

Nothing in a wallet looks at the notices that were left, and a queue can be seen only by its
length and by taking a place in it.  So a program that **keeps to** some of the queues
cannot tell two worlds apart that are **alike** but for the notices and the other queues: in
both it ends in the same way or waits for the same thing, and leaves them alike.

All programs keep to all queues; there is no condition then, and worlds that are alike
differ in their notices only.

* `Program.KeepsTo`, `Handler.KeepsTo` — the queues a program, or a handler, touches or
  looks at;
* `Call.answer_alike` — one question to the world;
* `Program.alike_run`, `Thread.alike_resume` — one poll;
* `Outcome.Alike.polled` — any number of polls.
-/

namespace WalletGate

variable {η α β : Type} {sees : Nat → Prop}

/-! ### Worlds that are alike -/

/-- Two worlds are alike to whoever sees only some of the queues: these are the same, and
all the rest is, but for the notices. -/
structure World.Alike (sees : Nat → Prop) (w v : World η) : Prop where
  queues : ∀ queue, sees queue → v.queues queue = w.queues queue
  rest : v = { w with queues := v.queues, notices := v.notices }

namespace World.Alike

variable {w v : World η}

theorem refl (w : World η) : w.Alike sees w := ⟨fun _ _ => rfl, rfl⟩

/-- Who sees less finds more worlds alike. -/
theorem mono {less : Nat → Prop} (hless : ∀ queue, less queue → sees queue) (h : w.Alike sees v) :
    w.Alike less v :=
  ⟨fun queue hsees => h.queues queue (hless queue hsees), h.rest⟩

theorem trans {u : World η} (h : w.Alike sees v) (h' : v.Alike sees u) : w.Alike sees u where
  queues queue hsees := (h'.queues queue hsees).trans (h.queues queue hsees)
  rest := by
    rw [h'.rest, h.rest]

theorem symm (h : w.Alike sees v) : v.Alike sees w where
  queues queue hsees := (h.queues queue hsees).symm
  rest := by
    rw [h.rest]

theorem host (h : w.Alike sees v) : v.host = w.host := by
  rw [h.rest]

theorem registry (h : w.Alike sees v) : v.registry = w.registry := by
  rw [h.rest]

theorem queueing (h : w.Alike sees v) : v.queueing = w.queueing := by
  rw [h.rest]

/-- Notices are not seen. -/
theorem note (n n' : Notice) (h : w.Alike sees v) : (w.note n).Alike sees (v.note n') where
  queues := h.queues
  rest := by
    rw [h.rest]
    rfl

theorem noteAll (ns ns' : List Notice) (h : w.Alike sees v) :
    (w.noteAll ns).Alike sees (v.noteAll ns') where
  queues := h.queues
  rest := by
    rw [h.rest]
    rfl

/-- The same is done to a queue that is seen, and anything to one that is not. -/
theorem setQueue {queue : Nat} {q q' : Queue} (hq : sees queue → q' = q) (h : w.Alike sees v) :
    (w.setQueue queue q).Alike sees (v.setQueue queue q') where
  queues other hsees := by
    unfold World.setQueue Registry.update
    dsimp only
    split
    · next heq => exact hq (heq ▸ hsees)
    · exact h.queues other hsees
  rest := by
    rw [h.rest]
    rfl

/-- What is done with the registry is done in both worlds. -/
theorem onRegistry (act : Registry → Except Fault (Registry × Notice)) (h : w.Alike sees v) :
    (v.onRegistry act).1 = (w.onRegistry act).1 ∧
    (w.onRegistry act).2.Alike sees (v.onRegistry act).2 := by
  unfold World.onRegistry
  rw [h.registry]
  cases act w.registry with
  | error fault => exact ⟨rfl, h⟩
  | ok done =>
    refine ⟨rfl, note _ _ ⟨h.queues, ?_⟩⟩
    rw [h.rest]

/-- A request is parked in both worlds, by the same requester and until the same moment. -/
theorem park (request : ApprovalRequest) (h : w.Alike sees v) :
    (v.park request).1 = (w.park request).1 ∧ (v.park request).2.1 = (w.park request).2.1 ∧
      (w.park request).2.2.Alike sees (v.park request).2.2 := by
  rw [h.rest]
  exact ⟨rfl, rfl, h.queues, rfl⟩

theorem look (requester : Nat) (deadline : Option Nat) (h : w.Alike sees v) :
    v.look requester deadline = w.look requester deadline := by
  rw [h.rest]
  rfl

/-- The same decision is taken from the desk. -/
theorem conclude (requester : Nat) (request : ApprovalRequest) (ending : Desk.Ending)
    (h : w.Alike sees v) :
    (v.conclude requester request ending).1 = (w.conclude requester request ending).1 ∧
      (w.conclude requester request ending).2.Alike sees
      (v.conclude requester request ending).2 := by
  rw [h.rest]
  exact ⟨rfl, h.queues, rfl⟩

/-- A step of the host is taken in both worlds. -/
theorem withHost (host : η) (h : w.Alike sees v) :
    World.Alike sees { w with host := host } { v with host := host } := by
  refine ⟨h.queues, ?_⟩
  rw [h.rest]

/-- A job finds the same place in a queue that is seen. -/
theorem enter {queue : Nat} (hsees : sees queue) (h : w.Alike sees v) :
    (v.enter queue).1 = (w.enter queue).1 ∧ (w.enter queue).2.Alike sees (v.enter queue).2 := by
  have hqueue := h.queues queue hsees
  unfold World.enter
  rw [hqueue]
  exact ⟨rfl, note _ _ (setQueue (fun _ => rfl) h)⟩

theorem goOn (queue : Nat) (place : Waiter) (h : w.Alike sees v) :
    (w.goOn queue place).Alike sees (v.goOn queue place) := by
  unfold World.goOn
  refine note _ _ (setQueue (fun hsees => ?_) h)
  rw [h.queues queue hsees]

/-- The slot is given up in both worlds. -/
theorem release (queue : Nat) (h : w.Alike sees v) :
    (w.release queue).Alike sees (v.release queue) := by
  unfold World.release
  refine noteAll _ _ (setQueue (fun hsees => ?_) h)
  rw [h.queues queue hsees]

end World.Alike

namespace World

/-- What is done to a queue is not seen by whoever does not see that queue. -/
theorem alike_setQueue (queue : Nat) (q : Queue) (w : World η) :
    w.Alike (· ≠ queue) (w.setQueue queue q) :=
  ⟨fun _ hne => if_neg hne, rfl⟩

theorem alike_note (n : Notice) (w : World η) : w.Alike sees (w.note n) := ⟨fun _ _ => rfl, rfl⟩

theorem alike_enter (queue : Nat) (w : World η) : w.Alike (· ≠ queue) (w.enter queue).2 :=
  (w.alike_setQueue queue _).trans (alike_note _ _)

theorem alike_goOn (queue : Nat) (place : Waiter) (w : World η) :
    w.Alike (· ≠ queue) (w.goOn queue place) :=
  (w.alike_setQueue queue _).trans (alike_note _ _)

theorem alike_release (queue : Nat) (w : World η) : w.Alike (· ≠ queue) (w.release queue) :=
  (w.alike_setQueue queue _).trans ⟨fun _ _ => rfl, rfl⟩

end World

/-! ### Programs that keep to some of the queues -/

/-- A question about a queue is about one of these. -/
def Call.KeepsTo (sees : Nat → Prop) {β : Type} : Call β → Prop
  | queueLength queue => sees queue
  | _ => True

/-- The program touches no queues but these, and looks at no others. -/
def Program.KeepsTo (sees : Nat → Prop) {α : Type} : Program η α → Prop
  | done _ => True
  | panic _ => True
  | call c next => c.KeepsTo sees ∧ ∀ b, (next b).KeepsTo sees
  | await _ next => ∀ b, (next b).KeepsTo sees
  | ask _ next => ∀ answer, (next answer).KeepsTo sees
  | enqueue queue job next => sees queue ∧ job.KeepsTo sees ∧ ∀ b, (next b).KeepsTo sees

/-- What is left of a program touches no queues but these, and looks at no others. -/
def Thread.KeepsTo (sees : Nat → Prop) {α : Type} : Thread η α → Prop
  | fresh p => p.KeepsTo sees
  | held _ next => ∀ b, (next b).KeepsTo sees
  | asking _ _ _ next => ∀ answer, (next answer).KeepsTo sees
  | waiting queue _ job next => sees queue ∧ job.KeepsTo sees ∧ ∀ b, (next b).KeepsTo sees
  | holding queue inner next => sees queue ∧ inner.KeepsTo sees ∧ ∀ b, (next b).KeepsTo sees

/-- Programs that keep to these queues do so one after the other. -/
theorem Program.keepsTo_bind {p : Program η α} {f : α → Program η β} (hp : p.KeepsTo sees)
    (hf : ∀ a, (f a).KeepsTo sees) : (p.bind f).KeepsTo sees := by
  induction p with
  | done a => exact hf a
  | panic text => trivial
  | call c next ih => exact ⟨hp.1, fun b => ih b (hp.2 b) hf⟩
  | await step next ih => exact fun b => ih b (hp b) hf
  | ask request next ih => exact fun answer => ih answer (hp answer) hf
  | enqueue queue job next _ ih => exact ⟨hp.1, hp.2.1, fun b => ih b (hp.2.2 b) hf⟩

/-- The handler keeps to these queues if what is behind it does. -/
def Handler.KeepsTo (sees : Nat → Prop) (handler : Handler η) : Prop :=
  ∀ request response rest, (∀ q s, (rest q s : Program η Turn).KeepsTo sees) →
    (handler request response rest).KeepsTo sees

/-- Handlers that keep to these queues do so together. -/
theorem Pipeline.keepsTo_dispatch {handlers : List (Handler η)}
    (h : ∀ handler ∈ handlers, handler.KeepsTo sees) (request : Request) (response : Response) :
    (dispatch handlers request response).KeepsTo sees := by
  induction handlers generalizing request response with
  | nil => trivial
  | cons handler rest ih =>
    exact h handler List.mem_cons_self request response _
      (ih fun other hmem => h other (List.mem_cons_of_mem handler hmem))

/-- All programs keep to all queues. -/
theorem Program.keepsTo_all (p : Program η α) : p.KeepsTo fun _ => True := by
  induction p with
  | done a => trivial
  | panic text => trivial
  | call c next ih => exact ⟨by cases c <;> trivial, ih⟩
  | await step next ih => exact ih
  | ask request next ih => exact ih
  | enqueue queue job next ihj ih => exact ⟨trivial, ihj, ih⟩

/-- So do all handlers. -/
theorem Handler.keepsTo_all (handler : Handler η) : Handler.KeepsTo (fun _ => True) handler :=
  fun request response rest _ => (handler request response rest).keepsTo_all

/-! ### Runs in worlds that are alike -/

/-- A question is answered alike, and leaves the worlds alike. -/
theorem Call.answer_alike {c : Call β} {w v : World η} (hc : c.KeepsTo sees) (h : w.Alike sees v) :
    (c.answer v).1 = (c.answer w).1 ∧ (c.answer w).2.Alike sees (c.answer v).2 := by
  cases c with
  | note n => exact ⟨rfl, h.note n n⟩
  | queueLength queue => exact ⟨congrArg Queue.length (h.queues queue hc), h⟩
  | isQueueing => exact ⟨h.queueing, h⟩
  | clientConfig id => exact ⟨congrArg (Registry.clientConfig id) h.registry, h⟩
  | selectedChain => exact ⟨congrArg Registry.selectedChain h.registry, h⟩
  | switchToBuiltIn network => exact h.onRegistry _
  | switchToCustom id => exact h.onRegistry _
  | bindOrigin origin id => exact h.onRegistry _
  | draft origin fromChain toChain client =>
    unfold Call.answer
    rw [h.rest]
    exact ⟨rfl, h.queues, rfl⟩

namespace Outcome

/-- What is left keeps to these queues. -/
def KeepsTo (sees : Nat → Prop) : Outcome η α → Prop
  | suspended t => t.KeepsTo sees
  | _ => True

/-- Two programs came equally far, what is left keeps to what is seen, and the worlds are
alike. -/
structure Alike (sees : Nat → Prop) (o o' : Outcome η α × World η) : Prop where
  outcome : o'.1 = o.1
  keeps : o.1.KeepsTo sees
  world : o.2.Alike sees o'.2

/-- So it is one outcome in two worlds. -/
theorem Alike.exists_eq {o o' : Outcome η α × World η} (h : Alike sees o o') :
    ∃ (e : Outcome η α) (w v : World η), o = (e, w) ∧ o' = (e, v) ∧ e.KeepsTo sees ∧
      w.Alike sees v :=
  ⟨o.1, o.2, o'.2, rfl, Prod.ext h.outcome rfl, h.keeps, h.world⟩

/-- What follows the job that holds a slot is alike too. -/
theorem alike_behindSlot {queue : Nat} {next : β → Program η α} {o o' : Outcome η β × World η}
    (hsees : sees queue) (hkeeps : ∀ b, (next b).KeepsTo sees)
    (hnext : ∀ b (w v : World η), w.Alike sees v → Alike sees ((next b).run w) ((next b).run v))
    (h : Alike sees o o') : Alike sees (behindSlot queue next o) (behindSlot queue next o') := by
  obtain ⟨e, w, v, rfl, rfl, hleft, hworld⟩ := h.exists_eq
  cases e with
  | finished b => exact hnext b _ _ (hworld.release queue)
  | panicked text => exact ⟨rfl, trivial, hworld.release queue⟩
  | suspended t => exact ⟨rfl, ⟨hsees, hleft, hkeeps⟩, hworld⟩

end Outcome

/-- So is what follows a step of the host, taken or not. -/
theorem Thread.alike_held {step : η → Option (β × η)} {next : β → Program η α} {w v : World η}
    (hkeeps : ∀ b, (next b).KeepsTo sees)
    (hnext : ∀ b (w v : World η), w.Alike sees v →
      Outcome.Alike sees ((next b).run w) ((next b).run v))
    (h : w.Alike sees v) :
    Outcome.Alike sees ((held step next).resume w) ((held step next).resume v) := by
  unfold resume
  rw [h.host]
  cases step w.host with
  | none => exact ⟨rfl, hkeeps, h⟩
  | some taken => exact hnext _ _ _ (h.withHost _)

/-- And what follows a look at the desk, with a decision or without. -/
theorem Thread.alike_asking {requester : Nat} {deadline : Option Nat} {request : ApprovalRequest}
    {next : Except Fault Unit → Program η α} {w v : World η}
    (hkeeps : ∀ answer, (next answer).KeepsTo sees)
    (hnext : ∀ answer (w v : World η), w.Alike sees v →
      Outcome.Alike sees ((next answer).run w) ((next answer).run v))
    (h : w.Alike sees v) :
    Outcome.Alike sees ((asking requester deadline request next).resume w)
      ((asking requester deadline request next).resume v) := by
  unfold resume
  rw [h.look]
  cases w.look requester deadline with
  | none => exact ⟨rfl, hkeeps, h⟩
  | some ending =>
    obtain ⟨hanswer, hworld⟩ := h.conclude requester request ending
    dsimp only
    rw [hanswer]
    exact hnext _ _ _ hworld

/-- **A program cannot tell worlds apart that are alike.** -/
theorem Program.alike_run {p : Program η α} {w v : World η} (hp : p.KeepsTo sees)
    (h : w.Alike sees v) :
    Outcome.Alike sees (p.run w) (p.run v) := by
  induction p generalizing w v with
  | done a => exact ⟨rfl, trivial, h⟩
  | panic text => exact ⟨rfl, trivial, h⟩
  | call c next ih =>
    obtain ⟨hanswer, hworld⟩ := Call.answer_alike hp.1 h
    simp only [Program.run]
    rw [hanswer]
    exact ih _ (hp.2 _) hworld
  | await step next ih =>
    rw [run_await, run_await]
    exact Thread.alike_held hp (fun b _ _ => ih b (hp b)) h
  | ask request next ih =>
    obtain ⟨hrequester, hdeadline, hparked⟩ := h.park request
    rw [run_ask, run_ask, hrequester, hdeadline]
    exact Thread.alike_asking hp (fun answer _ _ => ih answer (hp answer)) hparked
  | enqueue queue job next ihj ih =>
    obtain ⟨hqueue, hjob, hnext⟩ := hp
    obtain ⟨hplace, hworld⟩ := h.enter hqueue
    cases hw : w.enter queue with
    | mk place w' =>
      cases hv : v.enter queue with
      | mk place' v' =>
        rw [hw, hv] at hplace hworld
        obtain rfl : place' = place := hplace
        cases place' with
        | none =>
          rw [run_enqueue_of_free hw, run_enqueue_of_free hv]
          exact Outcome.alike_behindSlot hqueue hnext (fun b _ _ => ih b (hnext b))
            (ihj hjob hworld)
        | some place =>
          simp only [Program.run, hw, hv]
          exact ⟨rfl, ⟨hqueue, hjob, hnext⟩, hworld⟩

/-- **Nor can one that is resumed.** -/
theorem Thread.alike_resume {t : Thread η α} {w v : World η} (ht : t.KeepsTo sees)
    (h : w.Alike sees v) :
    Outcome.Alike sees (t.resume w) (t.resume v) := by
  induction t generalizing w v with
  | fresh p => exact Program.alike_run ht h
  | held step next => exact alike_held ht (fun b _ _ => Program.alike_run (ht b)) h
  | asking requester deadline request next =>
    exact alike_asking ht (fun answer _ _ => Program.alike_run (ht answer)) h
  | waiting queue place job next =>
    obtain ⟨hqueue, hjob, hnext⟩ := ht
    unfold resume
    rw [h.queues queue hqueue]
    split
    · exact Outcome.alike_behindSlot hqueue hnext (fun b _ _ => Program.alike_run (hnext b))
        (Program.alike_run hjob (h.goOn queue place))
    · exact ⟨rfl, ⟨hqueue, hjob, hnext⟩, h⟩
  | holding queue inner next ih =>
    obtain ⟨hqueue, hinner, hnext⟩ := ht
    exact Outcome.alike_behindSlot hqueue hnext (fun b _ _ => Program.alike_run (hnext b))
      (ih hinner h)

/-- **Nor can one that is resumed again and again.** -/
theorem Outcome.Alike.polled {o o' : Outcome η α × World η} {worlds worlds' : List (World η)}
    (h : Alike sees o o') (hworlds : List.Forall₂ (World.Alike sees) worlds worlds') :
    Alike sees (Outcome.polled o worlds) (Outcome.polled o' worlds') := by
  induction hworlds generalizing o o' with
  | nil => exact h
  | cons hworld _ ih =>
    refine ih ?_
    obtain ⟨e, w, v, rfl, rfl, hleft, halike⟩ := h.exists_eq
    cases e with
    | finished a => exact ⟨rfl, trivial, halike⟩
    | panicked text => exact ⟨rfl, trivial, halike⟩
    | suspended t => exact t.alike_resume hleft hworld

end WalletGate
