import WalletGate.Proofs.Prompt

/-!
# What becomes of a request

A request that was parked waits until the user decides on it, until its requester is resumed
after the deadline or is given up — or until a **rival** interferes, another request with
the same id: one that comes takes the place of the first, and one whose wait ends takes away
whatever is parked under the id.  This is the **fate** of a request.  It is computed from
the acts of a history, of which only a few concern the desk (`Crew.affair`); neither what is
parked nor any verdict goes into it.

* `Thread.move_of_wait` — a thread that waits for a decision is handed the answer, or stays
  as it is;
* `Crew.deals_perform` — all that an act does to the desk and to those who wait there, by
  what it is to the desk.
-/

namespace WalletGate

variable {η α : Type}

/-! ### Waiting for a decision -/

/-- A wait for the decision on a parked request, until the deadline if there is one. -/
structure Wait where
  entry : Parked
  deadline : Option Nat

namespace Thread

/-- What decision the thread waits for. -/
def wait? {α : Type} : Thread η α → Option Wait
  | asking requester deadline request _ => some ⟨⟨request, requester⟩, deadline⟩
  | holding _ inner _ => inner.wait?
  | _ => none

/-- The thread that waited for a decision, with the answer. -/
def told {α : Type} (answer : Except Fault Unit) : Thread η α → Thread η α
  | asking _ _ _ next => fresh (next answer)
  | holding queue inner next => holding queue (inner.told answer) next
  | t => t

variable {t : Thread η α} {w : World η} {m : Move η α} {x : Wait}

theorem question?_eq_wait? (t : Thread η α) : t.question? = t.wait?.map Wait.entry := by
  induction t with
  | holding queue inner next ih => exact ih
  | _ => rfl

/-- A thread that has its answer waits for none. -/
theorem wait?_told (answer : Except Fault Unit) (t : Thread η α) :
    (t.told answer).wait? = none := by
  induction t with
  | holding queue inner next ih => exact ih
  | _ => rfl

/-- A thread at its end waits for nothing. -/
theorem wait?_of_ended {e : TaskEnd α} (h : t.ended? = some e) : t.wait? = none := by
  obtain ⟨a, rfl, _⟩ | ⟨text, rfl, _⟩ := eq_fresh_of_ended h <;> rfl

theorem ended?_of_wait (h : t.wait? = some x) : t.ended? = none := by
  cases he : t.ended? with
  | none => rfl
  | some e => simp [wait?_of_ended he] at h

/-- **A thread that waits for a decision** looks at the desk, and moves only when it finds
how its wait ends. -/
theorem move_of_wait (h : t.wait? = some x) (w : World η) :
    t.move w = (w.look x.entry.requester x.deadline).map fun ending =>
      ⟨none, t.told (w.conclude x.entry.requester x.entry.request ending).1,
        (w.conclude x.entry.requester x.entry.request ending).2⟩ := by
  induction t with
  | asking requester deadline request next =>
    obtain rfl := Option.some.inj h
    rfl
  | holding queue inner next ih =>
    have hinner : inner.wait? = some x := h
    rw [move, ended?_of_wait hinner]
    dsimp only
    rw [ih hinner, Option.map_map]
    rfl
  | _ => simp [wait?] at h

/-- A thread that waits for no decision leaves the desk alone, or parks a request. -/
theorem parks_of_moves (h : Moves w t m) (hnone : t.wait? = none) :
    m.thread.wait? = none ∧ m.world.desk = w.desk ∨
      ∃ request,
      m.thread.wait? = some ⟨⟨request, w.desk.requesters⟩, w.desk.limit.map (w.clock + ·)⟩ ∧
        m.world.desk = (w.desk.park request).2.1 := by
  induction h with
  | call c next => exact .inl ⟨rfl, by rw [World.desk_answer]⟩
  | ask request next => exact .inr ⟨request, rfl, rfl⟩
  | concluded requester deadline request next ending _ => simp [wait?] at hnone
  | inside queue next _ ih => exact ih hnone
  | _ => exact .inl ⟨rfl, rfl⟩

end Thread

/-! ### What concerns the desk -/

/-- What an act is to the desk. -/
inductive Affair where
  | nothing
  /-- A request is parked. -/
  | comes (p : Parked)
  /-- Somebody is resumed that waits for the decision on a request. -/
  | looks (p : Parked)
  /-- Somebody is given up that waits for the decision on a request. -/
  | leaves (p : Parked)
  /-- The user decides on an id. -/
  | decides (id : ApprovalId) (verdict : Verdict)
  /-- The user rejects everything. -/
  | rejectsAll (reason : String)
  deriving DecidableEq

/-- It concerns another request that has the same id. -/
def Affair.isRival (p : Parked) : Affair → Bool
  | comes q | looks q | leaves q => q ≠ p ∧ q.request.id = p.request.id
  | _ => false

/-- What comes from outside, to the desk. -/
def Outside.affair : Outside η → Affair
  | accept id => .decides id .accepted
  | reject id reason => .decides id (.rejected reason)
  | rejectAll reason => .rejectsAll reason
  | _ => .nothing

namespace Crew

/-- What decision a task waits for. -/
def asks (c : Crew η α) (i : Nat) : Option Wait := (c.thread? i).bind Thread.wait?

/-- What an act is to the desk. -/
def affair (c : Crew η α) : Act η α → Affair
  | .spawn _ _ => .nothing
  | .go i =>
    match c.asks i, (c.go i).asks i with
    | some x, _ => .looks x.entry
    | none, some x => .comes x.entry
    | none, none => .nothing
  | .drop i => (c.asks i).elim .nothing fun x => .leaves x.entry
  | .outside o => o.affair

end Crew

/-- What has become of a request that was parked. -/
inductive Fate where
  /-- It waits for the decision, until the deadline if there is one. -/
  | waits (deadline : Option Nat)
  /-- The user decided while it waited. -/
  | decided (verdict : Verdict)
  /-- Its requester was resumed after the deadline, before any decision. -/
  | timedOut
  /-- Its requester was given up before any decision. -/
  | dropped
  /-- A rival interfered while it waited. -/
  | lost
  deriving DecidableEq

namespace Fate

/-- The moment has come. -/
def isOver (deadline : Option Nat) (now : Nat) : Bool := deadline.any fun t => t ≤ now

/-- What becomes of a request that waits. -/
def ofWaiting (now : Nat) (p : Parked) (deadline : Option Nat) (affair : Affair) : Fate :=
  if affair.isRival p then .lost
  else
    match affair with
    | .looks q => if q = p ∧ isOver deadline now then .timedOut else .waits deadline
    | .leaves q => if q = p then .dropped else .waits deadline
    | .decides id verdict => if id = p.request.id then .decided verdict else .waits deadline
    | .rejectsAll reason => .decided (.rejected reason)
    | _ => .waits deadline

/-- The fate of a request behind what happens at the desk.  It waits from the moment it is
parked, for as long as the desk allows then; once the wait is over, its fate is settled. -/
def next (w : World η) (p : Parked) (affair : Affair) : Option Fate → Option Fate
  | none => if affair = .comes p then some (.waits (w.desk.limit.map (w.clock + ·))) else none
  | some (.waits deadline) => some (ofWaiting w.clock p deadline affair)
  | some fate => some fate

end Fate

/-- What has become of a request in a history; nothing if it was not parked. -/
def Crew.fate (p : Parked) (c : Crew η α) : List (Act η α) → Option Fate
  | [] => none
  | a :: past => Fate.next (c.after past).world p ((c.after past).affair a) (c.fate p past)

/-! ### What an act does at the desk -/

/-- The user answers under an id; a notice says so. -/
def Desk.answer (id : ApprovalId) (verdict : Verdict) (n : Notice) (d : Desk) :
    Except Fault (Desk × List Notice) :=
  (d.settle id verdict).map fun x => (x.1, x.2 ++ [n])

theorem Desk.accept_eq_answer (id : ApprovalId) :
    Desk.accept id = Desk.answer id .accepted (.approvalAccepted id) :=
  rfl

theorem Desk.reject_eq_answer (id : ApprovalId) (reason : String) :
    Desk.reject id reason = Desk.answer id (.rejected reason) (.approvalRejected id reason) :=
  rfl

/-- All that an act can do to the desk and to those who wait there, by what it is to the
desk. -/
inductive Deals (w : World η) (asks : Nat → Option Wait) :
    Affair → Desk → (Nat → Option Wait) → Prop
  | nothing : Deals w asks .nothing w.desk asks
  | comes {i : Nat} (request : ApprovalRequest) (before : asks i = none) :
    Deals w asks (.comes ⟨request, w.desk.requesters⟩) (w.desk.park request).2.1
      (Registry.update asks i (some ⟨⟨request, w.desk.requesters⟩, w.desk.limit.map (w.clock + ·)⟩))
  | waits {i : Nat} {x : Wait} (before : asks i = some x)
    (found : w.look x.entry.requester x.deadline = none) :
    Deals w asks (.looks x.entry) w.desk asks
  | ends {i : Nat} {x : Wait} {ending : Desk.Ending} (before : asks i = some x)
    (found : w.look x.entry.requester x.deadline = some ending) :
    Deals w asks (.looks x.entry) (w.desk.leave x.entry.requester x.entry.request.id).1
      (Registry.update asks i none)
  | leaves {i : Nat} {x : Wait} (before : asks i = some x) :
    Deals w asks (.leaves x.entry) (w.desk.leave x.entry.requester x.entry.request.id).1
      (Registry.update asks i none)
  | decides (id : ApprovalId) (verdict : Verdict) (n : Notice) :
    Deals w asks (.decides id verdict) (w.onDesk (Desk.answer id verdict n)).2.desk asks
  | rejectsAll (reason : String) :
    Deals w asks (.rejectsAll reason) (w.desk.rejectAll reason).2.1 asks

namespace Crew

variable {c : Crew η α} {i : Nat} {t : Thread η α} {x : Wait}

theorem asks_of_thread? (h : c.thread? i = some t) : c.asks i = t.wait? := by
  simp [asks, h]

/-- Who waits for a decision is there. -/
theorem thread?_of_asks (h : c.asks i = some x) : ∃ t, c.thread? i = some t ∧ t.wait? = some x :=
  Option.bind_eq_some_iff.1 h

/-- Whoever waits for a decision and goes looks at the desk. -/
theorem affair_go_of_wait (ht : c.thread? i = some t) (hx : t.wait? = some x) :
    c.affair (.go i) = .looks x.entry := by
  rw [affair, asks_of_thread? ht, hx]

/-- The other tasks wait for what they waited for. -/
theorem asks_of_others {d : Crew η α} (hother : ∀ j, j ≠ i → d.thread? j = c.thread? j) :
    d.asks = Registry.update c.asks i (d.asks i) := by
  funext j
  by_cases hj : j = i
  · simp [Registry.update, hj]
  · simp [Registry.update, hj, asks, hother j hj]

/-- Where a task goes on waiting for nothing, everybody waits for what he waited for. -/
theorem update_asks_none (h : c.asks i = none) : Registry.update c.asks i none = c.asks := by
  funext j
  by_cases hj : j = i <;> simp [Registry.update, hj, h]

theorem asks_spawn (c : Crew η α) (name : String) (p : Program η α) :
    (c.spawn name p).asks = c.asks := by
  funext i
  cases ht : (c.spawn name p).thread? i with
  | none =>
    cases hs : c.thread? i with
    | none => simp [asks, ht, hs]
    | some s => simp [thread?_spawn hs] at ht
  | some t =>
    rcases thread?_of_spawn ht with hs | rfl
    · rw [asks_of_thread? ht, asks_of_thread? hs]
    · cases hs : c.thread? i with
      | none => simp [asks, ht, hs, Thread.wait?]
      | some s =>
        obtain rfl := Option.some.inj ((thread?_spawn hs name p).symm.trans ht)
        rw [asks_of_thread? ht, asks_of_thread? hs]

/-- A task that waits for a decision goes. -/
theorem go_of_asks (ht : c.thread? i = some t) (hx : t.wait? = some x) :
    c.go i = (c.world.look x.entry.requester x.deadline).elim c fun ending =>
      c.put i (some (t.told (c.world.conclude x.entry.requester x.entry.request ending).1))
        (c.world.conclude x.entry.requester x.entry.request ending).2 := by
  have hmove := Thread.move_of_wait hx c.world
  cases hlook : c.world.look x.entry.requester x.deadline with
  | none =>
    rw [hlook] at hmove
    exact go_of_stuck ht (Thread.ended?_of_wait hx) hmove
  | some ending =>
    rw [hlook] at hmove
    exact go_of_move ht hmove

theorem asks_go (i : Nat) (c : Crew η α) :
    (c.go i).asks = Registry.update c.asks i ((c.go i).asks i) :=
  asks_of_others fun _ hj => thread?_go_of_ne (Ne.symm hj) c

/-- A task that waits for no decision leaves the desk alone, or parks a request. -/
theorem parks_of_go (hnone : c.asks i = none) :
    (c.go i).asks i = none ∧ (c.go i).world.desk = c.world.desk ∨
      ∃ request, (c.go i).asks i
          = some ⟨⟨request, c.world.desk.requesters⟩, c.world.desk.limit.map (c.world.clock + ·)⟩ ∧
        (c.go i).world.desk = (c.world.desk.park request).2.1 := by
  cases ht : c.thread? i with
  | none => exact .inl (by rw [go_of_gone ht]; exact ⟨hnone, rfl⟩)
  | some t =>
    cases hm : t.move c.world with
    | some m =>
      rw [go_of_move ht hm, asks, thread?_put_self ht, world_put]
      exact Thread.parks_of_moves (Thread.moves_of_move hm) ((asks_of_thread? ht).symm.trans hnone)
    | none =>
      cases he : t.ended? with
      | none => exact .inl (by rw [go_of_stuck ht he hm]; exact ⟨hnone, rfl⟩)
      | some e =>
        rw [go_of_ended ht he, asks, thread?_record, thread?_put_self ht, world_record, world_put]
        exact .inl ⟨rfl, rfl⟩

/-- A task goes. -/
theorem deals_go (c : Crew η α) (i : Nat) :
    Deals c.world c.asks (c.affair (.go i)) (c.go i).world.desk (c.go i).asks := by
  cases hx : c.asks i with
  | none =>
    rw [asks_go i c]
    rcases parks_of_go hx with ⟨hstill, hdesk⟩ | ⟨request, hnow, hdesk⟩
    · rw [affair, hx, hstill, hdesk, update_asks_none hx]
      exact .nothing
    · rw [affair, hx, hnow, hdesk]
      exact .comes request hx
  | some x =>
    obtain ⟨t, ht, hwait⟩ := thread?_of_asks hx
    have haffair := affair_go_of_wait ht hwait
    have hgo := go_of_asks ht hwait
    cases hlook : c.world.look x.entry.requester x.deadline with
    | none =>
      rw [hlook, Option.elim_none] at hgo
      rw [haffair, hgo]
      exact .waits hx hlook
    | some ending =>
      rw [hlook, Option.elim_some] at hgo
      have hnow : (c.go i).asks i = none := by
        rw [hgo, asks, thread?_put_self ht]
        exact t.wait?_told _
      rw [haffair, asks_go i c, hnow, hgo, world_put]
      exact .ends hx hlook

/-- A task is given up. -/
theorem deals_giveUp (c : Crew η α) (i : Nat) :
    Deals c.world c.asks (c.affair (.drop i)) (c.giveUp i).world.desk (c.giveUp i).asks := by
  rw [affair, giveUp]
  cases ht : c.thread? i with
  | none =>
    rw [show c.asks i = none by simp [asks, ht]]
    exact .nothing
  | some t =>
    have hnow : (c.put i none (t.cancel c.world)).asks i = none := by
      rw [asks, thread?_put_self ht]; rfl
    have hasks : (c.put i none (t.cancel c.world)).asks = Registry.update c.asks i none := by
      rw [asks_of_others fun j hj => thread?_put_of_ne (Ne.symm hj) none (t.cancel c.world) c, hnow]
    dsimp only
    rw [hasks, world_put, t.desk_cancel, t.question?_eq_wait?, ← asks_of_thread? ht]
    cases hx : c.asks i with
    | none =>
      rw [update_asks_none hx]
      exact .nothing
    | some x => exact .leaves hx

/-- Something comes from outside. -/
theorem deals_outside (c : Crew η α) (o : Outside η) :
    Deals c.world c.asks o.affair (o.apply c.world).desk c.asks := by
  have other : ∀ d, d = c.world.desk → Deals c.world c.asks .nothing d c.asks := by
    rintro d rfl
    exact .nothing
  cases o with
  | accept id =>
    rw [Outside.apply, Desk.accept_eq_answer]
    exact .decides id .accepted _
  | reject id reason =>
    rw [Outside.apply, Desk.reject_eq_answer]
    exact .decides id (.rejected reason) _
  | rejectAll reason => exact .rejectsAll reason
  | wait milliseconds => exact .nothing
  | setQueueing queueing => exact .nothing
  | host change => exact .nothing
  | addCustom id config => exact other _ (World.desk_onRegistry _ _)
  | removeCustom id => exact other _ (World.desk_onRegistry _ _)
  | switchToBuiltIn network => exact other _ (World.desk_onRegistry _ _)
  | switchToCustom id => exact other _ (World.desk_onRegistry _ _)
  | bindOrigin origin id => exact other _ (World.desk_onRegistry _ _)

/-- **All that an act does at the desk.** -/
theorem deals_perform (c : Crew η α) (a : Act η α) :
    Deals c.world c.asks (c.affair a) (c.perform a).world.desk (c.perform a).asks := by
  cases a with
  | spawn name p =>
    rw [perform, asks_spawn]
    exact .nothing
  | go i => exact c.deals_go i
  | drop i => exact c.deals_giveUp i
  | outside o => exact c.deals_outside o

end Crew

end WalletGate
