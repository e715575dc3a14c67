import WalletGate.Proofs.Line

/-!
# Where a thread stands

A thread may stand in front of a queue, or hold its slot, several times at once: a job may
wait for another job.  Its **places** are read off the thread, innermost first; nothing else
in a thread has to do with the queue.

* `Thread.passes_of_move` — all a move can do to a queue and to the places of the thread
  (`Passes`);
* `Thread.queues_cancel` — a thread that is given up leaves its places one after another,
  innermost first.
-/

namespace WalletGate

variable {η α : Type}

/-! ### What the world's operations do to a queue -/

namespace World

@[simp] theorem queues_note (n : Notice) (w : World η) : (w.note n).queues = w.queues := rfl

@[simp] theorem queues_noteAll (ns : List Notice) (w : World η) :
    (w.noteAll ns).queues = w.queues := rfl

@[simp] theorem queues_setQueue_self (key : Nat) (q : Queue) (w : World η) :
    (w.setQueue key q).queues key = q := by
  simp [setQueue, Registry.update]

theorem queues_setQueue_of_ne {key other : Nat} (h : key ≠ other) (q : Queue) (w : World η) :
    (w.setQueue key q).queues other = w.queues other := by
  simp [setQueue, Registry.update, h.symm]

@[simp] theorem queues_onRegistry (act : Registry → Except Fault (Registry × Notice))
    (w : World η) :
    (w.onRegistry act).2.queues = w.queues := by
  unfold onRegistry
  split <;> rfl

@[simp] theorem queues_onDesk (act : Desk → Except Fault (Desk × List Notice)) (w : World η) :
    (w.onDesk act).2.queues = w.queues := by
  unfold onDesk
  split <;> rfl

@[simp] theorem queues_enter_self (key : Nat) (w : World η) :
    (w.enter key).2.queues key = (w.queues key).enter.2.1 := by
  simp [enter]

theorem queues_enter_of_ne {key other : Nat} (h : key ≠ other) (w : World η) :
    (w.enter key).2.queues other = w.queues other := by
  simp [enter, queues_setQueue_of_ne h]

@[simp] theorem queues_goOn_self (key : Nat) (place : Waiter) (w : World η) :
    (w.goOn key place).queues key = ((w.queues key).goOn place).1 := by
  simp [goOn]

theorem queues_goOn_of_ne {key other : Nat} (h : key ≠ other) (place : Waiter) (w : World η) :
    (w.goOn key place).queues other = w.queues other := by
  simp [goOn, queues_setQueue_of_ne h]

@[simp] theorem queues_release_self (key : Nat) (w : World η) :
    (w.release key).queues key = (w.queues key).release.1 := by
  simp [release]

theorem queues_release_of_ne {key other : Nat} (h : key ≠ other) (w : World η) :
    (w.release key).queues other = w.queues other := by
  simp [release, queues_setQueue_of_ne h]

@[simp] theorem queues_abandon_self (key : Nat) (place : Waiter) (w : World η) :
    (w.abandon key place).queues key = ((w.queues key).abandon place).1 := by
  simp [abandon]

theorem queues_abandon_of_ne {key other : Nat} (h : key ≠ other) (place : Waiter) (w : World η) :
    (w.abandon key place).queues other = w.queues other := by
  simp [abandon, queues_setQueue_of_ne h]

/-- A question that is answered at once touches no queue. -/
@[simp] theorem queues_answer {β : Type} (c : Call β) (w : World η) :
    (c.answer w).2.queues = w.queues := by
  cases c <;> simp [Call.answer, draft]

end World

/-! ### Tickets -/

namespace Queue

/-- A job that comes takes at most one ticket. -/
theorem signals_enter (q : Queue) : q.signals ≤ q.enter.2.1.signals := by
  unfold enter
  split
  · exact Nat.le_succ q.signals
  · exact Nat.le_refl q.signals

@[simp] theorem signals_release (q : Queue) : q.release.1.signals = q.signals := by
  unfold release
  split <;> rfl

@[simp] theorem signals_abandon (w : Waiter) (q : Queue) : (q.abandon w).1.signals = q.signals := by
  unfold abandon
  split
  · rfl
  · split
    · exact q.signals_release
    · rfl

end Queue

/-- Tickets are not taken back. -/
theorem World.Becomes.signals_le {w v : World η} (h : w.Becomes v) (key : Nat) :
    (w.queues key).signals ≤ (v.queues key).signals := by
  cases h with
  | same => exact Nat.le_refl _
  | called c => simp
  | hosted host => exact Nat.le_refl _
  | parked request => exact Nat.le_refl _
  | concluded requester request ending => exact Nat.le_refl _
  | left requester id => exact Nat.le_refl _
  | entered queue =>
    by_cases hq : queue = key
    · subst hq
      simpa using (w.queues queue).signals_enter
    · simp [World.queues_enter_of_ne hq]
  | wentOn queue place =>
    by_cases hq : queue = key
    · subst hq
      simp [Queue.goOn, Queue.silence]
    · simp [World.queues_goOn_of_ne hq]
  | released queue =>
    by_cases hq : queue = key
    · subst hq
      simp
    · simp [World.queues_release_of_ne hq]
  | abandoned queue place =>
    by_cases hq : queue = key
    · subst hq
      simp
    · simp [World.queues_abandon_of_ne hq]

/-! ### Places -/

/-- Where a thread stands in front of a queue, innermost first. -/
def Thread.places (key : Nat) {α : Type} : Thread η α → List Stand
  | fresh _ => []
  | held _ _ => []
  | asking _ _ _ _ => []
  | waiting queue w _ _ => if queue = key then [.waits w] else []
  | holding queue inner _ => inner.places key ++ (if queue = key then [.runs] else [])

/-- All a move can do to a queue and to the places of the thread that moves. -/
inductive Passes (key : Nat) (q : Queue) :
    Option (Nat × Deed) → List Stand → List Stand → Queue → Prop
  | elsewhere {deed : Option (Nat × Deed)} {ps : List Stand} (h : ∀ d, deed ≠ some (key, d)) :
    Passes key q deed ps ps q
  | came {ps : List Stand} {w : Waiter} (h : q.enter.1 = some w) :
    Passes key q (some (key, .came)) ps (.waits w :: ps) q.enter.2.1
  | cameIn {ps : List Stand} (h : q.enter.1 = none) :
    Passes key q (some (key, .cameIn)) ps (.runs :: ps) q.enter.2.1
  | began {ps : List Stand} {w : Waiter} (h : q.isOver w = true) :
    Passes key q (some (key, .began)) (.waits w :: ps) (.runs :: ps) (q.goOn w).1
  | ended {ps : List Stand} : Passes key q (some (key, .ended)) (.runs :: ps) ps q.release.1

/-- The places further out are left alone. -/
theorem Passes.append {key : Nat} {q p : Queue} {deed : Option (Nat × Deed)} {ps ss : List Stand}
    (h : Passes key q deed ps ss p) (outer : List Stand) :
    Passes key q deed (ps ++ outer) (ss ++ outer) p := by
  cases h with
  | elsewhere h => exact .elsewhere h
  | came h => exact .came h
  | cameIn h => exact .cameIn h
  | began h => exact .began h
  | ended => exact .ended

/-- A thread at its end stands nowhere. -/
theorem Thread.places_of_ended {t : Thread η α} {e : TaskEnd α} (h : t.ended? = some e)
    (key : Nat) :
    t.places key = [] := by
  cases t with
  | fresh p => rfl
  | held step next => simp [ended?] at h
  | asking requester deadline request next => simp [ended?] at h
  | waiting queue place job next => simp [ended?] at h
  | holding queue inner next => simp [ended?] at h

/-- A thread that has started nothing stands nowhere. -/
theorem Program.passes_of_move {p : Program η α} {w : World η} {m : Move η α}
    (h : p.move w = some m) (key : Nat) :
    Passes key (w.queues key) m.deed [] (m.thread.places key) (m.world.queues key) := by
  cases p with
  | done a => simp [move] at h
  | panic text => simp [move] at h
  | call c next =>
    simp only [move, Option.some.injEq] at h
    subst h
    rw [World.queues_answer]
    exact .elsewhere (by simp)
  | await step next =>
    simp only [move, Option.some.injEq] at h
    subst h
    exact .elsewhere (by simp)
  | ask request next =>
    simp only [move, Option.some.injEq] at h
    subst h
    exact .elsewhere (by simp)
  | enqueue queue job next =>
    rw [move] at h
    rcases he : w.enter queue with ⟨place, v⟩
    have hplace : (w.queues queue).enter.1 = place := congrArg Prod.fst he
    have hworld : v = (w.enter queue).2 := (congrArg Prod.snd he).symm
    rw [he] at h
    subst hworld
    by_cases hq : queue = key
    · subst hq
      cases place with
      | none =>
        obtain rfl := Option.some.inj h
        simp only [Thread.places, if_true, List.nil_append, World.queues_enter_self]
        exact .cameIn hplace
      | some place =>
        obtain rfl := Option.some.inj h
        simp only [Thread.places, if_true, World.queues_enter_self]
        exact .came hplace
    · have hdeed : ∀ d' d : Deed, some (queue, d') ≠ some (key, d) := by simp [hq]
      cases place with
      | none =>
        obtain rfl := Option.some.inj h
        simp only [Thread.places, if_neg hq, List.nil_append, World.queues_enter_of_ne hq]
        exact .elsewhere (hdeed _)
      | some place =>
        obtain rfl := Option.some.inj h
        simp only [Thread.places, if_neg hq, World.queues_enter_of_ne hq]
        exact .elsewhere (hdeed _)

/-- **All a move can do to a queue.** -/
theorem Thread.passes_of_move {t : Thread η α} {w : World η} {m : Move η α} (h : t.move w = some m)
    (key : Nat) :
    Passes key (w.queues key) m.deed (t.places key) (m.thread.places key) (m.world.queues key) := by
  induction t with
  | fresh p => exact Program.passes_of_move h key
  | held step next =>
    obtain ⟨x, _, rfl⟩ := Option.map_eq_some_iff.1 h
    exact .elsewhere (by simp)
  | asking requester deadline request next =>
    obtain ⟨ending, _, rfl⟩ := Option.map_eq_some_iff.1 h
    exact .elsewhere (by simp)
  | waiting queue place job next =>
    rw [move] at h
    split at h
    · next hover =>
      obtain rfl := Option.some.inj h
      by_cases hq : queue = key
      · subst hq
        simp only [places, if_true, World.queues_goOn_self]
        exact .began hover
      · simp only [places, if_neg hq, World.queues_goOn_of_ne hq]
        exact .elsewhere (by simp [hq])
    · simp at h
  | holding queue inner next ih =>
    have ends : ∀ e, inner.ended? = some e →
        Passes key (w.queues key) (some (queue, .ended)) ((holding queue inner next).places key) []
          ((w.release queue).queues key) := by
      intro e he
      rw [places, places_of_ended he, List.nil_append]
      by_cases hq : queue = key
      · subst hq
        rw [if_pos rfl, World.queues_release_self]
        exact .ended
      · rw [if_neg hq, World.queues_release_of_ne hq]
        exact .elsewhere (by simp [hq])
    rw [move] at h
    split at h
    · next hb =>
      obtain rfl := Option.some.inj h
      exact ends _ hb
    · next hb =>
      obtain rfl := Option.some.inj h
      exact ends _ hb
    · obtain ⟨m', hm, rfl⟩ := Option.map_eq_some_iff.1 h
      exact (ih hm).append _

/-- A place is left because the thread around it is given up. -/
def Queue.leave (q : Queue) : Stand → Queue
  | .runs => q.release.1
  | .waits w => (q.abandon w).1

@[simp] theorem Queue.signals_leave (q : Queue) (p : Stand) : (q.leave p).signals = q.signals := by
  cases p with
  | runs => exact q.signals_release
  | waits w => exact q.signals_abandon w

/-- **A place is left.**  The others keep theirs. -/
theorem Line.Of.leave {line : Line} {q : Queue} {came n : Nat} {p : Stand} (h : line.Of q came)
    (hn : (n, p) ∈ line) (hfew : q.signals < UInt64.size) :
    ∃ pre post, line = pre ++ (n, p) :: post ∧ Line.Of (pre ++ post) (q.leave p) came := by
  cases p with
  | runs =>
    have hline := h.eq_cons_of_runs hn
    generalize line.tail = rest at hline
    subst hline
    exact ⟨[], rest, rfl, h.release⟩
  | waits w => exact h.abandon hn hfew

/-- **All that giving a thread up does to a queue.** -/
theorem Thread.queues_cancel (t : Thread η α) (w : World η) (key : Nat) :
    (t.cancel w).queues key = (t.places key).foldl Queue.leave (w.queues key) := by
  induction t with
  | fresh p => rfl
  | held step next => rfl
  | asking requester deadline request next => rfl
  | waiting queue place job next =>
    by_cases hq : queue = key
    · subst hq
      simp [cancel, places, Queue.leave]
    · simp [cancel, places, hq, World.queues_abandon_of_ne hq]
  | holding queue inner next ih =>
    by_cases hq : queue = key
    · subst hq
      simp [cancel, places, ih, Queue.leave]
    · simp [cancel, places, hq, World.queues_release_of_ne hq, ih]

end WalletGate
