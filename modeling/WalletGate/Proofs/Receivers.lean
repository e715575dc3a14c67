import Mathlib.Data.List.Nodup
import WalletGate.Proofs.Lengths
import WalletGate.Proofs.Slot

/-!
# Waiters and receivers

A job that has to wait leaves a waiter in the queue, and with it the sending end of its
signal; the receiving end it keeps.  How its wait ended it does not ask: whoever goes on
takes the slot for its own.  A signal that is lost because the waiter that was to send it is
thrown away, or one that is sent to nobody, would give the slot to two jobs or to none.

Neither happens, because a waiter and its receiver live and die together (`Queue.Paired`).
What carries it is `Queue.Tended`: the jobs in front of a queue form a line that belongs to
it, only signals of waiters taken off were sent, and whoever listens is one of the jobs that
wait.

As in the account of the published length, a task that is given up leaves its places one
after another, and everything holds in between too: `Crew.scenes` lists the worlds a history
passes through, each with the places where jobs stand.

* `Queue.Tended.leave`, `Passes.heard` — what one thing a job does keeps;
* `Crew.tended_after`, `Thread.tended_givingUp` — so it holds behind every history, and from
  one place a task leaves to the next;
* `Queue.Tended.paired` — waiters and receivers of a tended queue are paired;
* `Crew.waiters_and_receivers` — all scenes of all histories.
-/

namespace WalletGate

variable {η α : Type}

/-! ### Who listens -/

namespace Queue

/-- Whoever listens for a signal waits in one of these places. -/
def Heard (q : Queue) (ps : List Stand) : Prop :=
  ∀ signal ∈ q.listening, ∃ w, .waits w ∈ ps ∧ w.signal = signal

variable {q : Queue} {ps ss : List Stand} {w : Waiter}

theorem Heard.mono (h : q.Heard ps) (hsub : ps ⊆ ss) : q.Heard ss := by
  intro signal hsignal
  obtain ⟨w, hw, rfl⟩ := h signal hsignal
  exact ⟨w, hsub hw, rfl⟩

/-- A job that takes a place in the queue listens for its signal. -/
theorem listening_enter_of_some (h : q.enter.1 = some w) :
    q.enter.2.1.listening = w.signal :: q.listening := by
  unfold enter at h ⊢
  split at h
  · obtain rfl := Option.some.inj h
    simp_all [publish]
  · simp at h

/-- A job that finds the slot free listens for nothing. -/
theorem listening_enter_of_none (h : q.enter.1 = none) : q.enter.2.1.listening = q.listening := by
  unfold enter at h ⊢
  split at h
  · simp at h
  · simp_all [publish]

@[simp] theorem listening_release (q : Queue) : q.release.1.listening = q.listening := by
  unfold release
  split <;> rfl

/-- Whoever gives up stops listening, and nobody else does. -/
theorem listening_abandon (w : Waiter) (q : Queue) :
    (q.abandon w).1.listening = q.listening.filter (· != w.signal) := by
  unfold abandon
  split
  · rfl
  · split
    · exact congrArg (List.filter _) q.listening_release
    · rfl

/-- A job that waits stops listening. -/
theorem Heard.silence {p : Queue} (h : q.Heard (.waits w :: ps))
    (hlistening : p.listening = q.listening.filter (· != w.signal)) : p.Heard ps := by
  intro signal hsignal
  rw [hlistening, List.mem_filter, bne_iff_ne] at hsignal
  obtain ⟨v, hv, rfl⟩ := h signal hsignal.1
  rcases List.mem_cons.1 hv with heq | hv
  · obtain rfl := Stand.waits.inj heq
    exact absurd rfl hsignal.2
  · exact ⟨v, hv, rfl⟩

/-- A place is left, and its receiver with it. -/
theorem Heard.leave {p : Stand} (h : q.Heard (p :: ps)) : (q.leave p).Heard ps := by
  cases p with
  | runs =>
    intro signal hsignal
    rw [Queue.leave, listening_release] at hsignal
    obtain ⟨w, hw, rfl⟩ := h signal hsignal
    exact ⟨w, by simpa using hw, rfl⟩
  | waits w => exact h.silence (listening_abandon w q)

/-- Places are left one after another, and their receivers with them. -/
theorem Heard.leaveAll {others : List Stand} (h : q.Heard (ps ++ others)) :
    (ps.foldl Queue.leave q).Heard others := by
  induction ps generalizing q with
  | nil => exact h
  | cons p ps ih => exact ih h.leave

end Queue

/-- **A move** makes a receiver with a waiter, and takes it away when the job goes on. -/
theorem Passes.heard {key : Nat} {q p : Queue} {deed : Option (Nat × Deed)}
    {ps ss others : List Stand}
    (h : Passes key q deed ps ss p) (hheard : q.Heard (ps ++ others)) : p.Heard (ss ++ others) := by
  cases h with
  | elsewhere hdeed => exact hheard
  | @came _ w hplace =>
    intro signal hsignal
    rw [Queue.listening_enter_of_some hplace] at hsignal
    rcases List.mem_cons.1 hsignal with rfl | hsignal
    · exact ⟨w, List.mem_cons_self, rfl⟩
    · exact hheard.mono (List.subset_cons_self _ _) signal hsignal
  | cameIn hplace =>
    intro signal hsignal
    rw [Queue.listening_enter_of_none hplace] at hsignal
    exact hheard.mono (List.subset_cons_self _ _) signal hsignal
  | @began ps w hover =>
    have hothers : (q.goOn w).1.Heard (ps ++ others) := hheard.silence rfl
    exact hothers.mono (List.subset_cons_self _ _)
  | ended => exact hheard.leave

namespace Crew

variable {queue : Nat} {c : Crew η α}

/-- Where the tasks stand is where a task stands and where the others do when it is given up. -/
theorem perm_places_giveUp {i : Nat} {t : Thread η α} (ht : c.thread? i = some t) :
    (c.places queue).Perm (t.places queue ++ (c.giveUp i).places queue) := by
  obtain ⟨others, hbefore, hbehind⟩ :=
    exists_perm_flatMap_range (lt_of_thread? ht) fun j => c.placesOf queue j
  have hothers := hbehind (fun j => (c.giveUp i).placesOf queue j) fun j hj =>
    placesOf_giveUp_of_ne hj queue c
  rw [placesOf_giveUp_self, List.nil_append] at hothers
  rw [placesOf_of_thread? ht] at hbefore
  rw [places, places, length_giveUp]
  exact hbefore.trans (hothers.symm.append_left _)

/-- A new task stands nowhere. -/
theorem places_spawn (name : String) (p : Program η α) (c : Crew η α) :
    (c.spawn name p).places queue = c.places queue := by
  have hbeyond : c.placesOf queue c.tasks.length = [] :=
    placesOf_of_gone (thread?_of_length_le (Nat.le_refl _))
  have hlength : (c.spawn name p).tasks.length = c.tasks.length + 1 := by simp [spawn]
  simp [places, hlength, List.range_succ, hbeyond]

/-- **One act.**  Whoever listens behind it waits behind it. -/
theorem heard_perform (h : (c.world.queues queue).Heard (c.places queue)) (a : Act η α) :
    ((c.perform a).world.queues queue).Heard ((c.perform a).places queue) := by
  cases a with
  | spawn name p =>
    rw [perform, places_spawn]
    exact h
  | go i =>
    rw [perform]
    rcases Nat.lt_or_ge i c.tasks.length with hi | hi
    · obtain ⟨deed, hpass, -⟩ := c.passes_go queue i
      obtain ⟨others, hbefore, hbehind⟩ := exists_perm_flatMap_range hi fun j => c.placesOf queue j
      have hothers :=
        hbehind (fun j => (c.go i).placesOf queue j) fun j hj => placesOf_go_of_ne hj queue c
      rw [places, length_go]
      exact (hpass.heard (h.mono hbefore.subset)).mono hothers.symm.subset
    · rwa [go_of_gone (thread?_of_length_le hi)]
  | drop i =>
    rw [perform]
    cases ht : c.thread? i with
    | none =>
      have hcrew : c.giveUp i = c := by simp [giveUp, ht]
      rwa [hcrew]
    | some t =>
      have hworld : (c.giveUp i).world = t.cancel c.world := by simp [giveUp, ht]
      rw [hworld, t.queues_cancel]
      exact (h.mono (perm_places_giveUp ht).subset).leaveAll
  | outside o =>
    have hqueues : (c.perform (.outside o)).world.queues = c.world.queues := o.queues_apply c.world
    rw [hqueues]
    exact h

/-- Behind every history whoever listens waits. -/
theorem heard_after (h : (c.world.queues queue).Heard (c.places queue)) (past : List (Act η α)) :
    ((c.after past).world.queues queue).Heard ((c.after past).places queue) := by
  induction past with
  | nil => exact h
  | cons a past ih => exact heard_perform ih a

end Crew

/-! ### Queues that are tended -/

namespace Queue

/-- A queue and the places in front of it belong together. -/
structure Tended (q : Queue) (ps : List Stand) : Prop where
  /-- The jobs in these places form a line. -/
  lined : ∃ line came, Line.Of line q came ∧ ps.Perm (line.map Prod.snd)
  posted : q.Posted
  heard : q.Heard ps
  few : q.signals < UInt64.size

variable {q : Queue} {ps ss : List Stand} {w : Waiter}

theorem Tended.of_perm (h : q.Tended ps) (hperm : ps.Perm ss) : q.Tended ss where
  lined := by
    obtain ⟨line, came, hlined, hplaces⟩ := h.lined
    exact ⟨line, came, hlined, hperm.symm.trans hplaces⟩
  posted := h.posted
  heard := h.heard.mono hperm.subset
  few := h.few

/-- **A place is left.** -/
theorem Tended.leave {p : Stand} (h : q.Tended (p :: ps)) : (q.leave p).Tended ps where
  lined := by
    obtain ⟨line, came, hlined, hperm⟩ := h.lined
    obtain ⟨⟨n, p'⟩, hmem, rfl⟩ := List.mem_map.1 (hperm.subset List.mem_cons_self)
    obtain ⟨pre, post, rfl, hleft⟩ := hlined.leave hmem h.few
    rw [List.map_append, List.map_cons] at hperm
    refine ⟨pre ++ post, came, hleft, ?_⟩
    rw [List.map_append]
    exact (hperm.trans List.perm_middle).cons_inv
  posted := by
    cases p with
    | runs => exact h.posted.release
    | waits w => exact h.posted.abandon w
  heard := h.heard.leave
  few := by
    rw [signals_leave]
    exact h.few

/-- A waiter in the queue is the one of a job that waits and was not woken. -/
theorem Tended.mem_waiting_iff (h : q.Tended ps) :
    w ∈ q.waiting ↔ .waits w ∈ ps ∧ w.signal ∉ q.sent := by
  obtain ⟨line, came, hlined, hperm⟩ := h.lined
  constructor
  · intro hw
    refine ⟨?_, h.posted.unsent w hw⟩
    rw [← hlined.waiting] at hw
    obtain ⟨⟨n, p⟩, hj, hp⟩ := List.mem_filterMap.1 hw
    cases p with
    | runs => simp [Stand.waiter?] at hp
    | waits v =>
      obtain rfl := Option.some.inj hp
      exact hperm.symm.subset (List.mem_map_of_mem (List.mem_of_mem_tail hj))
  · rintro ⟨hw, hunsent⟩
    obtain ⟨⟨n, p⟩, hj, rfl⟩ := List.mem_map.1 (hperm.subset hw)
    -- The first in the line was sent its signal, so whoever was not stands behind it.
    rcases hlined.eq_cons_or_mem_waiting hj with hfirst | ⟨-, hmem⟩
    · exact absurd (hlined.sent n w line.tail hfirst) hunsent
    · exact hmem

/-- A job that waits listens for its signal. -/
theorem Tended.listening (h : q.Tended ps) (hw : .waits w ∈ ps) : w.signal ∈ q.listening := by
  obtain ⟨line, came, hlined, hperm⟩ := h.lined
  obtain ⟨⟨n, p⟩, hj, rfl⟩ := List.mem_map.1 (hperm.subset hw)
  exact hlined.listening w (Line.mem_waiters hj)

end Queue

/-- Where fewer than `UInt64.size` tickets were issued, they increase from the first job to
the last. -/
theorem Line.Sound.tickets_increase {line : Line} {q : Queue} {came : Nat} (h : line.Sound q came)
    (hfew : q.signals < UInt64.size) : (line.waiters.map Waiter.ticket).Pairwise (· < ·) := by
  rw [List.pairwise_map]
  refine (List.pairwise_map.1 h.signals).imp_of_mem fun {v w} hv hw hlt => ?_
  have hvs := Nat.lt_trans (h.issued v hv) hfew
  have hws := Nat.lt_trans (h.issued w hw) hfew
  rw [h.tickets v hv, h.tickets w hw, UInt64.lt_iff_toNat_lt, UInt64.toNat_ofNat_of_lt' hvs,
    UInt64.toNat_ofNat_of_lt' hws]
  exact hlt

namespace Queue

variable {q : Queue} {ps : List Stand} {w : Waiter}

/-- Tickets increase from front to back. -/
theorem Tended.increasing (h : q.Tended ps) : (q.waiting.map Waiter.ticket).Pairwise (· < ·) := by
  obtain ⟨line, came, hlined, -⟩ := h.lined
  have hless : (Line.waiters line.tail).Sublist line.waiters := (List.tail_sublist line).filterMap _
  rw [← hlined.waiting]
  exact (hlined.tickets_increase h.few).sublist (hless.map _)

/-- No two jobs hold the same ticket. -/
theorem Tended.holders (h : q.Tended ps) :
    ((ps.filterMap Stand.waiter?).map Waiter.ticket).Nodup := by
  obtain ⟨line, came, hlined, hperm⟩ := h.lined
  have hwaiters : (ps.filterMap Stand.waiter?).Perm line.waiters := by
    have hline := hperm.filterMap Stand.waiter?
    rwa [List.filterMap_map] at hline
  refine (hwaiters.map _).nodup_iff.2 ((hlined.tickets_increase h.few).imp fun hlt heq => ?_)
  exact UInt64.lt_irrefl _ (heq ▸ hlt)

/-- **The hand-off.**  Whoever gives the slot up takes off the first waiter and no other;
somebody listens, and the signal is sent. -/
theorem Tended.release_of_waiting (h : q.Tended ps) {v : Waiter} {rest : List Waiter}
    (hwaiting : q.waiting = v :: rest) :
    v.signal ∈ q.listening ∧ q.release.1.waiting = rest ∧
      q.release.1.sent = v.signal :: q.sent := by
  have hlistening : ∀ w ∈ q.waiting, w.signal ∈ q.listening :=
    fun w hw => h.listening (h.mem_waiting_iff.1 hw).1
  have hfirst := hlistening v (hwaiting ▸ List.mem_cons_self)
  have holdest := Line.Of.oldest?_of_listening hlistening
  rw [hwaiting, List.head?_cons, List.tail_cons, Option.map_some] at holdest
  rw [release, hwaiting, holdest]
  exact ⟨hfirst, rfl, rfl⟩

/-- **The wake-up.**  The wait of a job is over exactly if its signal was sent. -/
theorem Tended.isOver_iff (h : q.Tended ps) (hw : .waits w ∈ ps) :
    q.isOver w = true ↔ w.signal ∈ q.sent := by
  constructor
  · intro hover
    by_contra hunsent
    have hmem : w ∈ q.waiting := h.mem_waiting_iff.2 ⟨hw, hunsent⟩
    simp only [isOver, Bool.not_eq_true', List.any_eq_false, decide_eq_true_eq] at hover
    exact hover w hmem rfl
  · intro hsent
    simp only [isOver, Bool.not_eq_true', List.any_eq_false, decide_eq_true_eq]
    intro v hv heq
    exact h.posted.unsent v hv (heq ▸ hsent)

/-- A job that was woken finds no waiter with its ticket. -/
theorem Tended.ticket_ne_of_sent (h : q.Tended ps) (hw : .waits w ∈ ps)
    (hsent : w.signal ∈ q.sent) :
    ∀ v ∈ q.waiting, v.ticket ≠ w.ticket := by
  intro v hv hticket
  have hmem : ∀ {u : Waiter}, Stand.waits u ∈ ps → u ∈ ps.filterMap Stand.waiter? :=
    fun hu => List.mem_filterMap.2 ⟨_, hu, rfl⟩
  have hvps := (h.mem_waiting_iff.1 hv).1
  obtain rfl := List.inj_on_of_nodup_map h.holders (hmem hvps) (hmem hw) hticket
  exact h.posted.unsent v hv hsent

/-- **Giving up unwoken.**  A job that was not woken takes its own waiter away and no other,
and nobody is woken. -/
theorem Tended.abandon_of_not_sent (h : q.Tended ps) (hw : .waits w ∈ ps)
    (hunsent : w.signal ∉ q.sent) :
    ∃ pre post, q.waiting = pre ++ w :: post ∧ (q.abandon w).1.waiting = pre ++ post ∧
      (q.abandon w).1.sent = q.sent := by
  obtain ⟨pre, post, hwaiting⟩ := List.append_of_mem (h.mem_waiting_iff.2 ⟨hw, hunsent⟩)
  have hincreasing := h.increasing
  rw [hwaiting, List.map_append, List.map_cons, List.pairwise_append] at hincreasing
  have hpre : ∀ v ∈ pre, ¬ decide (v.ticket = w.ticket) = true := by
    intro v hv
    have hlt := hincreasing.2.2 v.ticket (List.mem_map_of_mem hv) w.ticket List.mem_cons_self
    simpa using UInt64.ne_of_lt hlt
  have hany : (q.waiting.any fun other => other.ticket = w.ticket) = true := by
    simp [hwaiting]
  have hleft : q.waiting.eraseP (fun other => other.ticket = w.ticket) = pre ++ post := by
    rw [hwaiting, List.eraseP_append_right _ hpre, List.eraseP_cons_of_pos (by simp)]
  have hsent : q.sent.filter (· != w.signal) = q.sent := by
    refine List.filter_eq_self.2 fun signal hsignal => ?_
    rw [bne_iff_ne]
    rintro rfl
    exact hunsent hsignal
  refine ⟨pre, post, hwaiting, ?_, ?_⟩
  · simp [abandon, hany, hleft, silence, publish]
  · simp [abandon, hany, silence, publish, hsent]

/-- **Giving up woken.**  A job that was woken passes the slot on. -/
theorem Tended.abandon_of_sent (h : q.Tended ps) (hw : .waits w ∈ ps) (hsent : w.signal ∈ q.sent) :
    (q.abandon w).1 = q.release.1.silence w.signal := by
  have hany : (q.waiting.any fun other => other.ticket = w.ticket) = false := by
    simpa using h.ticket_ne_of_sent hw hsent
  simp [abandon, hany, hsent]

/-- **Waiters and receivers live and die together**, in front of a queue where jobs stand in
these places. -/
structure Paired (q : Queue) (ps : List Stand) : Prop where
  /-- Tickets increase from front to back, and so no two are the same. -/
  increasing : (q.waiting.map Waiter.ticket).Pairwise (· < ·)
  /-- No two jobs hold the same ticket. -/
  holders : ((ps.filterMap Stand.waiter?).map Waiter.ticket).Nodup
  /-- A waiter with a ticket is in the queue exactly if the job that holds the ticket is
  there and was not woken. -/
  present : ∀ ticket, ticket ∈ q.waiting.map Waiter.ticket ↔
    ∃ w, .waits w ∈ ps ∧ w.ticket = ticket ∧ w.signal ∉ q.sent
  /-- A waiter in the queue is that of a job, and the job listens for its signal. -/
  heard : ∀ v ∈ q.waiting, .waits v ∈ ps ∧ v.signal ∈ q.listening
  /-- Somebody listens for a signal exactly if a job waits for it. -/
  receivers : ∀ signal, signal ∈ q.listening ↔ ∃ w, .waits w ∈ ps ∧ w.signal = signal
  /-- Whoever gives the slot up takes off the first waiter and no other; somebody listens,
  and the signal is sent. -/
  handsOn : ∀ v rest, q.waiting = v :: rest →
    v.signal ∈ q.listening ∧ q.release.1.waiting = rest ∧ q.release.1.sent = v.signal :: q.sent
  /-- The wait of a job is over exactly if its signal was sent. -/
  woken : ∀ w, .waits w ∈ ps → (q.isOver w = true ↔ w.signal ∈ q.sent)
  /-- A job that gives up and was not woken takes its own waiter away and no other, and
  nobody is woken. -/
  ownWaiter : ∀ w, .waits w ∈ ps → w.signal ∉ q.sent →
    ∃ pre post, q.waiting = pre ++ w :: post ∧ (q.abandon w).1.waiting = pre ++ post ∧
      (q.abandon w).1.sent = q.sent
  /-- A job that finds no waiter with its ticket was woken; if it gives up, it passes the
  slot on. -/
  noWaiter : ∀ w, .waits w ∈ ps → (∀ v ∈ q.waiting, v.ticket ≠ w.ticket) →
    w.signal ∈ q.sent ∧ (q.abandon w).1 = q.release.1.silence w.signal

/-- A queue that is tended has its waiters and receivers paired. -/
theorem Tended.paired (h : q.Tended ps) : q.Paired ps where
  increasing := h.increasing
  holders := h.holders
  present ticket := by
    rw [List.mem_map]
    constructor
    · rintro ⟨w, hw, rfl⟩
      obtain ⟨hplace, hunsent⟩ := h.mem_waiting_iff.1 hw
      exact ⟨w, hplace, rfl, hunsent⟩
    · rintro ⟨w, hplace, rfl, hunsent⟩
      exact ⟨w, h.mem_waiting_iff.2 ⟨hplace, hunsent⟩, rfl⟩
  heard v hv := by
    have hplace := (h.mem_waiting_iff.1 hv).1
    exact ⟨hplace, h.listening hplace⟩
  receivers signal := by
    refine ⟨h.heard signal, ?_⟩
    rintro ⟨w, hw, rfl⟩
    exact h.listening hw
  handsOn _ _ := h.release_of_waiting
  woken _ := h.isOver_iff
  ownWaiter _ := h.abandon_of_not_sent
  noWaiter w hw hnone := by
    have hsent : w.signal ∈ q.sent := by
      by_contra hunsent
      exact hnone w (h.mem_waiting_iff.2 ⟨hw, hunsent⟩) rfl
    exact ⟨hsent, h.abandon_of_sent hw hsent⟩

/-- What one job can do to a queue, and the queue behind it; jobs stand in these places. -/
inductive Use (q : Queue) (ps : List Stand) : Queue → Prop
  | nothing : Use q ps q
  /-- A job comes. -/
  | comes : Use q ps q.enter.2.1
  /-- A job whose wait is over goes on. -/
  | goesOn {w : Waiter} (hw : .waits w ∈ ps) (hover : q.isOver w = true) : Use q ps (q.goOn w).1
  /-- A job leaves its place, because it ends or because the task around it is given up. -/
  | leaves {p : Stand} (hp : p ∈ ps) : Use q ps (q.leave p)

/-- A place is left, or it is a place in front of another queue. -/
theorem Use.of_place {q' : Queue} {p : Stand} {outer : List Stand} (inFront : Prop)
    [Decidable inFront]
    (hqueue : q' = if inFront then q.leave p else q) :
    q.Use ((if inFront then [p] else []) ++ outer) q' := by
  subst hqueue
  by_cases hfront : inFront
  · rw [if_pos hfront, if_pos hfront]
    exact .leaves List.mem_cons_self
  · rw [if_neg hfront, if_neg hfront]
    exact .nothing

/-- A place is left, or it is a place in front of another queue, and those further out are
tended. -/
theorem Tended.of_place {q' : Queue} {p : Stand} {outer : List Stand} (inFront : Prop)
    [Decidable inFront]
    (h : q.Tended ((if inFront then [p] else []) ++ outer))
    (hqueue : q' = if inFront then q.leave p else q) :
    q'.Tended outer := by
  subst hqueue
  by_cases hfront : inFront
  · rw [if_pos hfront] at h ⊢
    exact h.leave
  · rw [if_neg hfront] at h ⊢
    exact h

end Queue

/-- A move is one thing a job does. -/
theorem Passes.use {key : Nat} {q p : Queue} {deed : Option (Nat × Deed)} {ps ss all : List Stand}
    (h : Passes key q deed ps ss p) (hall : ps ⊆ all) : q.Use all p := by
  cases h with
  | elsewhere hdeed => exact .nothing
  | came hplace => exact .comes
  | cameIn hplace => exact .comes
  | began hover => exact .goesOn (hall List.mem_cons_self) hover
  | ended =>
    have hleave : q.Use all (q.leave .runs) := .leaves (hall List.mem_cons_self)
    exact hleave

/-! ### Scenes -/

/-- From one scene to a later one a job did one thing to a queue, or nothing was done to it. -/
def Onward (key : Nat) (later earlier : World η × List Stand) : Prop :=
  (earlier.1.queues key).Use earlier.2 (later.1.queues key)

namespace Thread

/-- A thread that is given up does one thing to a queue after another. -/
theorem onward_givingUp (key : Nat) (t : Thread η α) (outer : List Stand) (w : World η) :
    (t.givingUp key outer w).IsChain (Onward key) := by
  induction t generalizing outer with
  | fresh p => exact .singleton _
  | held step next => exact .singleton _
  | asking requester deadline request next => exact List.isChain_pair.2 .nothing
  | waiting queue place job next =>
    exact List.isChain_pair.2 (Queue.Use.of_place _ (w.queues_abandon queue key place))
  | holding queue inner next ih =>
    refine List.isChain_cons.2 ⟨fun m hm => ?_, ih _⟩
    rw [inner.head?_givingUp] at hm
    obtain rfl := Option.some.inj hm
    exact Queue.Use.of_place _ ((inner.cancel w).queues_release queue key)

/-- **A thread is given up, place by place**, and the queue stays tended. -/
theorem tended_givingUp {key : Nat} (t : Thread η α) {outer : List Stand} {w : World η}
    (h : (w.queues key).Tended (t.places key ++ outer)) :
    ∀ m ∈ t.givingUp key outer w, (m.1.queues key).Tended m.2 := by
  induction t generalizing outer with
  | fresh p => simpa [givingUp, places] using h
  | held step next => simpa [givingUp, places] using h
  | asking requester deadline request next =>
    have hqueues : (w.leave requester request.id).queues = w.queues := rfl
    simpa [givingUp, places, hqueues] using h
  | waiting queue place job next =>
    intro m hm
    rcases List.mem_pair.1 hm with rfl | rfl
    · exact h.of_place _ (w.queues_abandon queue key place)
    · exact h
  | holding queue inner next ih =>
    rw [places, List.append_assoc] at h
    intro m hm
    rcases List.mem_cons.1 hm with rfl | hm
    · have hinner := ih h _ (List.mem_of_mem_head? (inner.head?_givingUp key _ w))
      exact hinner.of_place _ ((inner.cancel w).queues_release queue key)
    · exact ih h m hm

end Thread

namespace Crew

variable {queue : Nat} {w : World η}

/-- **Behind every history** a queue that starts idle is tended. -/
theorem tended_after (hidle : w.queues queue = Queue.idle) (past : List (Act η α))
    (hfew : (((ofWorld w).after past).world.queues queue).signals < UInt64.size) :
    (((ofWorld w).after past).world.queues queue).Tended
    (((ofWorld w).after past).places queue) := by
  have hstart : (ofWorld w : Crew η α).world.queues queue = Queue.idle := hidle
  obtain ⟨line, hline⟩ := standing hidle past hfew
  exact {
    lined := ⟨line, _, hline.lined, hline.perm_places⟩
    posted := posted_after (hstart ▸ Queue.posted_idle) past
    heard := by
      refine heard_after (fun signal hsignal => ?_) past
      rw [hstart] at hsignal
      simp [Queue.idle] at hsignal
    few := hfew }

/-- The worlds an act passes through, latest first, each with the places where jobs stand in
front of a queue. -/
def scene (queue : Nat) (a : Act η α) (c : Crew η α) : List (World η × List Stand) :=
  match a with
  | .drop i =>
    match c.thread? i with
    | some t => t.givingUp queue ((c.giveUp i).places queue) c.world
    | none => [(c.world, c.places queue)]
  | a => [((c.perform a).world, (c.perform a).places queue)]

/-- The worlds a history passes through, latest first, each with the places where jobs stand
in front of a queue. -/
def scenes (queue : Nat) (c : Crew η α) : List (Act η α) → List (World η × List Stand)
  | [] => [(c.world, c.places queue)]
  | a :: past => (c.after past).scene queue a ++ c.scenes queue past

/-- An act comes to the crew behind it. -/
theorem head?_scene (queue : Nat) (a : Act η α) (c : Crew η α) :
    (c.scene queue a).head? = some ((c.perform a).world, (c.perform a).places queue) := by
  cases a with
  | spawn name p => rfl
  | go i => rfl
  | drop i =>
    cases ht : c.thread? i with
    | none => simp [scene, perform, giveUp, ht]
    | some t => simp [scene, perform, giveUp, ht, t.head?_givingUp]
  | outside o => rfl

/-- A history comes to the crew behind it. -/
theorem head?_scenes (queue : Nat) (c : Crew η α) (past : List (Act η α)) :
    (c.scenes queue past).head? = some ((c.after past).world, (c.after past).places queue) := by
  cases past with
  | nil => rfl
  | cons a past =>
    rw [scenes, List.head?_append, head?_scene]
    rfl

/-- In an act one thing after another is done to a queue. -/
theorem onward_scene (queue : Nat) (a : Act η α) (c : Crew η α) :
    (c.scene queue a).IsChain (Onward queue) := by
  cases a with
  | spawn name p => exact .singleton _
  | go i => exact .singleton _
  | drop i =>
    unfold scene
    dsimp only
    split
    · exact Thread.onward_givingUp _ _ _ _
    · exact .singleton _
  | outside o => exact .singleton _

/-- An act starts from the crew before it. -/
theorem onward_last (queue : Nat) (a : Act η α) (c : Crew η α) :
    ∀ m ∈ (c.scene queue a).getLast?, Onward queue m (c.world, c.places queue) := by
  intro m hm
  cases a with
  | spawn name p =>
    obtain rfl := Option.some.inj hm
    exact .nothing
  | go i =>
    obtain rfl := Option.some.inj hm
    obtain ⟨deed, hpass, -⟩ := c.passes_go queue i
    refine hpass.use fun p hp => ?_
    obtain ⟨t, ht, -⟩ := exists_thread?_of_mem hp
    exact List.mem_flatMap.2 ⟨i, List.mem_range.2 (lt_of_thread? ht), hp⟩
  | drop i =>
    cases ht : c.thread? i with
    | none =>
      simp only [scene, ht] at hm
      obtain rfl := Option.some.inj hm
      exact .nothing
    | some t =>
      simp only [scene, ht, t.getLast?_givingUp] at hm
      obtain rfl := Option.some.inj hm
      exact .nothing
  | outside o =>
    have hqueues : (c.perform (.outside o)).world.queues = c.world.queues := o.queues_apply c.world
    have hm : some ((c.perform (.outside o)).world, (c.perform (.outside o)).places queue)
      = some m := hm
    obtain rfl := Option.some.inj hm
    unfold Onward
    dsimp only
    rw [hqueues]
    exact .nothing

/-- In a history one thing after another is done to a queue. -/
theorem onward_scenes (queue : Nat) (c : Crew η α) (past : List (Act η α)) :
    (c.scenes queue past).IsChain (Onward queue) := by
  induction past with
  | nil => exact .singleton _
  | cons a past ih =>
    refine List.isChain_append.2 ⟨onward_scene queue a _, ih, fun m hm m' hm' => ?_⟩
    rw [head?_scenes] at hm'
    obtain rfl := Option.some.inj hm'
    exact onward_last queue a _ m hm

/-- **All scenes of all histories.** -/
theorem tended_scenes (hidle : w.queues queue = Queue.idle) (past : List (Act η α))
    (hfew : (((ofWorld w).after past).world.queues queue).signals < UInt64.size) :
    ∀ m ∈ (ofWorld w : Crew η α).scenes queue past, (m.1.queues queue).Tended m.2 := by
  induction past with
  | nil =>
    intro m hm
    obtain rfl := List.mem_singleton.1 hm
    exact tended_after hidle [] hfew
  | cons a past ih =>
    have hbefore :=
      Nat.lt_of_le_of_lt (signals_le_of_suffix queue (ofWorld w) (List.suffix_cons a past)) hfew
    intro m hm
    rcases List.mem_append.1 hm with hm | hm
    · have htended := tended_after hidle past hbefore
      -- Only a task that is given up passes through more worlds than the one behind the act.
      cases a with
      | spawn name p =>
        obtain rfl := List.mem_singleton.1 hm
        exact tended_after hidle (.spawn name p :: past) hfew
      | go i =>
        obtain rfl := List.mem_singleton.1 hm
        exact tended_after hidle (.go i :: past) hfew
      | drop i =>
        cases ht : ((ofWorld w).after past).thread? i with
        | none =>
          simp only [scene, ht] at hm
          obtain rfl := List.mem_singleton.1 hm
          exact htended
        | some t =>
          simp only [scene, ht] at hm
          exact t.tended_givingUp (htended.of_perm (perm_places_giveUp ht)) m hm
      | outside o =>
        obtain rfl := List.mem_singleton.1 hm
        exact tended_after hidle (.outside o :: past) hfew
    · exact ih hbefore m hm

/-- **Waiters and receivers live and die together.**  In every scene of every history of a
queue that starts idle: the tickets of the waiters increase from front to back; a waiter
with a ticket is there exactly if the job that holds the ticket is there and was not woken;
and each waiter has a job that listens.  So whoever gives the slot up wakes the first
waiter, the wait of a job is over only when it was woken, a job that gives up takes its own
waiter away and no other, and one that finds no waiter of its own was woken.  The scenes end
with the crew behind the history, and from each to the next at most one thing was done to
the queue. -/
theorem waiters_and_receivers (hidle : w.queues queue = Queue.idle) (past : List (Act η α))
    (hfew : (((ofWorld w).after past).world.queues queue).signals < UInt64.size) :
    ((ofWorld w : Crew η α).scenes queue past).head? =
      some (((ofWorld w).after past).world, ((ofWorld w).after past).places queue) ∧
    ((ofWorld w : Crew η α).scenes queue past).IsChain (fun later earlier =>
      (earlier.1.queues queue).Use earlier.2 (later.1.queues queue)) ∧
    ∀ m ∈ (ofWorld w : Crew η α).scenes queue past, (m.1.queues queue).Paired m.2 := by
  refine ⟨head?_scenes queue _ past, onward_scenes queue _ past, fun m hm => ?_⟩
  exact (tended_scenes hidle past hfew m hm).paired

/-- Five jobs come, and the first ends; the second is given up after it was woken, so the
third is woken; and the fourth is given up while it waits. -/
def passedOn : List (Act Bool Unit) :=
  [.drop 3, .drop 1, .go 0, .go 0, .outside (.host fun _ => true), .go 0, .go 4, .go 3, .go 2,
    .go 1, .go 0,
    .spawn "fifth" patient, .spawn "fourth" patient, .spawn "third" patient,
    .spawn "second" patient,
    .spawn "first" patient]

/-- The fifth waits with its own ticket, and only the third was woken. -/
theorem waiters_and_receivers_passedOn :
    (((ofWorld (.start false)).after passedOn).world.queues 0).waiting = [⟨3, 3⟩] ∧
      (((ofWorld (.start false)).after passedOn).world.queues 0).sent = [1] ∧
      ∀ m ∈ (ofWorld (.start false) : Crew Bool Unit).scenes 0 passedOn,
      (m.1.queues 0).Paired m.2 :=
  ⟨rfl, rfl, (waiters_and_receivers rfl passedOn (by decide)).2.2⟩

end Crew

end WalletGate
