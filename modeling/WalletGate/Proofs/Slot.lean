import WalletGate.Proofs.Admission

/-!
# The slot is never lost

Whoever gives the slot up hands it to somebody who is there to take it, or leaves the queue
idle.  A job **owns** the slot if it runs, or if it waits and its signal was sent: then it
only has to be resumed.

A signal is sent when its waiter is taken off the queue, and forgotten when the job goes on
or gives up, so the signal of nobody who waits in the queue was sent (`Queue.Posted`).
Together with the line of `Standing` this leaves no choice: the first in the line owns the
slot, and nobody else does.

* `Queue.Posted.enter`, `Queue.Posted.release`, `Queue.Posted.abandon` — what each operation
  keeps;
* `Crew.posted_after` — so it holds behind every history;
* `Standing.owners_eq` — a queue is active exactly if one job owns its slot;
* `Crew.slot_never_lost` — and then somebody goes on; once all jobs are gone the queue is idle.
-/

namespace WalletGate

variable {η α : Type}

/-! ### Signals that were sent -/

namespace Queue

/-- Every signal has a number that was given out, no two waiters have the same one, and the
signal of nobody in the queue was sent. -/
structure Posted (q : Queue) : Prop where
  sent : ∀ s ∈ q.sent, s < q.signals
  waiting : ∀ w ∈ q.waiting, w.signal < q.signals
  distinct : (q.waiting.map Waiter.signal).Nodup
  unsent : ∀ w ∈ q.waiting, w.signal ∉ q.sent

theorem posted_idle : idle.Posted where
  sent := by simp [idle]
  waiting := by simp [idle]
  distinct := .nil
  unsent := by simp [idle]

variable {q : Queue}

/-- Waiters may leave, and signals be forgotten. -/
theorem Posted.less {p : Queue} (h : q.Posted) (hsignals : p.signals = q.signals)
    (hwaiting : p.waiting.Sublist q.waiting) (hsent : ∀ s ∈ p.sent, s ∈ q.sent) : p.Posted where
  sent s hs := hsignals ▸ h.sent s (hsent s hs)
  waiting w hw := hsignals ▸ h.waiting w (hwaiting.subset hw)
  distinct := h.distinct.sublist (hwaiting.map _)
  unsent w hw hs := h.unsent w (hwaiting.subset hw) (hsent _ hs)

/-- A job comes: its signal is new. -/
theorem Posted.enter (h : q.Posted) : q.enter.2.1.Posted := by
  unfold Queue.enter
  split
  · exact {
      sent := fun s hs => Nat.lt_succ_of_lt (h.sent s hs)
      waiting := by
        intro w hw
        rcases List.mem_append.1 hw with hw | hw
        · exact Nat.lt_succ_of_lt (h.waiting w hw)
        · rw [List.mem_singleton.1 hw]
          exact Nat.lt_succ_self q.signals
      distinct := by
        have hnew : ∀ w ∈ q.waiting, w.signal ≠ q.signals :=
          fun w hw => Nat.ne_of_lt (h.waiting w hw)
        simpa [publish, List.nodup_append, h.distinct] using hnew
      unsent := by
        intro w hw hs
        rcases List.mem_append.1 hw with hw | hw
        · exact h.unsent w hw hs
        · rw [List.mem_singleton.1 hw] at hs
          exact Nat.lt_irrefl q.signals (h.sent _ hs) }
  · exact h.less rfl (.refl _) fun _ hs => hs

/-- A signal is forgotten. -/
theorem Posted.silence (h : q.Posted) (signal : Nat) : (q.silence signal).Posted :=
  h.less rfl (.refl _) fun _ hs => (List.mem_filter.1 hs).1

/-- The oldest waiter that listens is one of the waiters, and those left are behind it. -/
theorem suffix_of_oldest? {listening : List Nat} {ws rest : List Waiter} {w : Waiter}
    (h : oldest? listening ws = some (w, rest)) : (w :: rest) <:+ ws := by
  induction ws with
  | nil => simp [oldest?] at h
  | cons v ws ih =>
    unfold oldest? at h
    split at h
    · obtain ⟨rfl, rfl⟩ := Prod.mk.inj (Option.some.inj h)
      exact List.suffix_refl _
    · exact (ih h).trans (List.suffix_cons v ws)

/-- The slot is given up: the signal that is sent is the one of the waiter taken off. -/
theorem Posted.release (h : q.Posted) : q.release.1.Posted := by
  unfold Queue.release
  split
  · next w rest hoff =>
    have hsuffix := suffix_of_oldest? hoff
    have hw : w ∈ q.waiting := hsuffix.subset List.mem_cons_self
    have hrest := h.less (p := { q with waiting := rest }) rfl
      ((List.sublist_cons_self w rest).trans hsuffix.sublist) fun _ hs => hs
    have hdistinct : ((w :: rest).map Waiter.signal).Nodup :=
      h.distinct.sublist (hsuffix.sublist.map _)
    rw [List.map_cons, List.nodup_cons] at hdistinct
    exact {
      sent := by
        intro s hs
        rcases List.mem_cons.1 hs with rfl | hs
        · exact h.waiting w hw
        · exact h.sent s hs
      waiting := hrest.waiting
      distinct := hrest.distinct
      unsent := by
        intro v hv hs
        rcases List.mem_cons.1 hs with heq | hs
        · exact hdistinct.1 (heq ▸ List.mem_map_of_mem hv)
        · exact hrest.unsent v hv hs }
  · exact h.less rfl (List.nil_sublist _) fun _ hs => hs

/-- A waiting job gives up. -/
theorem Posted.abandon (h : q.Posted) (w : Waiter) : (q.abandon w).1.Posted := by
  unfold Queue.abandon
  split
  · have hleft :
        (publish { q with waiting := q.waiting.eraseP fun v => v.ticket = w.ticket }).Posted :=
      h.less rfl List.eraseP_sublist fun _ hs => hs
    exact hleft.silence w.signal
  · split
    · exact h.release.silence w.signal
    · exact h.silence w.signal

end Queue

/-- **Whatever a task does**, only signals of waiters taken off the queue are sent. -/
theorem World.Becomes.posted {w v : World η} (h : w.Becomes v) {key : Nat}
    (hq : (w.queues key).Posted) :
    (v.queues key).Posted := by
  cases h with
  | same => exact hq
  | called c => rwa [World.queues_answer]
  | hosted host => exact hq
  | parked request => exact hq
  | concluded requester request ending => exact hq
  | left requester id => exact hq
  | entered queue =>
    by_cases hk : queue = key
    · subst hk
      rw [World.queues_enter_self]
      exact hq.enter
    · rwa [World.queues_enter_of_ne hk]
  | wentOn queue place =>
    by_cases hk : queue = key
    · subst hk
      rw [World.queues_goOn_self]
      exact hq.silence place.signal
    · rwa [World.queues_goOn_of_ne hk]
  | released queue =>
    by_cases hk : queue = key
    · subst hk
      rw [World.queues_release_self]
      exact hq.release
    · rwa [World.queues_release_of_ne hk]
  | abandoned queue place =>
    by_cases hk : queue = key
    · subst hk
      rw [World.queues_abandon_self]
      exact hq.abandon place
    · rwa [World.queues_abandon_of_ne hk]

/-- So it is behind every history. -/
theorem Crew.posted_after {queue : Nat} {c : Crew η α} (h : (c.world.queues queue).Posted)
    (past : List (Act η α)) : ((c.after past).world.queues queue).Posted := by
  induction past with
  | nil => exact h
  | cons a past ih =>
    refine Crew.world_perform
      (R := fun w v : World η => (w.queues queue).Posted → (v.queues queue).Posted) (fun _ hw => hw)
      (fun _ _ _ hu hv hw => hv (hu hw)) (fun _ _ hb => hb.posted) (c.after past)
      (fun o _ hw => ?_) ih
    rwa [o.queues_apply]

/-! ### Who owns the slot -/

/-- A job owns the slot: it runs, or the slot was handed to it and it has not gone on yet. -/
def Stand.owns (q : Queue) : Stand → Bool
  | runs => true
  | waits w => q.sent.contains w.signal

namespace Crew

/-- How many jobs own the slot of a queue. -/
def owners (queue : Nat) (c : Crew η α) : Nat :=
  (c.places queue).countP (Stand.owns (c.world.queues queue))

/-- The task runs a job of the queue, or waits with the slot handed to it and can go on. -/
def Proceeds (queue i : Nat) (c : Crew η α) : Prop :=
  ∃ t, c.thread? i = some t ∧
    (.runs ∈ t.places queue ∨
      ∃ w, .waits w ∈ t.places queue ∧ w.signal ∈ (c.world.queues queue).sent ∧
      t.isReady c.world = true)

end Crew

/-- A thread can go on when the job in front of a queue can. -/
theorem Thread.isReady_of_isOver {t : Thread η α} {w : World η} {queue : Nat} {p : Waiter}
    (hp : .waits p ∈ t.places queue) (hover : (w.queues queue).isOver p = true) :
    t.isReady w = true := by
  induction t with
  | fresh p => simp [places] at hp
  | held step next => simp [places] at hp
  | asking requester deadline request next => simp [places] at hp
  | waiting key place job next =>
    rw [places] at hp
    split at hp
    · next hkey =>
      subst hkey
      obtain rfl : p = place := by simpa using hp
      exact hover
    · simp at hp
  | holding key inner next ih =>
    rw [places, List.mem_append] at hp
    rcases hp with hp | hp
    · exact ih hp
    · split at hp <;> simp at hp

namespace Standing

variable {queue : Nat} {c : Crew η α} {l : Ledger} {line : Line}

/-- The first in the line owns the slot. -/
theorem owns_first {j : Nat × Stand} {rest : Line} (h : Standing queue c l (j :: rest)) :
    j.2.owns (c.world.queues queue) = true := by
  obtain ⟨n, _ | w⟩ := j
  · rfl
  · simpa [Stand.owns] using h.lined.sent n w rest rfl

/-- Nobody behind it does. -/
theorem not_owns_behind (h : Standing queue c l line) (hposted : (c.world.queues queue).Posted) :
    ∀ j ∈ line.tail, j.2.owns (c.world.queues queue) = false := by
  rintro ⟨n, _ | w⟩ hj
  · exact absurd rfl (h.lined.behind _ hj)
  · have hw : w ∈ (c.world.queues queue).waiting := h.lined.waiting ▸ Line.mem_waiters hj
    simpa [Stand.owns] using hposted.unsent w hw

/-- **One job owns the slot of an active queue**, and none owns the slot of a queue that is
not active. -/
theorem owners_eq (h : Standing queue c l line) (hposted : (c.world.queues queue).Posted) :
    c.owners queue = if (c.world.queues queue).active then 1 else 0 := by
  have hbehind := h.not_owns_behind hposted
  rw [Crew.owners, h.perm_places.countP_eq, h.lined.active]
  cases line with
  | nil => rfl
  | cons j rest =>
    have hnone : (rest.map Prod.snd).countP (Stand.owns (c.world.queues queue)) = 0 := by
      refine List.countP_eq_zero.2 fun p hp => ?_
      obtain ⟨i, hi, rfl⟩ := List.mem_map.1 hp
      simp [hbehind i hi]
    rw [List.map_cons, List.countP_cons, hnone, h.owns_first]
    rfl

/-- A job that has come and is not gone stands in the line. -/
theorem ne_nil_of_live (h : Standing queue c l line) {n : Nat} (hn : n < l.came)
    (hlive : ¬ Ledger.Gone n l.log) : line ≠ [] := by
  rintro rfl
  rcases h.told.stands n hn with hgone | hmem
  · exact hlive hgone
  · simp at hmem

/-- **Somebody goes on** where anybody stands in the line. -/
theorem exists_proceeds (h : Standing queue c l line) (hsome : line ≠ []) :
    ∃ i, c.Proceeds queue i := by
  obtain ⟨j, rest, rfl⟩ := List.exists_cons_of_ne_nil hsome
  obtain ⟨i, _, hj⟩ := List.mem_flatMap.1 (h.jobs.symm.subset List.mem_cons_self)
  obtain ⟨t, ht, hplace⟩ := Crew.exists_thread?_of_mem (List.of_mem_zip hj).2
  refine ⟨i, t, ht, ?_⟩
  obtain ⟨n, _ | w⟩ := j
  · exact .inl hplace
  · have hover := h.lined.isOver_of_first rfl
    exact .inr ⟨w, hplace, h.lined.sent n w rest rfl, Thread.isReady_of_isOver hplace hover⟩

/-- Where all jobs are gone nobody stands in the line. -/
theorem eq_nil_of_gone (h : Standing queue c l line) (hgone : ∀ n < l.came, Ledger.Gone n l.log) :
    line = [] := by
  cases line with
  | nil => rfl
  | cons j rest =>
    obtain ⟨hlt, hlive⟩ := h.told.lives j.1 List.mem_cons_self
    exact absurd (hgone j.1 hlt) hlive

/-- Where nobody stands in the line, nobody stands in front of the queue. -/
theorem places_eq_nil (h : Standing queue c l []) : c.places queue = [] :=
  List.Perm.eq_nil h.perm_places

end Standing

namespace Crew

variable {queue : Nat} {w : World η}

/-- **The slot is never lost.**  In every history of a queue that starts idle: the queue is
active exactly if one job owns its slot; if it is not active, nobody stands in front of it
and nobody waits in it; if some job has come and has neither ended nor been dropped, some
task runs a job or can go on with the slot handed to it; and once all jobs that came have
ended or were dropped, the queue is idle and its length is zero. -/
theorem slot_never_lost (hidle : w.queues queue = Queue.idle) (past : List (Act η α))
    (hfew : (((ofWorld w).after past).world.queues queue).signals < UInt64.size) :
    ((((ofWorld w).after past).world.queues queue).active = true ↔
      ((ofWorld w).after past).owners queue = 1) ∧
    ((((ofWorld w).after past).world.queues queue).active = false →
      ((ofWorld w).after past).places queue = [] ∧
        (((ofWorld w).after past).world.queues queue).waiting = []) ∧
    ((∃ n < ((ofWorld w).ledger queue past).came,
      ¬ Ledger.Gone n ((ofWorld w).ledger queue past).log) →
      ∃ i, ((ofWorld w).after past).Proceeds queue i) ∧
    ((∀ n < ((ofWorld w).ledger queue past).came,
      Ledger.Gone n ((ofWorld w).ledger queue past).log) →
      (((ofWorld w).after past).world.queues queue).active = false ∧
        (((ofWorld w).after past).world.queues queue).length = 0) := by
  obtain ⟨line, hline⟩ := standing hidle past hfew
  have hstart : ((ofWorld w : Crew η α).world.queues queue).Posted := by
    rw [ofWorld, hidle]
    exact Queue.posted_idle
  have howners := hline.owners_eq (posted_after hstart past)
  have hactive := hline.lined.active
  refine ⟨?_, fun hnot => ?_, fun ⟨n, hn, hlive⟩ => ?_, fun hgone => ?_⟩
  · rw [howners]
    split <;> simp_all
  · obtain rfl : line = [] := by simpa [hnot] using hactive
    exact ⟨hline.places_eq_nil, hline.lined.waiting.symm⟩
  · exact hline.exists_proceeds (hline.ne_nil_of_live hn hlive)
  · obtain rfl := hline.eq_nil_of_gone hgone
    have hnot : (((ofWorld w).after past).world.queues queue).active = false := hactive
    have hwaiting : (((ofWorld w).after past).world.queues queue).waiting = [] :=
      hline.lined.waiting.symm
    exact ⟨hnot, by simp [Queue.length, hnot, hwaiting]⟩

/-- The first job ended, the second was dropped while it waited, and the third was handed
the slot but not resumed: it owns the slot and can go on. -/
theorem slot_never_lost_handed :
    (((ofWorld (.start false)).after (handOver.tail ++ arrivals)).world.queues 0).active = true ∧
      ((ofWorld (.start false)).after (handOver.tail ++ arrivals)).owners 0 = 1 ∧
      ((ofWorld (.start false)).after (handOver.tail ++ arrivals)).running 0 = 0 ∧
      ∃ i, ((ofWorld (.start false)).after (handOver.tail ++ arrivals)).Proceeds 0 i := by
  obtain ⟨howned, _, hproceeds, _⟩ :=
    @slot_never_lost Bool Unit 0 (.start false) rfl (handOver.tail ++ arrivals) (by decide)
  exact ⟨rfl, howned.1 rfl, rfl, hproceeds ⟨2, by decide, by simp [Ledger.Gone]; decide⟩⟩

end Crew

end WalletGate
