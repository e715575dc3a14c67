import WalletGate.Proofs.Ledger
import WalletGate.Proofs.Places

/-!
# One job at a time, first come, first served

However many tasks there are and in whatever order they move, wait, end, break down and are
given up, a queue that starts idle admits one job at a time, and in the order in which they
came.

A crew, the ledger of a queue and a line belong together (`Standing`) when the jobs the
ledger says the tasks are inside of, each with the place it has in its task, are the jobs in
the line.  One act keeps them together (`Standing.perform`), so a history does
(`Crew.standing`).  Both results are read off that.

* `Crew.passes_go` — all that a task's move can do to a queue, to where the task stands, and
  to the ledger;
* `Crew.running_le_one` — at most one job is started and has not ended;
* `Crew.first_come_first_served` — jobs begin in the order in which they came, each once,
  each after all that came before it have ended or were dropped, and nobody is passed over
  who was not dropped.
-/

namespace WalletGate

variable {η α : Type}

/-- **One entry changes.**  The others are the same before and behind it. -/
theorem exists_perm_flatMap_range {β : Type} {n i : Nat} (hi : i < n) (f : Nat → List β) :
    ∃ others, ((List.range n).flatMap f).Perm (f i ++ others) ∧
      ∀ g : Nat → List β, (∀ j, j ≠ i → g j = f j) →
      ((List.range n).flatMap g).Perm (g i ++ others) := by
  have hperm := List.perm_cons_erase (List.mem_range.2 hi)
  refine ⟨((List.range n).erase i).flatMap f, hperm.flatMap_right f, fun g hg => ?_⟩
  have hsame : ((List.range n).erase i).flatMap f = ((List.range n).erase i).flatMap g := by
    rw [List.flatMap_def, List.flatMap_def]
    refine congrArg List.flatten (List.map_congr_left fun j hj => (hg j ?_).symm)
    rintro rfl
    exact List.Nodup.not_mem_erase List.nodup_range hj
  rw [hsame]
  exact hperm.flatMap_right g

namespace Crew

/-- Where a task stands in front of a queue, innermost first. -/
def placesOf (queue i : Nat) (c : Crew η α) : List Stand :=
  (c.thread? i).elim [] (Thread.places queue)

/-- A task stands where its thread stands. -/
theorem placesOf_of_thread? {queue i : Nat} {c : Crew η α} {t : Thread η α}
    (ht : c.thread? i = some t) :
    c.placesOf queue i = t.places queue := by
  rw [placesOf, ht]
  rfl

/-- A task that is not there stands nowhere. -/
theorem placesOf_of_gone {queue i : Nat} {c : Crew η α} (ht : c.thread? i = none) :
    c.placesOf queue i = [] := by
  rw [placesOf, ht]
  rfl

theorem placesOf_go_of_ne {i j : Nat} (h : j ≠ i) (queue : Nat) (c : Crew η α) :
    (c.go i).placesOf queue j = c.placesOf queue j := by
  rw [placesOf, thread?_go_of_ne h.symm, placesOf]

theorem placesOf_giveUp_of_ne {i j : Nat} (h : j ≠ i) (queue : Nat) (c : Crew η α) :
    (c.giveUp i).placesOf queue j = c.placesOf queue j := by
  rw [placesOf, thread?_giveUp_of_ne h.symm, placesOf]

/-- A task that is given up stands nowhere. -/
@[simp] theorem placesOf_giveUp_self (queue i : Nat) (c : Crew η α) :
    (c.giveUp i).placesOf queue i = [] := by
  unfold giveUp
  split
  · next ht => exact placesOf_of_gone ht
  · next t ht => exact placesOf_of_gone (thread?_put_self ht _ _)

/-- A new task stands nowhere, and the others where they stood. -/
@[simp] theorem placesOf_spawn (queue i : Nat) (name : String) (p : Program η α) (c : Crew η α) :
    (c.spawn name p).placesOf queue i = c.placesOf queue i := by
  rcases Nat.lt_trichotomy i c.tasks.length with hi | rfl | hi
  · simp [placesOf, thread?, spawn, List.getElem?_append_left hi]
  · simp [placesOf, thread?, spawn, Thread.places]
  · have hbeyond : (c.spawn name p).tasks.length ≤ i := by
      rw [spawn, List.length_append]
      exact hi
    rw [placesOf_of_gone (thread?_of_length_le hbeyond),
      placesOf_of_gone (thread?_of_length_le (Nat.le_of_lt hi))]

/-- Where all tasks together stand in front of a queue. -/
def places (queue : Nat) (c : Crew η α) : List Stand :=
  (List.range c.tasks.length).flatMap fun i => c.placesOf queue i

/-- How many jobs of a queue are started and have not ended. -/
def running (queue : Nat) (c : Crew η α) : Nat :=
  (c.places queue).count .runs

/-- The jobs the tasks are inside of, with the places they have there. -/
def jobs (queue : Nat) (c : Crew η α) (l : Ledger) : Line :=
  (List.range c.tasks.length).flatMap fun i => (l.stays i).zip (c.placesOf queue i)

end Crew

/-- **All that a task's move can do** to a queue, to where the task stands, and to the
ledger of the queue. -/
theorem Crew.passes_go (queue i : Nat) (c : Crew η α) :
    ∃ deed, Passes queue (c.world.queues queue) deed (c.placesOf queue i)
      ((c.go i).placesOf queue i)
        ((c.go i).world.queues queue) ∧
      ∀ l : Ledger, l.note queue (.go i : Act η α) c = l.follow queue i deed := by
  have still : ∀ {d : Crew η α}, d.world = c.world → d.placesOf queue i = c.placesOf queue i →
      Passes queue (c.world.queues queue) none (c.placesOf queue i) (d.placesOf queue i)
      (d.world.queues queue) := by
    intro d hworld hplaces
    rw [hworld, hplaces]
    exact .elsewhere (by simp)
  cases ht : c.thread? i with
  | none =>
    rw [go_of_gone ht]
    exact ⟨none, still rfl rfl, fun l => by simp [Ledger.note, Ledger.follow, ht]⟩
  | some t =>
    cases hm : t.move c.world with
    | some m =>
      have hpass := Thread.passes_of_move hm queue
      rw [go_of_move ht hm, placesOf_of_thread? ht,
        placesOf_of_thread? (thread?_put_self ht _ _), world_put]
      exact ⟨m.deed, hpass, fun l => by simp [Ledger.note, ht, hm]⟩
    | none =>
      refine ⟨none, ?_, fun l => by simp [Ledger.note, Ledger.follow, ht, hm]⟩
      cases he : t.ended? with
      | none =>
        rw [go_of_stuck ht he hm]
        exact still rfl rfl
      | some e =>
        refine still (by rw [go_of_ended ht he, world_record, world_put]) ?_
        rw [placesOf_of_thread? ht, Thread.places_of_ended he, placesOf, go_of_ended ht he,
          thread?_record,
          thread?_put_self ht]
        rfl

/-- A crew, the ledger of a queue and a line belong together. -/
structure Standing (queue : Nat) (c : Crew η α) (l : Ledger) (line : Line) : Prop where
  lined : line.Of (c.world.queues queue) l.came
  told : Ledger.Tells l.log line l.came
  lengths : ∀ i, (l.stays i).length = (c.placesOf queue i).length
  jobs : (c.jobs queue l).Perm line

/-- What comes from outside touches no queue. -/
theorem Outside.queues_apply (o : Outside η) (w : World η) : (o.apply w).queues = w.queues := by
  cases o <;> simp [Outside.apply, World.rejectAll, World.advance]

namespace Standing

variable {queue : Nat} {c : Crew η α} {l : Ledger} {line : Line}

/-- A crew without tasks in front of an idle queue. -/
theorem start {w : World η} (hidle : w.queues queue = Queue.idle) :
    Standing queue (Crew.ofWorld w : Crew η α) .empty [] where
  lined := hidle ▸ Line.of_idle 0
  told := Ledger.tells_nil
  lengths _ := rfl
  jobs := .refl _

/-- What changes neither the queue nor anything in front of it changes nothing. -/
theorem of_eq (h : Standing queue c l line) {d : Crew η α}
    (hqueue : d.world.queues queue = c.world.queues queue)
    (htasks : d.tasks.length = c.tasks.length)
    (hplaces : ∀ i, d.placesOf queue i = c.placesOf queue i) : Standing queue d l line where
  lined := hqueue ▸ h.lined
  told := h.told
  lengths i := by rw [h.lengths, hplaces]
  jobs := by
    have hjobs : d.jobs queue l = c.jobs queue l := by simp [Crew.jobs, htasks, hplaces]
    exact hjobs ▸ h.jobs

/-- **One task changes.**  The jobs of the others are the same before and behind it. -/
theorem exists_others (h : Standing queue c l line) {i : Nat} (hi : i < c.tasks.length) :
    ∃ others, ((l.stays i).zip (c.placesOf queue i) ++ others).Perm line ∧
      ∀ (d : Crew η α) (l' : Ledger), d.tasks.length = c.tasks.length →
        (∀ j, j ≠ i → d.placesOf queue j = c.placesOf queue j) →
        (∀ j, j ≠ i → l'.stays j = l.stays j) →
        (d.jobs queue l').Perm ((l'.stays i).zip (d.placesOf queue i) ++ others) := by
  obtain ⟨others, hbefore, hbehind⟩ :=
    exists_perm_flatMap_range hi fun j => (l.stays j).zip (c.placesOf queue j)
  refine ⟨others, hbefore.symm.trans h.jobs, fun d l' htasks hplaces hstays => ?_⟩
  rw [Crew.jobs, htasks]
  exact hbehind _ fun j hj => by rw [hplaces j hj, hstays j hj]

/-- One task changes, and the line with it. -/
theorem changed {d : Crew η α} {l' : Ledger} {line' : Line} {i : Nat} (h : Standing queue c l line)
    (hi : i < c.tasks.length) (htasks : d.tasks.length = c.tasks.length)
    (hplaces : ∀ j, j ≠ i → d.placesOf queue j = c.placesOf queue j)
    (hstays : ∀ j, j ≠ i → l'.stays j = l.stays j)
    (hlength : (l'.stays i).length = (d.placesOf queue i).length)
    (hlined : line'.Of (d.world.queues queue) l'.came) (htold : Ledger.Tells l'.log line' l'.came)
    (hjobs : ∀ others, ((l.stays i).zip (c.placesOf queue i) ++ others).Perm line →
      ((l'.stays i).zip (d.placesOf queue i) ++ others).Perm line') :
    Standing queue d l' line' where
  lined := hlined
  told := htold
  lengths j := by
    by_cases hj : j = i
    · rw [hj, hlength]
    · rw [hstays j hj, hplaces j hj, h.lengths]
  jobs := by
    obtain ⟨others, hbefore, hbehind⟩ := h.exists_others hi
    exact (hbehind d l' htasks hplaces hstays).trans (hjobs others hbefore)

/-- A job a task is inside of stands in the line. -/
theorem mem_line (h : Standing queue c l line) {i : Nat} (hi : i < c.tasks.length) {j : Nat × Stand}
    (hj : j ∈ (l.stays i).zip (c.placesOf queue i)) : j ∈ line :=
  h.jobs.subset (List.mem_flatMap.2 ⟨i, List.mem_range.2 hi, hj⟩)

/-- **A task moves.** -/
theorem moved {d : Crew η α} {i : Nat} {deed : Option (Nat × Deed)} (h : Standing queue c l line)
    (hi : i < c.tasks.length) (htasks : d.tasks.length = c.tasks.length)
    (hother : ∀ j, j ≠ i → d.placesOf queue j = c.placesOf queue j)
    (hpass : Passes queue (c.world.queues queue) deed (c.placesOf queue i) (d.placesOf queue i)
      (d.world.queues queue)) :
    ∃ line', Standing queue d (l.follow queue i deed) line' := by
  have hlength := h.lengths i
  have updated : ∀ (ns : List Nat) (j : Nat), j ≠ i → Function.update l.stays i ns j = l.stays j :=
    fun ns j hj => Function.update_of_ne hj ns l.stays
  generalize hps : c.placesOf queue i = ps at hpass hlength
  generalize hss : d.placesOf queue i = ss at hpass
  generalize hq : d.world.queues queue = q at hpass
  cases hpass with
  | elsewhere hdeed =>
    have hfollow : l.follow queue i deed = l := by
      rcases deed with _ | ⟨key, d⟩
      · rfl
      · have hkey : key ≠ queue := fun hkey => hdeed d (hkey ▸ rfl)
        rw [Ledger.follow, if_neg hkey]
    rw [hfollow]
    refine ⟨line, h.of_eq hq htasks fun j => ?_⟩
    by_cases hj : j = i
    · rw [hj, hps, hss]
    · exact hother j hj
  | @came _ w hplace =>
    have hrecord : l.follow queue i (some (queue, .came)) = l.arrive i := if_pos rfl
    rw [hrecord]
    refine ⟨line ++ [(l.came, Stand.waits w)], h.changed hi htasks hother (updated _) ?_ ?_
      (h.told.came w) ?_⟩
    · simp [Ledger.arrive, hss, hlength]
    · rw [hq]
      exact h.lined.enter_behind hplace
    · intro others hothers
      rw [hps] at hothers
      simp only [Ledger.arrive, Function.update_self, hss, List.zip_cons_cons, List.cons_append]
      exact (hothers.cons _).trans (List.perm_append_singleton _ _).symm
  | cameIn hplace =>
    obtain ⟨hempty, hfirst⟩ := h.lined.enter_free hplace
    subst hempty
    have hrecord : l.follow queue i (some (queue, .cameIn)) = { l.arrive i with
        log := ⟨l.came, .began⟩ :: (l.arrive i).log } := by
      simp [Ledger.follow, Ledger.record, Ledger.begin, Ledger.arrive]
    rw [hrecord]
    have htold : Ledger.Tells (⟨l.came, .began⟩ :: ⟨l.came, .came⟩ :: l.log) [(l.came, .runs)]
        (l.came + 1) := by
      have hcame := h.told.came default
      exact hcame.began (List.pairwise_singleton _ _)
    refine ⟨[(l.came, .runs)], h.changed hi htasks hother (updated _) ?_ ?_ htold ?_⟩
    · simp [Ledger.arrive, hss, hlength]
    · rw [hq]
      exact hfirst
    · intro others hothers
      rw [hps] at hothers
      simp only [Ledger.arrive, Function.update_self, hss, List.zip_cons_cons, List.cons_append]
      exact hothers.cons _
  | @began ps w hover =>
    obtain ⟨n, ns, hstays⟩ := List.exists_cons_of_length_eq_add_one hlength
    have hrecord : l.follow queue i (some (queue, .began))
        = { l with log := ⟨n, .began⟩ :: l.log } := by
      simp [Ledger.follow, Ledger.record, Ledger.begin, hstays]
    rw [hrecord]
    have hmem : (n, Stand.waits w) ∈ line := h.mem_line hi (by simp [hps, hstays])
    obtain ⟨rest, rfl, hruns⟩ := h.lined.goOn hmem hover
    refine ⟨(n, Stand.runs) :: rest, h.changed hi htasks hother (fun _ _ => rfl) ?_ ?_
      (h.told.began h.lined.numbers) ?_⟩
    · simp [hss, hlength]
    · rw [hq]
      exact hruns
    · intro others hothers
      rw [hps, hstays, List.zip_cons_cons, List.cons_append] at hothers
      rw [hss, hstays, List.zip_cons_cons, List.cons_append]
      exact hothers.cons_inv.cons _
  | ended =>
    obtain ⟨n, ns, hstays⟩ := List.exists_cons_of_length_eq_add_one hlength
    have hrecord : l.follow queue i (some (queue, .ended)) =
        { l with stays := Function.update l.stays i ns, log := ⟨n, .ended⟩ :: l.log } := by
      simp [Ledger.follow, Ledger.record, Ledger.finish, hstays]
    rw [hrecord]
    have hmem : (n, Stand.runs) ∈ line := h.mem_line hi (by simp [hps, hstays])
    have hline := h.lined.eq_cons_of_runs hmem
    generalize line.tail = rest at hline
    subst hline
    refine ⟨rest, h.changed hi htasks hother (updated _) ?_ ?_ (h.told.ended h.lined.numbers) ?_⟩
    · simpa [hss, hstays] using hlength
    · rw [hq]
      exact h.lined.release
    · intro others hothers
      rw [hps, hstays, List.zip_cons_cons, List.cons_append] at hothers
      simp only [Function.update_self, hss]
      exact hothers.cons_inv

/-- **Places are left.**  A thread that is given up leaves its places one after another, and
the jobs in them are dropped. -/
theorem left {q : Queue} {log : List Entry} {total : Nat} {ns : List Nat} {ps : List Stand}
    {others : Line} (hlined : line.Of q total) (htold : Ledger.Tells log line total)
    (hfew : q.signals < UInt64.size) (hlength : ns.length = ps.length)
    (hperm : (ns.zip ps ++ others).Perm line) :
    ∃ line', line'.Of (ps.foldl Queue.leave q) total ∧
      Ledger.Tells (Ledger.dropAll ns log) line' total ∧
      others.Perm line' := by
  induction ps generalizing q log ns line with
  | nil =>
    obtain rfl := List.length_eq_zero_iff.1 hlength
    exact ⟨line, hlined, htold, hperm⟩
  | cons p ps ih =>
    obtain ⟨n, ns, rfl⟩ := List.exists_cons_of_length_eq_add_one hlength
    rw [List.zip_cons_cons, List.cons_append] at hperm
    have hmem : (n, p) ∈ line := hperm.subset List.mem_cons_self
    obtain ⟨pre, post, rfl, hleft⟩ := hlined.leave hmem hfew
    have hnumbers := hlined.numbers
    have hrest : (ns.zip ps ++ others).Perm (pre ++ post) := (hperm.trans List.perm_middle).cons_inv
    have htail : ns.length = ps.length := Nat.succ.inj hlength
    have hstep := ih hleft (htold.dropped hnumbers) (by simpa using hfew) htail hrest
    exact hstep

/-- **A task is given up.** -/
theorem givenUp (h : Standing queue c l line) (hfew : (c.world.queues queue).signals < UInt64.size)
    (i : Nat) :
    ∃ line', Standing queue (c.giveUp i) (l.giveUp i) line' := by
  cases ht : c.thread? i with
  | none =>
    have hnone : l.stays i = [] := by
      have hlength := h.lengths i
      rw [Crew.placesOf_of_gone ht] at hlength
      exact List.length_eq_zero_iff.1 hlength
    have hsame : l.giveUp i = l := by
      have hstays : Function.update l.stays i [] = l.stays :=
        hnone ▸ Function.update_eq_self i l.stays
      rw [Ledger.giveUp, hstays, hnone]
      rfl
    have hcrew : c.giveUp i = c := by simp [Crew.giveUp, ht]
    exact ⟨line, by rwa [hsame, hcrew]⟩
  | some t =>
    have hi := c.lt_of_thread? ht
    have hcrew : c.giveUp i = c.put i none (t.cancel c.world) := by
      simp [Crew.giveUp, ht]
    have hplaces : c.placesOf queue i = t.places queue := Crew.placesOf_of_thread? ht
    have hother : ∀ j, j ≠ i → (c.giveUp i).placesOf queue j = c.placesOf queue j :=
      fun j hj => Crew.placesOf_giveUp_of_ne hj queue c
    have hstays : ∀ j, j ≠ i → (l.giveUp i).stays j = l.stays j :=
      fun j hj => Ledger.stays_giveUp_of_ne hj l
    have hself : (l.giveUp i).stays i = [] := l.stays_giveUp_self i
    have hqueue : (c.giveUp i).world.queues queue
        = (t.places queue).foldl Queue.leave (c.world.queues queue) := by
      rw [hcrew]
      exact t.queues_cancel c.world queue
    have hlength : (l.stays i).length = (t.places queue).length := hplaces ▸ h.lengths i
    obtain ⟨others, hbefore, hbehind⟩ := h.exists_others hi
    rw [hplaces] at hbefore
    obtain ⟨line', hlined, htold, hothers⟩ := left h.lined h.told hfew hlength hbefore
    refine ⟨line', hqueue ▸ hlined, htold, fun j => ?_, ?_⟩
    · by_cases hj : j = i
      · rw [hj, hself, Crew.placesOf_giveUp_self]
        rfl
      · rw [hstays j hj, hother j hj, h.lengths]
    · have hjobs := hbehind (c.giveUp i) (l.giveUp i) (c.length_giveUp i) hother hstays
      rw [hself, List.zip_nil_left, List.nil_append] at hjobs
      exact hjobs.trans hothers

/-- **A task goes.** -/
theorem gone (h : Standing queue c l line) (i : Nat) :
    ∃ line', Standing queue (c.go i) (l.note queue (.go i : Act η α) c) line' := by
  rcases Nat.lt_or_ge i c.tasks.length with hi | hi
  · obtain ⟨deed, hpass, hnote⟩ := c.passes_go queue i
    rw [hnote]
    exact h.moved hi (c.length_go i) (fun j hj => Crew.placesOf_go_of_ne hj queue c) hpass
  · have hnone := Crew.thread?_of_length_le hi
    have hnote : l.note queue (.go i : Act η α) c = l := by simp [Ledger.note, hnone]
    rw [hnote, Crew.go_of_gone hnone]
    exact ⟨line, h⟩

/-- A task is created: it stands nowhere yet. -/
theorem spawned (h : Standing queue c l line) (name : String) (p : Program η α) :
    Standing queue (c.spawn name p) l line := by
  have hbeyond : c.placesOf queue c.tasks.length = [] :=
    Crew.placesOf_of_gone (Crew.thread?_of_length_le (Nat.le_refl _))
  have hjobs : (c.spawn name p).jobs queue l = c.jobs queue l := by
    have hlength : (c.spawn name p).tasks.length = c.tasks.length + 1 := by simp [Crew.spawn]
    simp [Crew.jobs, hlength, List.range_succ, hbeyond]
  exact {
    lined := h.lined
    told := h.told
    lengths := fun i => by rw [h.lengths, Crew.placesOf_spawn]
    jobs := hjobs ▸ h.jobs }

/-- Where the tasks stand is where the jobs in the line stand. -/
theorem perm_places (h : Standing queue c l line) : (c.places queue).Perm (line.map Prod.snd) := by
  have hplaces : c.places queue = (c.jobs queue l).map Prod.snd := by
    rw [Crew.places, Crew.jobs, List.map_flatMap]
    refine congrArg (fun f => (List.range c.tasks.length).flatMap f) (funext fun i => ?_)
    exact (List.map_snd_zip (Nat.le_of_eq (h.lengths i).symm)).symm
  exact hplaces ▸ h.jobs.map Prod.snd

/-- At most one job runs. -/
theorem one_runs (h : Standing queue c l line) : c.running queue ≤ 1 := by
  rw [Crew.running, h.perm_places.count_eq]
  cases line with
  | nil => exact Nat.zero_le 1
  | cons j rest =>
    have hbehind : (rest.map Prod.snd).count .runs = 0 := by
      refine List.count_eq_zero.2 fun hmem => ?_
      obtain ⟨i, hi, hruns⟩ := List.mem_map.1 hmem
      exact h.lined.behind i hi hruns
    rw [List.map_cons, List.count_cons, hbehind]
    split <;> omega

/-- **Nobody is lost.**  The wait of a job is over when all that came before it are gone. -/
theorem isOver (h : Standing queue c l line) {i n : Nat} {w : Waiter}
    (hn : (n, .waits w) ∈ (l.stays i).zip (c.placesOf queue i))
    (hbefore : ∀ m < n, Ledger.Gone m l.log) :
    (c.world.queues queue).isOver w = true := by
  have hi : i < c.tasks.length := by
    by_contra hi
    have hnone : c.placesOf queue i = [] :=
      Crew.placesOf_of_gone (Crew.thread?_of_length_le (Nat.le_of_not_lt hi))
    simp [hnone] at hn
  have hmem := h.mem_line hi hn
  rcases h.lined.eq_cons_or_mem_waiting hmem with heq | ⟨htail, _⟩
  · exact h.lined.isOver_of_first heq
  · obtain ⟨j, rest, rfl⟩ : ∃ j rest, line = j :: rest := by
      cases line with
      | nil => simp at hmem
      | cons j rest => exact ⟨j, rest, rfl⟩
    have hlt : j.1 < n := (List.pairwise_cons.1 h.lined.numbers).1 n (List.mem_map_of_mem htail)
    have hlive := (h.told.lives j.1 List.mem_cons_self).2
    exact absurd (hbefore j.1 hlt) hlive

/-- **One act.** -/
theorem perform (h : Standing queue c l line) (hfew : (c.world.queues queue).signals < UInt64.size)
    (a : Act η α) :
    ∃ line', Standing queue (c.perform a) (l.note queue a c) line' := by
  cases a with
  | spawn name p => exact ⟨line, h.spawned name p⟩
  | go i => exact h.gone i
  | drop i => exact h.givenUp hfew i
  | outside o => exact ⟨line, h.of_eq (congrFun (o.queues_apply c.world) queue) rfl fun _ => rfl⟩

end Standing

namespace Crew

/-- A task that stands somewhere is there. -/
theorem exists_thread?_of_mem {queue i : Nat} {c : Crew η α} {p : Stand}
    (h : p ∈ c.placesOf queue i) :
    ∃ t, c.thread? i = some t ∧ p ∈ t.places queue := by
  unfold placesOf at h
  cases ht : c.thread? i with
  | none => simp [ht] at h
  | some t => exact ⟨t, rfl, by simpa [ht] using h⟩

/-- Where at most one job runs, it runs in one task. -/
theorem eq_of_runs {queue i j : Nat} {c : Crew η α} (hone : c.running queue ≤ 1)
    (hi : .runs ∈ c.placesOf queue i) (hj : .runs ∈ c.placesOf queue j) : i = j := by
  have lt : ∀ k, Stand.runs ∈ c.placesOf queue k → k < c.tasks.length := by
    intro k hk
    obtain ⟨t, ht, _⟩ := exists_thread?_of_mem hk
    exact lt_of_thread? ht
  by_cases hij : i = j
  · exact hij
  · exfalso
    have hfirst := List.perm_cons_erase (List.mem_range.2 (lt i hi))
    have hmem : j ∈ (List.range c.tasks.length).erase i :=
      (List.mem_erase_of_ne (Ne.symm hij)).2 (List.mem_range.2 (lt j hj))
    have hboth := hfirst.trans ((List.perm_cons_erase hmem).cons i)
    have hplaces := hboth.flatMap_right fun k => c.placesOf queue k
    have hcount := hplaces.count_eq .runs
    rw [List.flatMap_cons, List.flatMap_cons, List.count_append, List.count_append] at hcount
    have hiruns := List.count_pos_iff.2 hi
    have hjruns := List.count_pos_iff.2 hj
    rw [running, places] at hone
    omega

/-- Tickets are not taken back. -/
theorem signals_perform_le (queue : Nat) (c : Crew η α) (a : Act η α) :
    (c.world.queues queue).signals ≤ ((c.perform a).world.queues queue).signals :=
  world_perform (R := fun w v : World η => (w.queues queue).signals ≤ (v.queues queue).signals)
    (fun _ => Nat.le_refl _) (fun _ _ _ => Nat.le_trans) (fun _ _ h => h.signals_le queue)
    c fun o _ => by simp only [o.queues_apply, Nat.le_refl]

variable {queue : Nat} {w : World η}

/-- Nor in a whole history. -/
theorem signals_le_of_suffix (queue : Nat) (c : Crew η α) {h past : List (Act η α)}
    (hh : h <:+ past) :
    ((c.after h).world.queues queue).signals ≤ ((c.after past).world.queues queue).signals := by
  obtain ⟨later, rfl⟩ := hh
  induction later with
  | nil => exact Nat.le_refl _
  | cons a later ih => exact Nat.le_trans ih (signals_perform_le queue (c.after (later ++ h)) a)

/-- **All histories.**  A queue that starts idle is in order however the history goes. -/
theorem standing (hidle : w.queues queue = Queue.idle) (past : List (Act η α))
    (hfew : (((ofWorld w).after past).world.queues queue).signals < UInt64.size) :
    ∃ line, Standing queue ((ofWorld w).after past) ((ofWorld w).ledger queue past) line := by
  induction past with
  | nil => exact ⟨[], Standing.start hidle⟩
  | cons a past ih =>
    have hbefore :=
      Nat.lt_of_le_of_lt (signals_le_of_suffix queue (ofWorld w) (List.suffix_cons a past)) hfew
    obtain ⟨line, hline⟩ := ih hbefore
    exact hline.perform hbefore a

/-! ### Three tasks -/

/-- A job that waits until the host is ready. -/
def patient : Program Bool Unit :=
  .queued 0 (.awaiting fun ready => if ready then some ((), ready) else none)

/-- Three jobs come, and the first has the slot; the second task is given up. -/
def arrivals : List (Act Bool Unit) :=
  [.drop 1, .go 2, .go 1, .go 0, .spawn "third" patient, .spawn "second" patient,
    .spawn "first" patient]

/-- The host is ready, the first job ends, and the third begins. -/
def handOver : List (Act Bool Unit) :=
  [.go 2, .go 0, .go 0, .outside (.host fun _ => true), .go 0]

/-- **One job at a time.**  Whatever the tasks do and in whatever order they are resumed, end,
break down and are given up, at most one job of a queue is started and has not ended. -/
theorem running_le_one (hidle : w.queues queue = Queue.idle) (past : List (Act η α))
    (hfew : (((ofWorld w).after past).world.queues queue).signals < UInt64.size) :
    ((ofWorld w).after past).running queue ≤ 1 := by
  obtain ⟨line, hline⟩ := standing hidle past hfew
  exact hline.one_runs

/-- Of three jobs one has begun. -/
theorem running_le_one_arrivals :
    ((Crew.ofWorld (.start false)).after arrivals).tasks.length = 3 ∧
      ((Crew.ofWorld (.start false)).after arrivals).running 0 ≤ 1 :=
  ⟨rfl, running_le_one rfl arrivals (by decide)⟩

/-- **First come, first served.**  Jobs are numbered as they come.  They begin in that
order, each once, each after all that came before it have ended or were dropped; who is
passed over was dropped; and a job that waits has been woken once all that came before it
are gone. -/
theorem first_come_first_served (hidle : w.queues queue = Queue.idle) (past : List (Act η α))
    (hfew : (((ofWorld w).after past).world.queues queue).signals < UInt64.size) :
    (∀ later n earlier, ((ofWorld w).ledger queue past).log = later ++ ⟨n, .came⟩ :: earlier →
      ∀ m, ⟨m, .came⟩ ∈ earlier ↔ m < n) ∧
    (∀ later n earlier, ((ofWorld w).ledger queue past).log = later ++ ⟨n, .began⟩ :: earlier →
      Ledger.Served n earlier later) ∧
    ∀ i n place,
      (n, .waits place) ∈
        (((ofWorld w).ledger queue past).stays i).zip (((ofWorld w).after past).placesOf queue i) →
      (∀ m < n, Ledger.Gone m ((ofWorld w).ledger queue past).log) →
      (((ofWorld w).after past).world.queues queue).isOver place = true := by
  obtain ⟨line, hline⟩ := standing hidle past hfew
  have horderly := hline.told.orderly
  refine ⟨fun later n earlier hlog => ?_, fun later n earlier hlog => ?_,
    fun i n place => hline.isOver⟩
  · rw [hlog] at horderly
    exact horderly.split.1
  · rw [hlog] at horderly
    exact horderly.served

/-- The second job was dropped, and the third begins in its turn. -/
theorem third_served :
    Ledger.Served 2
      [⟨0, .ended⟩, ⟨1, .dropped⟩, ⟨2, .came⟩, ⟨1, .came⟩, ⟨0, .began⟩, ⟨0, .came⟩] [] :=
  (@first_come_first_served Bool Unit 0 (.start false) rfl (handOver ++ arrivals) (by decide)).2.1
    [] 2 _ rfl

end Crew

end WalletGate
