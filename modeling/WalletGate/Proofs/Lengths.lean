import Mathlib.Data.List.Chain
import WalletGate.Proofs.Admission

/-!
# The length that is published

Whoever watches the length of a queue is told of each change and of nothing else.  A job
that comes makes the queue longer by one and is told once, and so is a job that leaves; a
job that goes on with a slot it was given is not told at all.  So what was published last is
the length, and each time something is published it is one more or one less than before.

That holds not only between the acts of a history.  A task that is given up gives back what
it holds one thing after another, and `Thread.givingUp` lists the worlds it passes through
on the way, each with the places the task still has there; `Crew.moments` lists those of a
whole history.

* `Queue.Announced` — what was published is the length, once for each job that came and once
  for each that left;
* `Manned.leave`, `Announced.leave` — a place is left, and that is told;
* `Thread.told_givingUp`, `Standing.passing_perform` — the moments of a task that is given
  up and of an act;
* `Crew.length_published` — all histories.
-/

namespace WalletGate

variable {η α : Type}

namespace Queue

/-- What was published last is the length; so far something was published once for each job
that came and once for each that left. -/
structure Announced (q : Queue) (came : Nat) : Prop where
  published : q.published = q.length
  publications : q.publications + q.length = 2 * came

/-- From one moment to the next nothing was published and the length is the same, or it was
published once and is one more or one less. -/
def Notifies (q q' : Queue) : Prop :=
  (q'.publications = q.publications ∧ q'.published = q.published) ∨
  (q'.publications = q.publications + 1 ∧
    (q'.published = q.published + 1 ∨ q.published = q'.published + 1))

theorem notifies_refl (q : Queue) : q.Notifies q := .inl ⟨rfl, rfl⟩

variable {q p : Queue} {came : Nat}

/-- **A job comes**, and that is told. -/
theorem Announced.enter (h : q.Announced came) :
    q.enter.2.1.Announced (came + 1) ∧ q.Notifies q.enter.2.1 := by
  have hlength := q.length_enter
  have hpublished : q.enter.2.1.published = q.enter.2.1.length ∧ q.enter.2.1.publications
      = q.publications + 1 := by
    unfold Queue.enter
    split <;> exact ⟨rfl, rfl⟩
  obtain ⟨hsame, hcount⟩ := h
  exact ⟨⟨hpublished.1, by omega⟩, .inr ⟨hpublished.2, by omega⟩⟩

/-- A job goes on, and nothing is told. -/
theorem Announced.goOn (h : q.Announced came) (w : Waiter) :
    (q.goOn w).1.Announced came ∧ q.Notifies (q.goOn w).1 :=
  ⟨⟨h.published, h.publications⟩, .inl ⟨rfl, rfl⟩⟩

/-- Whoever gives the slot up tells it. -/
theorem published_release (q : Queue) :
    q.release.1.published = q.release.1.length ∧ q.release.1.publications = q.publications + 1 := by
  unfold release
  split <;> exact ⟨rfl, rfl⟩

/-- Whoever leaves a place tells it, or the queue is as long as before. -/
theorem published_leave (q : Queue) (p : Stand) :
    ((q.leave p).published = (q.leave p).length ∧ (q.leave p).publications = q.publications + 1) ∨
      (q.leave p).length = q.length := by
  cases p with
  | runs => exact .inl q.published_release
  | waits w =>
    simp only [leave, abandon]
    split
    · exact .inl ⟨rfl, rfl⟩
    · split
      · exact .inl q.published_release
      · exact .inr rfl

end Queue

/-! ### Places in front of a queue -/

/-- The queue of a line is as long as the line. -/
theorem Line.Of.length_eq {line : Line} {q : Queue} {came : Nat} (h : line.Of q came) :
    q.length = line.length := by
  have hall : ∀ l : Line, (∀ j ∈ l, j.2 ≠ .runs) → l.waiters.length = l.length := by
    intro l hl
    induction l with
    | nil => rfl
    | cons j l ih =>
      obtain ⟨n, _ | w⟩ := j
      · exact absurd rfl (hl _ List.mem_cons_self)
      · have hrest := ih fun j hj => hl j (List.mem_cons_of_mem _ hj)
        simpa [waiters, Stand.waiter?] using hrest
  have hwaiting := hall line.tail h.behind
  rw [h.waiting] at hwaiting
  rw [Queue.length, hwaiting, h.active]
  cases line <;> simp

/-- In front of a queue to which so many jobs have come stand jobs in these places,
innermost first, and so many others. -/
def Manned (q : Queue) (came : Nat) (ps : List Stand) (others : Nat) : Prop :=
  ∃ (line : Line) (ns : List Nat) (rest : Line),
    line.Of q came ∧ ns.length = ps.length ∧ (ns.zip ps ++ rest).Perm line ∧ rest.length = others

variable {q : Queue} {came others : Nat} {p : Stand} {ps : List Stand}

/-- The queue is as long as there are jobs in front of it. -/
theorem Manned.length_eq (h : Manned q came ps others) : q.length = ps.length + others := by
  obtain ⟨line, ns, rest, hlined, hlength, hperm, rfl⟩ := h
  have hzip : (ns.zip ps).length = ps.length := by
    rw [List.length_zip, hlength, Nat.min_self]
  rw [hlined.length_eq, ← hperm.length_eq, List.length_append, hzip]

/-- **The innermost place is left.** -/
theorem Manned.leave (h : Manned q came (p :: ps) others) (hfew : q.signals < UInt64.size) :
    Manned (q.leave p) came ps others := by
  obtain ⟨line, ns, rest, hlined, hlength, hperm, hrest⟩ := h
  obtain ⟨n, ns, rfl⟩ := List.exists_cons_of_length_eq_add_one hlength
  rw [List.zip_cons_cons, List.cons_append] at hperm
  obtain ⟨pre, post, rfl, hleft⟩ := hlined.leave (hperm.subset List.mem_cons_self) hfew
  exact ⟨pre ++ post, ns, rest, hleft, Nat.succ.inj hlength,
    (hperm.trans List.perm_middle).cons_inv, hrest⟩

/-- **That is told.** -/
theorem Queue.Announced.leave (ha : q.Announced came) (h : Manned q came (p :: ps) others)
    (hfew : q.signals < UInt64.size) : (q.leave p).Announced came ∧ q.Notifies (q.leave p) := by
  have hbefore := h.length_eq
  have hafter := (h.leave hfew).length_eq
  rw [List.length_cons] at hbefore
  obtain ⟨hsame, hcount⟩ := ha
  rcases q.published_leave p with ⟨hpublished, hpublications⟩ | hlength
  · exact ⟨⟨hpublished, by omega⟩, .inr ⟨hpublications, by omega⟩⟩
  · omega

/-! ### A thread is given up -/

namespace Thread

/-- The worlds a thread passes through when it is given up, latest first, each with the
places it still has in front of a queue; further out stand these places. -/
def givingUp (key : Nat) {α : Type} :
    Thread η α → List Stand → World η → List (World η × List Stand)
  | fresh _, outer, w => [(w, outer)]
  | held _ _, outer, w => [(w, outer)]
  | asking requester _ request _, outer, w => [(w.leave requester request.id, outer), (w, outer)]
  | waiting queue place _ _, outer, w =>
    [(w.abandon queue place, outer), (w, (if queue = key then [.waits place] else []) ++ outer)]
  | holding queue inner _, outer, w =>
    ((inner.cancel w).release queue, outer) ::
      inner.givingUp key ((if queue = key then [.runs] else []) ++ outer) w

/-- It comes to the world behind it, and only the places further out are left. -/
theorem head?_givingUp (key : Nat) (t : Thread η α) (outer : List Stand) (w : World η) :
    (t.givingUp key outer w).head? = some (t.cancel w, outer) := by
  cases t <;> rfl

/-- It starts from the world before it, with all its places. -/
theorem getLast?_givingUp (key : Nat) (t : Thread η α) (outer : List Stand) (w : World η) :
    (t.givingUp key outer w).getLast? = some (w, t.places key ++ outer) := by
  induction t generalizing outer with
  | fresh p => rfl
  | held step next => rfl
  | asking requester deadline request next => rfl
  | waiting queue place job next => rfl
  | holding queue inner next ih =>
    rw [givingUp, List.getLast?_cons, ih, Option.getD_some, places, List.append_assoc]

end Thread

/-- Places in front of a queue, and what was published of it. -/
def Told (key came others : Nat) (m : World η × List Stand) : Prop :=
  Manned (m.1.queues key) came m.2 others ∧ (m.1.queues key).Announced came

/-- From one moment to a later one. -/
def Follows (key : Nat) {β : Type} (later earlier : World η × β) : Prop :=
  (earlier.1.queues key).Notifies (later.1.queues key)

/-- A place is left, or it is a place in front of another queue. -/
theorem Told.leave {key : Nat} {w v : World η} {outer : List Stand} (inFront : Prop)
    [Decidable inFront]
    (h : Told key came others (w, (if inFront then [p] else []) ++ outer))
    (hqueue : v.queues key = if inFront then (w.queues key).leave p else w.queues key)
    (hfew : (w.queues key).signals < UInt64.size) :
    Told key came others (v, outer) ∧ (w.queues key).Notifies (v.queues key) ∧
      (v.queues key).signals = (w.queues key).signals := by
  obtain ⟨hmanned, htold⟩ := h
  dsimp only at hmanned htold
  unfold Told
  dsimp only
  rw [hqueue]
  by_cases hfront : inFront
  · rw [if_pos hfront] at hmanned ⊢
    obtain ⟨hannounced, hnotifies⟩ := htold.leave hmanned hfew
    exact ⟨⟨hmanned.leave hfew, hannounced⟩, hnotifies, Queue.signals_leave _ p⟩
  · rw [if_neg hfront] at hmanned ⊢
    exact ⟨⟨hmanned, htold⟩, Queue.notifies_refl _, rfl⟩

theorem World.queues_abandon (queue key : Nat) (place : Waiter) (w : World η) :
    (w.abandon queue place).queues key = if queue = key then (w.queues key).leave (.waits place)
    else w.queues key := by
  by_cases hq : queue = key
  · subst hq
    simp [Queue.leave]
  · simp [hq, World.queues_abandon_of_ne hq]

theorem World.queues_release (queue key : Nat) (w : World η) :
    (w.release queue).queues key = if queue = key then (w.queues key).leave .runs
    else w.queues key := by
  by_cases hq : queue = key
  · subst hq
    simp [Queue.leave]
  · simp [hq, World.queues_release_of_ne hq]

/-- **A thread is given up, place by place**, and each that is left is told. -/
theorem Thread.told_givingUp {key : Nat} (t : Thread η α) {outer : List Stand} {w : World η}
    (h : Told key came others (w, t.places key ++ outer))
    (hfew : (w.queues key).signals < UInt64.size) :
    (∀ m ∈ t.givingUp key outer w, Told key came others m) ∧
    (t.givingUp key outer w).IsChain (Follows key) ∧
      ((t.cancel w).queues key).signals = (w.queues key).signals := by
  induction t generalizing outer with
  | fresh p => exact ⟨by simpa [givingUp, places] using h, .singleton _, rfl⟩
  | held step next => exact ⟨by simpa [givingUp, places] using h, .singleton _, rfl⟩
  | asking requester deadline request next =>
    have hqueues : (w.leave requester request.id).queues = w.queues := rfl
    refine ⟨?_, ?_, rfl⟩
    · simpa [givingUp, places, Told, hqueues] using h
    · exact List.isChain_pair.2 (Queue.notifies_refl _)
  | waiting queue place job next =>
    have hstep := h.leave (queue = key) (w.queues_abandon queue key place) hfew
    refine ⟨?_, ?_, hstep.2.2⟩
    · intro m hm
      rcases List.mem_pair.1 hm with rfl | rfl
      · exact hstep.1
      · exact h
    · exact List.isChain_pair.2 hstep.2.1
  | holding queue inner next ih =>
    rw [places, List.append_assoc] at h
    obtain ⟨hall, hchain, hsignals⟩ := ih h
    have hinner := hall _ (List.mem_of_mem_head? (inner.head?_givingUp key _ w))
    have hstep := hinner.leave (queue = key) ((inner.cancel w).queues_release queue key)
      (hsignals ▸ hfew)
    refine ⟨?_, ?_, hstep.2.2.trans hsignals⟩
    · intro m hm
      rcases List.mem_cons.1 hm with rfl | hm
      · exact hstep.1
      · exact hall m hm
    · refine List.isChain_cons.2 ⟨fun m hm => ?_, hchain⟩
      rw [inner.head?_givingUp] at hm
      obtain rfl := Option.some.inj hm
      exact hstep.2.1

/-! ### Histories -/

namespace Ledger

@[simp] theorem came_begin (i : Nat) (l : Ledger) : (l.begin i).came = l.came := by
  unfold begin
  split <;> rfl

@[simp] theorem came_finish (i : Nat) (l : Ledger) : (l.finish i).came = l.came := by
  unfold finish
  split <;> rfl

end Ledger

/-- **A move is told**, if a job comes or ends with it. -/
theorem Passes.announced {key i : Nat} {q' : Queue} {deed : Option (Nat × Deed)} {ss : List Stand}
    {l : Ledger} (h : Passes key q deed ps ss q') (hmanned : Manned q l.came ps others)
    (htold : q.Announced l.came)
    (hfew : q.signals < UInt64.size) : q'.Announced (l.follow key i deed).came ∧ q.Notifies q' := by
  cases h with
  | elsewhere hdeed =>
    have hfollow : l.follow key i deed = l := by
      rcases deed with _ | ⟨other, d⟩
      · rfl
      · have hother : other ≠ key := fun hother => hdeed d (hother ▸ rfl)
        rw [Ledger.follow, if_neg hother]
    rw [hfollow]
    exact ⟨htold, q.notifies_refl⟩
  | came hplace =>
    rw [Ledger.follow, if_pos rfl]
    exact htold.enter
  | cameIn hplace =>
    rw [Ledger.follow, if_pos rfl, Ledger.record, Ledger.came_begin]
    exact htold.enter
  | @began _ w hover =>
    rw [Ledger.follow, if_pos rfl, Ledger.record, Ledger.came_begin]
    exact htold.goOn w
  | ended =>
    rw [Ledger.follow, if_pos rfl, Ledger.record, Ledger.came_finish]
    exact htold.leave hmanned hfew

namespace Standing

variable {queue : Nat} {c : Crew η α} {l : Ledger} {line : Line}

/-- The queue is as long as there are places in front of it. -/
theorem length_eq (h : Standing queue c l line) :
    (c.world.queues queue).length = (c.places queue).length := by
  rw [h.lined.length_eq, h.perm_places.length_eq, List.length_map]

/-- A task and the others stand in front of the queue. -/
theorem manned (h : Standing queue c l line) (hfew : (c.world.queues queue).signals < UInt64.size)
    {i : Nat} (hi : i < c.tasks.length) :
    Manned (c.world.queues queue) l.came (c.placesOf queue i)
      ((c.giveUp i).places queue).length := by
  obtain ⟨others, hbefore, hbehind⟩ := h.exists_others hi
  refine ⟨line, l.stays i, others, h.lined, h.lengths i, hbefore, ?_⟩
  obtain ⟨line', hgone⟩ := h.givenUp hfew i
  have hothers := hbehind (c.giveUp i) (l.giveUp i) (c.length_giveUp i)
    (fun j hj => Crew.placesOf_giveUp_of_ne hj queue c) (fun j hj => Ledger.stays_giveUp_of_ne hj l)
  rw [l.stays_giveUp_self, List.zip_nil_left, List.nil_append] at hothers
  rw [hgone.perm_places.length_eq, List.length_map, ← hgone.jobs.length_eq, hothers.length_eq]

end Standing

namespace Crew

/-- The worlds an act passes through, latest first, each with the number of jobs that have
come to a queue and neither ended nor were dropped. -/
def passing (queue : Nat) (a : Act η α) (c : Crew η α) : List (World η × Nat) :=
  match a with
  | .drop i =>
    match c.thread? i with
    | some t =>
      (t.givingUp queue [] c.world).map fun m =>
        (m.1, m.2.length + ((c.giveUp i).places queue).length)
    | none => [(c.world, (c.places queue).length)]
  | a => [((c.perform a).world, ((c.perform a).places queue).length)]

/-- The worlds a history passes through, latest first, each with the number of jobs that
have come to a queue and neither ended nor were dropped. -/
def moments (queue : Nat) (c : Crew η α) : List (Act η α) → List (World η × Nat)
  | [] => [(c.world, (c.places queue).length)]
  | a :: past => (c.after past).passing queue a ++ c.moments queue past

/-- The length at a moment is the number of jobs, and it was published. -/
def Truthful (queue : Nat) (m : World η × Nat) : Prop :=
  (m.1.queues queue).length = m.2 ∧ (m.1.queues queue).published = m.2

end Crew

namespace Standing

variable {queue : Nat} {c : Crew η α} {l : Ledger} {line : Line}

/-- **A task goes**, and what it does to the queue is told. -/
theorem announced_go (h : Standing queue c l line)
    (hfew : (c.world.queues queue).signals < UInt64.size)
    (htold : (c.world.queues queue).Announced l.came) (i : Nat) :
    ((c.go i).world.queues queue).Announced (l.note queue (.go i : Act η α) c).came ∧
      (c.world.queues queue).Notifies ((c.go i).world.queues queue) := by
  rcases Nat.lt_or_ge i c.tasks.length with hi | hi
  · obtain ⟨deed, hpass, hnote⟩ := c.passes_go queue i
    rw [hnote]
    exact hpass.announced (h.manned hfew hi) htold hfew
  · have hnone := Crew.thread?_of_length_le hi
    have hnote : l.note queue (.go i : Act η α) c = l := by simp [Ledger.note, hnone]
    rw [hnote, Crew.go_of_gone hnone]
    exact ⟨htold, Queue.notifies_refl _⟩

/-- What an act passes through: each moment is as it was published, and each is told of the
one before. -/
structure Passing (queue : Nat) (a : Act η α) (c : Crew η α) (came : Nat) : Prop where
  told : ((c.perform a).world.queues queue).Announced came
  truthful : ∀ m ∈ c.passing queue a, Crew.Truthful queue m
  chain : (c.passing queue a).IsChain (Follows queue)
  before : ∀ m ∈ (c.passing queue a).getLast?, (c.world.queues queue).Notifies (m.1.queues queue)
  behind : (c.passing queue a).head?
    = some ((c.perform a).world, ((c.perform a).places queue).length)

/-- An act that passes through nothing else. -/
theorem passing_of_eq {line' : Line} {a : Act η α} {l' : Ledger}
    (h : Standing queue (c.perform a) l' line')
    (hpassing : c.passing queue a = [((c.perform a).world, ((c.perform a).places queue).length)])
    (htold : ((c.perform a).world.queues queue).Announced l'.came)
    (hnotifies : (c.world.queues queue).Notifies ((c.perform a).world.queues queue)) :
    Passing queue a c l'.came where
  told := htold
  truthful := by
    intro m hm
    rw [hpassing, List.mem_singleton] at hm
    subst hm
    exact ⟨h.length_eq, htold.published.trans h.length_eq⟩
  chain := hpassing ▸ .singleton _
  before := by
    intro m hm
    rw [hpassing] at hm
    obtain rfl := Option.some.inj hm
    exact hnotifies
  behind := by rw [hpassing]; rfl

/-- **A task is given up**, and each place it leaves is told. -/
theorem passing_drop (h : Standing queue c l line)
    (hfew : (c.world.queues queue).signals < UInt64.size)
    (htold : (c.world.queues queue).Announced l.came) (i : Nat) :
    Passing queue (.drop i : Act η α) c l.came := by
  cases ht : c.thread? i with
  | none =>
    have hcrew : c.perform (.drop i : Act η α) = c := by simp [Crew.perform, Crew.giveUp, ht]
    have hline : Standing queue (c.perform (.drop i : Act η α)) l line := hcrew.symm ▸ h
    refine passing_of_eq hline ?_ (hcrew.symm ▸ htold) ?_
    · rw [hcrew]
      simp [Crew.passing, ht]
    · rw [hcrew]
      exact Queue.notifies_refl _
  | some t =>
    have hcrew : c.perform (.drop i : Act η α) = c.put i none (t.cancel c.world) := by
      simp [Crew.perform, Crew.giveUp, ht]
    have hpassing : c.passing queue (.drop i) = (t.givingUp queue [] c.world).map fun m =>
        (m.1, m.2.length + ((c.giveUp i).places queue).length) := by simp [Crew.passing, ht]
    have hmanned := h.manned hfew (Crew.lt_of_thread? ht)
    rw [Crew.placesOf_of_thread? ht, ← List.append_nil (t.places queue)] at hmanned
    have hstart : Told queue l.came _ (c.world, t.places queue ++ []) := ⟨hmanned, htold⟩
    obtain ⟨hall, hchain, -⟩ := t.told_givingUp hstart hfew
    have hhead := t.head?_givingUp queue [] c.world
    have hlast := t.getLast?_givingUp queue [] c.world
    refine ⟨?_, ?_, ?_, ?_, ?_⟩
    · rw [hcrew, Crew.world_put]
      exact (hall _ (List.mem_of_mem_head? hhead)).2
    · intro m hm
      rw [hpassing] at hm
      obtain ⟨moment, hmoment, rfl⟩ := List.mem_map.1 hm
      obtain ⟨hplaces, hpublished⟩ := hall moment hmoment
      exact ⟨hplaces.length_eq, hpublished.published.trans hplaces.length_eq⟩
    · rw [hpassing, List.isChain_map]
      exact hchain
    · intro m hm
      rw [hpassing, List.getLast?_map, hlast] at hm
      obtain rfl := Option.some.inj hm
      exact Queue.notifies_refl _
    · rw [hpassing, List.head?_map, hhead, hcrew, Crew.world_put]
      simp [Crew.giveUp, ht]

/-- **One act.** -/
theorem passing_perform (h : Standing queue c l line)
    (hfew : (c.world.queues queue).signals < UInt64.size)
    (htold : (c.world.queues queue).Announced l.came) (a : Act η α) :
    Passing queue a c (l.note queue a c).came := by
  obtain ⟨line', hline⟩ := h.perform hfew a
  cases a with
  | spawn name p => exact passing_of_eq hline rfl htold (Queue.notifies_refl _)
  | go i =>
    obtain ⟨hannounced, hnotifies⟩ := h.announced_go hfew htold i
    exact passing_of_eq hline rfl hannounced hnotifies
  | drop i => exact h.passing_drop hfew htold i
  | outside o =>
    have hqueues : ((c.perform (.outside o)).world.queues queue) = c.world.queues queue :=
      congrFun (o.queues_apply c.world) queue
    exact passing_of_eq hline rfl (hqueues.symm ▸ htold) (hqueues.symm ▸ Queue.notifies_refl _)

end Standing

namespace Crew

variable {queue : Nat} {w : World η}

/-- What an idle queue has published. -/
theorem announced_idle : Queue.idle.Announced 0 := ⟨rfl, rfl⟩

/-- **All histories.**  What was published is the length at every moment, and each moment is
told of the one before. -/
theorem told_moments (hidle : w.queues queue = Queue.idle) (past : List (Act η α))
    (hfew : (((ofWorld w).after past).world.queues queue).signals < UInt64.size) :
    ((((ofWorld w).after past).world.queues queue).Announced ((ofWorld w).ledger queue past).came) ∧
      (∀ m ∈ (ofWorld w : Crew η α).moments queue past, Truthful queue m) ∧
      ((ofWorld w : Crew η α).moments queue past).IsChain (Follows queue) ∧
      ((ofWorld w : Crew η α).moments queue past).head? =
        some (((ofWorld w).after past).world, (((ofWorld w).after past).places queue).length) := by
  induction past with
  | nil =>
    have hworld : (ofWorld w : Crew η α).world.queues queue = Queue.idle := hidle
    refine ⟨?_, ?_, .singleton _, rfl⟩
    · rw [after_nil, hworld]
      exact announced_idle
    · intro m hm
      obtain rfl := List.mem_singleton.1 hm
      unfold Truthful
      dsimp only
      rw [hworld]
      exact ⟨rfl, rfl⟩
  | cons a past ih =>
    have hbefore :=
      Nat.lt_of_le_of_lt (signals_le_of_suffix queue (ofWorld w) (List.suffix_cons a past)) hfew
    obtain ⟨htold, htruthful, hchain, hhead⟩ := ih hbefore
    obtain ⟨line, hline⟩ := standing hidle past hbefore
    have hact := hline.passing_perform hbefore htold a
    refine ⟨hact.told, ?_, ?_, ?_⟩
    · intro m hm
      rcases List.mem_append.1 hm with hm | hm
      · exact hact.truthful m hm
      · exact htruthful m hm
    · refine List.isChain_append.2 ⟨hact.chain, hchain, fun m hm m' hm' => ?_⟩
      rw [hhead] at hm'
      obtain rfl := Option.some.inj hm'
      exact hact.before m hm
    · rw [moments, List.head?_append, hact.behind]
      rfl

/-- **The published length is exact.**  At every moment of a history, also between the
things a task gives back that is given up, the length of a queue and what was last published
of it are the number of jobs that have come and neither ended nor were dropped; and from one
moment to the next either nothing was published and nothing changed, or it was published
once and is one more or one less.  So much was published in all: once for each job that
came, and once for each that left. -/
theorem length_published (hidle : w.queues queue = Queue.idle) (past : List (Act η α))
    (hfew : (((ofWorld w).after past).world.queues queue).signals < UInt64.size) :
    (∀ m ∈ (ofWorld w : Crew η α).moments queue past,
      (m.1.queues queue).length = m.2 ∧ (m.1.queues queue).published = m.2) ∧
    ((ofWorld w : Crew η α).moments queue past).IsChain (fun later earlier =>
      (earlier.1.queues queue).Notifies (later.1.queues queue)) ∧
    (∃ jobs : List Nat, jobs.Nodup ∧
      (∀ n, n ∈ jobs ↔ ⟨n, .came⟩ ∈ ((ofWorld w).ledger queue past).log ∧
        ¬ Ledger.Gone n ((ofWorld w).ledger queue past).log) ∧
      (((ofWorld w).after past).world.queues queue).length = jobs.length) ∧
    (((ofWorld w).after past).world.queues queue).publications
        + (((ofWorld w).after past).world.queues queue).length =
      2 * ((ofWorld w).ledger queue past).came := by
  obtain ⟨htold, htruthful, hchain, -⟩ := told_moments hidle past hfew
  obtain ⟨line, hline⟩ := standing hidle past hfew
  refine ⟨htruthful, hchain, ⟨line.map Prod.fst, ?_, fun n => ?_, ?_⟩, htold.publications⟩
  · exact hline.lined.numbers.imp fun hlt => Nat.ne_of_lt hlt
  · rw [hline.told.arrivals]
    constructor
    · exact hline.told.lives n
    · rintro ⟨hcame, hgone⟩
      exact (hline.told.stands n hcame).resolve_left hgone
  · rw [hline.lined.length_eq, List.length_map]

/-- A job in whose turn another job of the same queue comes. -/
def nested : Program Bool Unit :=
  .queued 0 patient

/-- The outer job begins, the inner one comes and has to wait, and the task is given up with
both. -/
def nestedPast : List (Act Bool Unit) :=
  [.drop 0, .go 0, .go 0, .spawn "nested" nested]

/-- The two places are left one after the other, and each is told. -/
theorem length_published_nested :
    ((ofWorld (.start false) : Crew Bool Unit).moments 0 nestedPast).map Prod.snd
      = [0, 1, 2, 2, 1, 0, 0] ∧
      ∀ m ∈ (ofWorld (.start false) : Crew Bool Unit).moments 0 nestedPast,
      (m.1.queues 0).published = m.2 :=
  ⟨by decide, fun m hm => ((length_published rfl nestedPast (by decide)).1 m hm).2⟩

end Crew

end WalletGate
