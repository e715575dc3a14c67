import WalletGate.Proofs.Alone
import WalletGate.Proofs.Roll
import WalletGate.Proofs.Story

/-!
# Queued requests take turns

A wallet runs: sites send requests, the tasks of the requests move and wait, the user
decides, time passes, tasks are given up while they wait.  Nobody else touches the networks,
and requests are queued all along (`Wallet.Run`).

The tasks on the roll of the queue take turns.  Before its turn a task has asked nothing and
heard nothing.  In its turn its job goes along the course of its request from the registry
that those before it left.  Behind its turn it has left its effect, and its end is the one
the course says (`Wallet.Phase`).  The registry is the one that all of them left, unless
somebody is in its turn.

One act keeps all of this (`Wallet.InTurn`), so a history does (`Wallet.Run.inTurn`).
-/

namespace WalletGate

variable {η α : Type}

/-! ### What nobody but the tasks touches -/

namespace Outside

/-- The registry is edited, or queueing is turned on or off. -/
def meddles : Outside η → Bool
  | setQueueing _ => true
  | bindOrigin _ _ => true
  | o => o.editsNetworks

/-- What does not meddle leaves the registry and the flag alone. -/
theorem eq_of_not_meddles {o : Outside η} (h : o.meddles = false) (w : World η) :
    (o.apply w).registry = w.registry ∧ (o.apply w).queueing = w.queueing := by
  have hdesk : ∀ act : Desk → Except Fault (Desk × List Notice),
      (w.onDesk act).2.registry = w.registry ∧ (w.onDesk act).2.queueing = w.queueing := by
    intro act
    unfold World.onDesk
    split <;> exact ⟨rfl, rfl⟩
  cases o with
  | accept id => exact hdesk _
  | reject id reason => exact hdesk _
  | rejectAll reason => exact ⟨rfl, rfl⟩
  | wait milliseconds => exact ⟨rfl, rfl⟩
  | host change => exact ⟨rfl, rfl⟩
  | setQueueing queueing => simp [meddles] at h
  | addCustom id config => simp [meddles, editsNetworks] at h
  | removeCustom id => simp [meddles, editsNetworks] at h
  | switchToBuiltIn network => simp [meddles, editsNetworks] at h
  | switchToCustom id => simp [meddles, editsNetworks] at h
  | bindOrigin origin id => simp [meddles] at h

end Outside

/-- Tasks do not turn queueing on or off. -/
theorem World.Becomes.queueing_eq {w v : World η} (h : w.Becomes v) : v.queueing = w.queueing := by
  have hregistry : ∀ act : Registry → Except Fault (Registry × Notice),
      (w.onRegistry act).2.queueing = w.queueing := by
    intro act
    unfold World.onRegistry
    split <;> rfl
  cases h with
  | called c =>
    cases c with
    | switchToBuiltIn network => exact hregistry _
    | switchToCustom id => exact hregistry _
    | bindOrigin origin id => exact hregistry _
    | _ => rfl
  | _ => rfl

/-- What is known of the order in which a queue serves tasks. -/
structure Crew.InOrder (queue : Nat) (c : Crew η α) (past : List (Act η α)) : Prop where
  served : (c.served queue past).Sublist (c.roll queue past)
  behind : (c.roll queue past).Nodup → ∀ {earlier i later},
    c.roll queue past = earlier ++ i :: later →
    i ∈ c.served queue past → ∀ j ∈ earlier, (c.after past).placesOf queue j = []
  alone : ∀ {i j}, .runs ∈ (c.after past).placesOf queue i →
    .runs ∈ (c.after past).placesOf queue j → i = j
  free : ∀ {i}, (c.after past).Starts queue i → ∀ j, .runs ∉ (c.after past).placesOf queue j

/-- **All histories** of a queue that starts idle are in order. -/
theorem Crew.inOrder {queue : Nat} {w : World η} {past : List (Act η α)}
    (hidle : w.queues queue = Queue.idle)
    (hfew : (((ofWorld w).after past).world.queues queue).signals < UInt64.size) :
    InOrder queue (ofWorld w) past where
  served := served_sublist hidle hfew
  behind := fun hnodup {_ _ _} => places_eq_nil_of_mem_served hidle hfew hnodup
  alone := by
    obtain ⟨line, hline⟩ := standing hidle past hfew
    exact eq_of_runs hline.one_runs
  free := not_runs_of_starts hidle hfew

namespace Wallet

/-! ### Runs of a wallet -/

/-- What may happen in a wallet, task number `i` being the one of the request `requests i`:
only tasks touch the networks, queueing stays on, and no task is given up while it is being
resumed. -/
def Allows (W : Wallet η) (requests : Nat → Request) (c : Crew η Response) : Act η Response → Prop
  | .spawn _ p => p = W.task (requests c.tasks.length)
  | .go _ => True
  | .drop i => ∀ t ∈ c.thread? i, t.isAtRest = true
  | .outside o => o.meddles = false

/-- Every act of a history is one of these. -/
def Keeps (W : Wallet η) (requests : Nat → Request) (c : Crew η Response) :
    List (Act η Response) → Prop
  | [] => True
  | a :: past => W.Allows requests (c.after past) a ∧ W.Keeps requests c past

/-- A history of a wallet, whose queue starts idle. -/
structure Run (W : Wallet η) (requests : Nat → Request) (w : World η)
    (past : List (Act η Response)) : Prop where
  idle : w.queues W.queue = Queue.idle
  queueing : w.queueing = true
  few : (((Crew.ofWorld w).after past).world.queues W.queue).signals < UInt64.size
  keeps : W.Keeps requests (Crew.ofWorld w) past

variable {W : Wallet η} {requests : Nat → Request} {w : World η} {past : List (Act η Response)}

/-- Tasks may move at any time. -/
theorem keeps_replicate_go {c : Crew η Response} (n i : Nat) (h : W.Keeps requests c past) :
    W.Keeps requests c (List.replicate n (.go i) ++ past) := by
  induction n with
  | zero => exact h
  | succ n ih => exact ⟨trivial, ih⟩

/-- A task may be given up that is at rest. -/
theorem keeps_drop {c : Crew η Response} {i : Nat}
    (hrest : ((c.after past).thread? i).all Thread.isAtRest = true)
    (h : W.Keeps requests c past) : W.Keeps requests c (.drop i :: past) :=
  ⟨fun t ht => by simpa [Option.mem_def.1 ht] using hrest, h⟩

/-- What was before is a history of the wallet too. -/
theorem Run.earlier {a : Act η Response} (h : W.Run requests w (a :: past)) :
    W.Run requests w past where
  idle := h.idle
  queueing := h.queueing
  few :=
    Nat.lt_of_le_of_lt
      (Crew.signals_le_of_suffix W.queue (Crew.ofWorld w) (List.suffix_cons a past)) h.few
  keeps := h.keeps.2

/-! ### Phases -/

/-- The task of a queued request, before it comes to the queue. -/
inductive Coming (W : Wallet η) (v : Visit η) : Thread η Response → Prop
  | created {next : Bool → Program η Response} (n : Notice)
    (on : next true = .call (.note n) fun _ => .enqueue W.queue (W.gate.job v) leave) :
    Coming W v (.fresh (.call .isQueueing next))
  | notes (n : Notice) :
    Coming W v (.fresh (.call (.note n) fun _ => .enqueue W.queue (W.gate.job v) leave))
  | enters : Coming W v (.fresh (.enqueue W.queue (W.gate.job v) leave))

/-- A task that has not come to the queue: its request is not queued and it only reads, or
it is about to come. -/
inductive Outsider (W : Wallet η) (request : Request) (t : Thread η Response) : Prop
  | reads (bypasses : W.visit? request = none) (only : t.OnlyReads) : Outsider W request t
  | coming {v : Visit η} (visits : W.visit? request = some v) (coming : W.Coming v t) :
    Outsider W request t

/-- What is known of a task that has not come to the queue.  It is quiet, and comes
to its end only if its request is not queued. -/
structure Apart (W : Wallet η) (request : Request) (s : Story Response)
    (t : Option (Thread η Response)) : Prop where
  quiet : s.Quiet
  ended : s.ended ≠ none → W.visit? request = none
  outsider : ∀ t' ∈ t, W.Outsider request t'

/-- A visit's job has come to this end and left this registry. -/
structure Went (W : Wallet η) (v : Visit η) (found : Registry) (s : Story Response)
    (e : TaskEnd Turn) (r : Registry) : Prop where
  comes : (W.course v found).Comes s.questions s.answers (.ends e r)
  kept : s.switched = false → r.selected = found.selected

/-- Where the task of a queued request is, and what its story tells.  It is known which
registry it finds when its turn comes, which one there is now, and whether its turn has
come. -/
inductive Phase (W : Wallet η) (v : Visit η) (found now : Registry) (s : Story Response)
    (begun : Prop) :
    Option (Thread η Response) → Prop
  | waits {place : Waiter} (yet : ¬ begun) (quiet : s.Quiet) :
    Phase W v found now s begun (some (.waiting W.queue place (W.gate.job v) leave))
  | gaveUp (yet : ¬ begun) (quiet : s.Quiet) (ended : s.ended = none) (dropped : s.dropped = true) :
    Phase W v found now s begun none
  | runs {inner : Thread η Turn} {questions : List Question} {course : Course Turn} (turn : begun)
    (comes : (W.course v found).Comes questions s.answers course)
    (asked : s.questions = questions ++ (inner.question?.map fun p => p.request.question).toList)
    (follows : inner.Follows now course)
    (kept : s.switched = false → now.selected = found.selected) :
    Phase W v found now s begun (some (.holding W.queue inner leave))
  | leaves {p : Program η Response} {e : TaskEnd Turn} {r : Registry} (turn : begun)
    (went : W.Went v found s e r) (ended : (Thread.fresh p).ended? = some (endOf e)) :
    Phase W v found now s begun (some (.fresh p))
  | completed {e : TaskEnd Turn} {r : Registry} (turn : begun) (went : W.Went v found s e r)
    (ended : s.ended = some (endOf e)) (dropped : s.dropped = false) :
    Phase W v found now s begun none
  | cancelled {questions : List Question} {course : Course Turn} (turn : begun)
    (comes : (W.course v found).Comes questions s.answers course)
    (kept : s.switched = false → course.registry.selected = found.selected) (ended : s.ended = none)
    (dropped : s.dropped = true) : Phase W v found now s begun none

namespace Phase

variable {v : Visit η} {found now : Registry} {s : Story Response} {begun : Prop}
  {t : Option (Thread η Response)}

/-- Others move.  What was found before the turn and what there is outside of it may change. -/
theorem other {found' now' : Registry} {begun' : Prop} (h : W.Phase v found now s begun t)
    (hbegun : begun' ↔ begun) (hfound : begun → found' = found)
    (hnow : .runs ∈ t.elim [] (Thread.places W.queue) → now' = now) :
    W.Phase v found' now' s begun' t := by
  cases h with
  | waits yet quiet => exact .waits (hbegun.not.2 yet) quiet
  | gaveUp yet quiet ended dropped => exact .gaveUp (hbegun.not.2 yet) quiet ended dropped
  | runs turn comes asked follows kept =>
    obtain rfl := hfound turn
    obtain rfl := hnow (by simp [Thread.places])
    exact .runs (hbegun.2 turn) comes asked follows kept
  | leaves turn went ended =>
    obtain rfl := hfound turn
    exact .leaves (hbegun.2 turn) went ended
  | completed turn went ended dropped =>
    obtain rfl := hfound turn
    exact .completed (hbegun.2 turn) went ended dropped
  | cancelled turn comes kept ended dropped =>
    obtain rfl := hfound turn
    exact .cancelled (hbegun.2 turn) comes kept ended dropped

/-- Before its turn a task is quiet. -/
theorem quiet (h : W.Phase v found now s begun t) (yet : ¬ begun) : s.Quiet := by
  cases h with
  | waits _ quiet => exact quiet
  | gaveUp _ quiet _ _ => exact quiet
  | runs turn _ _ _ _ => exact absurd turn yet
  | leaves turn _ _ => exact absurd turn yet
  | completed turn _ _ _ => exact absurd turn yet
  | cancelled turn _ _ _ _ => exact absurd turn yet

/-- A turn begins. -/
theorem begins {request : Request} (hv : W.visit? request = some v) (turn : begun)
    (quiet : s.Quiet) :
    W.Phase v found found s begun (some (.holding W.queue (.fresh (W.gate.job v)) leave)) := by
  have hcomes : (W.course v found).Comes [] s.answers (W.course v found) := by
    rw [quiet.answers_eq]
    exact .start
  exact .runs turn hcomes quiet.questions_eq (follows_job hv) fun _ => rfl

/-- A task has heard what the course of its request says. -/
theorem exists_comes (h : W.Phase v found now s begun t) :
    ∃ questions course, (W.course v found).Comes questions s.answers course := by
  cases h with
  | waits _ quiet => exact ⟨[], _, quiet.answers_eq.symm ▸ Course.Comes.start⟩
  | gaveUp _ quiet _ _ => exact ⟨[], _, quiet.answers_eq.symm ▸ Course.Comes.start⟩
  | runs _ comes _ _ _ => exact ⟨_, _, comes⟩
  | leaves _ went _ => exact ⟨_, _, went.comes⟩
  | completed _ went _ _ => exact ⟨_, _, went.comes⟩
  | cancelled _ comes _ _ _ => exact ⟨_, _, comes⟩

end Phase

/-- The registry that these tasks leave, one after another. -/
def left (requests : Nat → Request) (W : Wallet η) (c : Crew η Response)
    (past : List (Act η Response)) (tasks : List Nat) : Registry :=
  tasks.foldl
    (fun r i => (W.visit? (requests i)).elim r fun v => v.effect (c.story i past).answers r)
    c.world.registry

section Left

variable {c : Crew η Response} {a : Act η Response}

@[simp] theorem left_nil : left requests W c past [] = c.world.registry := rfl

theorem left_append_singleton {v : Visit η} {tasks : List Nat} {i : Nat}
    (h : W.visit? (requests i) = some v) :
    left requests W c past (tasks ++ [i])
      = v.effect (c.story i past).answers (left requests W c past tasks) := by
  simp [left, h]

/-- What a task has heard decides what it leaves. -/
theorem left_congr {past' : List (Act η Response)} {tasks : List Nat}
    (h : ∀ i ∈ tasks, (c.story i past').answers = (c.story i past).answers) :
    left requests W c past' tasks = left requests W c past tasks := by
  refine List.foldl_ext _ _ _ fun r i hi => ?_
  rw [h i hi]

/-- Who has heard nothing leaves nothing. -/
theorem left_append_of_quiet {tasks later : List Nat}
    (h : ∀ i ∈ later, (c.story i past).answers = []) :
    left requests W c past (tasks ++ later) = left requests W c past tasks := by
  rw [left, List.foldl_append, ← left]
  generalize left requests W c past tasks = r
  induction later with
  | nil => rfl
  | cons i later ih =>
    have hnothing : ((W.visit? (requests i)).elim r fun v => v.effect (c.story i past).answers r)
        = r := by
      rw [h i List.mem_cons_self]
      cases W.visit? (requests i) <;> rfl
    rw [List.foldl_cons, hnothing]
    exact ih fun j hj => h j (List.mem_cons_of_mem i hj)

end Left

/-! ### One act after another -/

/-- **Queued requests take turns.** -/
structure InTurn (requests : Nat → Request) (W : Wallet η) (c : Crew η Response)
    (past : List (Act η Response)) : Prop where
  queueing : (c.after past).world.queueing = true
  nodup : (c.roll W.queue past).Nodup
  known : ∀ i ∈ c.roll W.queue past, i < (c.after past).tasks.length
  apart : ∀ i, i ∉ c.roll W.queue past →
    W.Apart (requests i) (c.story i past) ((c.after past).thread? i)
  /-- A task that has come is in its phase, and finds what those before it left. -/
  phase : ∀ {earlier i later}, c.roll W.queue past = earlier ++ i :: later →
    ∃ v, W.visit? (requests i) = some v ∧
      W.Phase v (left requests W c past earlier) (c.after past).world.registry (c.story i past)
        (i ∈ c.served W.queue past) ((c.after past).thread? i)
  /-- Where nobody is in its turn, the registry is what all have left. -/
  registry : (∀ i, .runs ∉ (c.after past).placesOf W.queue i) →
    (c.after past).world.registry = left requests W c past (c.roll W.queue past)

namespace InTurn

variable {c : Crew η Response} {a : Act η Response} {i : Nat}

theorem start (hqueueing : c.world.queueing = true) (htasks : c.tasks = []) :
    InTurn requests W c [] where
  queueing := hqueueing
  nodup := .nil
  known i hi := by simp [Crew.roll] at hi
  apart i _ :=
    ⟨Story.quiet_blank, fun hended => absurd rfl hended, fun t ht => by
      simp [Crew.thread?, htasks] at ht⟩
  phase hsplit := by simp [Crew.roll] at hsplit
  registry _ := rfl

/-- The split of a roll on which one more task came last, at another task. -/
private theorem split_of_append {roll earlier later : List Nat} {j : Nat} (hne : j ≠ i)
    (h : roll ++ [i] = earlier ++ j :: later) : ∃ later, roll = earlier ++ j :: later := by
  rcases List.eq_nil_or_concat later with rfl | ⟨init, last, rfl⟩
  · have hlast := congrArg List.getLast? h
    simp at hlast
    exact absurd hlast.symm hne
  · have hinit : roll ++ [i] = (earlier ++ j :: init) ++ [last] := by simp [h]
    exact ⟨init, (List.append_inj' hinit rfl).1⟩

/-- A roll on which at most a new task came last names nobody twice. -/
private theorem nodup_of_more {roll more : List Nat} (hroll : roll.Nodup)
    (hmore : more = roll ∨ i ∉ roll ∧ more = roll ++ [i]) : more.Nodup := by
  rcases hmore with rfl | ⟨hnew, rfl⟩
  · exact hroll
  · exact hroll.append (List.nodup_singleton i) (List.disjoint_singleton.2 hnew)

/-- **One task changes.**  The others are in the phases they were in. -/
theorem changed (h : InTurn requests W c past) (horder : c.InOrder W.queue past)
    (hqueueing : (c.after (a :: past)).world.queueing = true)
    (hthread : ∀ j, j ≠ i → (c.after (a :: past)).thread? j = (c.after past).thread? j)
    (hstory : ∀ j, j ≠ i → c.story j (a :: past) = c.story j past)
    (hserved : ∀ j, j ≠ i → (j ∈ c.served W.queue (a :: past) ↔ j ∈ c.served W.queue past))
    (hroll : c.roll W.queue (a :: past) = c.roll W.queue past ∨
      i ∉ c.roll W.queue past ∧ c.roll W.queue (a :: past) = c.roll W.queue past ++ [i])
    (hi : i ∈ c.roll W.queue (a :: past) → i < (c.after (a :: past)).tasks.length)
    (hheard : i ∈ c.roll W.queue past → (c.after past).placesOf W.queue i = [] →
      (c.story i (a :: past)).answers = (c.story i past).answers)
    (hnow : ∀ j, j ≠ i → .runs ∈ (c.after past).placesOf W.queue j →
      (c.after (a :: past)).world.registry = (c.after past).world.registry)
    (hapart : i ∉ c.roll W.queue (a :: past) →
      W.Apart (requests i) (c.story i (a :: past)) ((c.after (a :: past)).thread? i))
    (hphase : ∀ {earlier later}, c.roll W.queue (a :: past) = earlier ++ i :: later →
      ∃ v, W.visit? (requests i) = some v ∧
        W.Phase v (left requests W c (a :: past) earlier) (c.after (a :: past)).world.registry
          (c.story i (a :: past)) (i ∈ c.served W.queue (a :: past))
          ((c.after (a :: past)).thread? i))
    (hregistry : (∀ j, .runs ∉ (c.after (a :: past)).placesOf W.queue j) →
      (c.after (a :: past)).world.registry
        = left requests W c (a :: past) (c.roll W.queue (a :: past))) :
    InTurn requests W c (a :: past) where
  queueing := hqueueing
  nodup := nodup_of_more h.nodup hroll
  known j hj := by
    by_cases hji : j = i
    · exact hji ▸ hi (hji ▸ hj)
    · have hold : j ∈ c.roll W.queue past := by
        rcases hroll with hsame | ⟨_, hmore⟩
        · exact hsame ▸ hj
        · simpa [hmore, hji] using hj
      exact Nat.lt_of_lt_of_le (h.known j hold) (Crew.length_perform_le _ a)
  apart j hj := by
    by_cases hji : j = i
    · subst hji
      exact hapart hj
    · rw [hstory j hji, hthread j hji]
      refine h.apart j fun hold => hj ?_
      rcases hroll with hsame | ⟨_, hmore⟩
      · exact hsame ▸ hold
      · simp [hmore, hold]
  phase := by
    intro earlier j later hsplit
    by_cases hji : j = i
    · subst hji
      exact hphase hsplit
    · obtain ⟨later, hold⟩ : ∃ later, c.roll W.queue past = earlier ++ j :: later := by
        rcases hroll with hsame | ⟨_, hmore⟩
        · exact ⟨later, hsame ▸ hsplit⟩
        · exact split_of_append hji (hmore ▸ hsplit)
      obtain ⟨v, hv, hphase⟩ := h.phase hold
      rw [hstory j hji, hthread j hji]
      refine ⟨v, hv, hphase.other (hserved j hji) (fun hj => left_congr fun k hk => ?_)
        (hnow j hji)⟩
      -- a task whose turn has come finds what those before it left, and they have left the
      -- queue
      by_cases hki : k = i
      · subst hki
        exact hheard (hold ▸ List.mem_append_left _ hk) (horder.behind h.nodup hold hj k hk)
      · rw [hstory k hki]
  registry := hregistry

/-- Where no other task is in its turn, and neither is this one, the registry is what all
have left. -/
theorem registry_of_others (h : InTurn requests W c past)
    (hself : .runs ∉ (c.after past).placesOf W.queue i)
    (hothers : ∀ j, j ≠ i → .runs ∉ (c.after past).placesOf W.queue j) :
    (c.after past).world.registry = left requests W c past (c.roll W.queue past) := by
  refine h.registry fun j => ?_
  by_cases hj : j = i
  · exact hj ▸ hself
  · exact hothers j hj

/-- Nothing changes that the phases speak of. -/
theorem same (h : InTurn requests W c past) (horder : c.InOrder W.queue past)
    (hqueueing : (c.after (a :: past)).world.queueing = (c.after past).world.queueing)
    (hregistry : (c.after (a :: past)).world.registry = (c.after past).world.registry)
    (hthread : ∀ j, (c.after (a :: past)).thread? j = (c.after past).thread? j)
    (hstory : ∀ j, c.story j (a :: past) = c.story j past)
    (hroll : c.roll W.queue (a :: past) = c.roll W.queue past)
    (hserved : c.served W.queue (a :: past) = c.served W.queue past) :
    InTurn requests W c (a :: past) := by
  have hnew : (c.after past).tasks.length ∉ c.roll W.queue past := fun hmem =>
    Nat.lt_irrefl _ (h.known _ hmem)
  refine h.changed (i := (c.after past).tasks.length) horder (hqueueing.trans h.queueing)
    (fun j _ => hthread j)
    (fun j _ => hstory j) (fun j _ => hserved ▸ .rfl) (.inl hroll)
    (fun hmem => absurd (hroll ▸ hmem) hnew)
    (fun hmem => absurd hmem hnew) (fun _ _ _ => hregistry) (fun _ => ?_)
    (fun hsplit => ?_) fun hnone => ?_
  · rw [hstory, hthread]
    exact h.apart _ hnew
  · rw [hroll] at hsplit
    exact absurd (hsplit ▸ List.mem_append_right _ List.mem_cons_self) hnew
  · rw [hregistry, hroll]
    refine (h.registry fun j => ?_).trans (left_congr fun j _ => by rw [hstory]).symm
    have hj := hnone j
    rwa [Crew.placesOf, hthread] at hj

/-- A task is created. -/
theorem spawned (h : InTurn requests W c past) (horder : c.InOrder W.queue past) (name : String) :
    InTurn requests W c (.spawn name (W.task (requests (c.after past).tasks.length)) :: past) := by
  have hnew : (c.after past).tasks.length ∉ c.roll W.queue past := fun hmem =>
    Nat.lt_irrefl _ (h.known _ hmem)
  have hroll : ∀ p, c.roll W.queue (.spawn name p :: past) = c.roll W.queue past :=
    fun p => List.append_nil _
  have hserved : ∀ p, c.served W.queue (.spawn name p :: past) = c.served W.queue past := fun p =>
    List.append_nil _
  have hthread : ∀ p j, j ≠ (c.after past).tasks.length →
      (c.after (.spawn name p :: past)).thread? j = (c.after past).thread? j := by
    intro p j hj
    rcases Nat.lt_or_gt_of_ne hj with hj | hj
    · exact Crew.thread?_perform_of_lt hj (by simp) (by simp)
    · rw [Crew.thread?_of_length_le (Nat.le_of_lt hj),
        Crew.thread?_of_length_le (by simpa [Crew.perform, Crew.spawn])]
  refine h.changed (i := (c.after past).tasks.length) horder h.queueing (hthread _) (fun _ _ => rfl)
    (fun j _ => by rw [hserved]) (.inl (hroll _)) (fun hmem => absurd (hroll _ ▸ hmem) hnew)
    (fun hmem => absurd hmem hnew) (fun _ _ _ => rfl)
    (fun _ => ⟨(h.apart _ hnew).quiet, (h.apart _ hnew).ended, fun t ht => ?_⟩)
    (fun hsplit => ?_) fun hnone => ?_
  · rcases Crew.thread?_of_spawn ht with hold | rfl
    · simp [Crew.thread?_of_length_le (Nat.le_refl _)] at hold
    · cases hvisit : W.visit? (requests (c.after past).tasks.length) with
      | none => exact .reads hvisit (onlyReads_task hvisit)
      | some v =>
        obtain ⟨next, n, htask, hnext⟩ := task_of_visit? hvisit
        rw [htask]
        exact .coming hvisit (.created n hnext)
  · rw [hroll] at hsplit
    exact absurd (hsplit ▸ List.mem_append_right _ List.mem_cons_self) hnew
  · have hself : .runs ∉ (c.after past).placesOf W.queue (c.after past).tasks.length := by
      simp [Crew.placesOf, Crew.thread?_of_length_le (Nat.le_refl _)]
    refine (h.registry_of_others hself fun j hj => ?_).trans (by rw [hroll]; rfl)
    have hplaces := hnone j
    rwa [Crew.placesOf, hthread _ j hj] at hplaces

/-- Nothing comes from outside that meddles. -/
theorem outside (h : InTurn requests W c past) (horder : c.InOrder W.queue past) {o : Outside η}
    (ho : o.meddles = false) : InTurn requests W c (.outside o :: past) :=
  h.same horder (Outside.eq_of_not_meddles ho _).2 (Outside.eq_of_not_meddles ho _).1 (fun _ => rfl)
    (fun _ => rfl) (List.append_nil _) (List.append_nil _)

/-- Whoever stands in front of the queue is on its roll. -/
theorem mem_roll (h : InTurn requests W c past) (hplaces : (c.after past).placesOf W.queue i ≠ []) :
    i ∈ c.roll W.queue past := by
  by_contra hnew
  obtain ⟨p, hp⟩ := List.exists_mem_of_ne_nil _ hplaces
  obtain ⟨t, ht, hp⟩ := Crew.exists_thread?_of_mem hp
  cases (h.apart i hnew).outsider t ht with
  | reads _ honly => simp [Thread.places_of_onlyReads honly] at hp
  | coming _ hcoming => cases hcoming <;> simp [Thread.places] at hp

/-- **Who came behind a task that is still there** is waiting for its turn. -/
theorem quiet_behind (h : InTurn requests W c past) (horder : c.InOrder W.queue past)
    {earlier later : List Nat} (hsplit : c.roll W.queue past = earlier ++ i :: later)
    (hplaces : (c.after past).placesOf W.queue i ≠ []) :
    ∀ j ∈ later, (c.story j past).Quiet := by
  intro j hj
  obtain ⟨between, later, rfl⟩ := List.append_of_mem hj
  have hsplit : c.roll W.queue past = (earlier ++ i :: between) ++ j :: later := by simp [hsplit]
  obtain ⟨v, _, hphase⟩ := h.phase hsplit
  refine hphase.quiet fun hserved => hplaces ?_
  exact horder.behind h.nodup hsplit hserved i (by simp)

/-- Up to a task that is still there everybody has left what all have left. -/
theorem left_roll (h : InTurn requests W c past) (horder : c.InOrder W.queue past)
    {earlier later : List Nat} (hsplit : c.roll W.queue past = earlier ++ i :: later)
    (hplaces : (c.after past).placesOf W.queue i ≠ []) :
    left requests W c past (c.roll W.queue past) = left requests W c past (earlier ++ [i]) := by
  have hquiet := h.quiet_behind horder hsplit hplaces
  rw [hsplit, List.append_cons]
  exact left_append_of_quiet fun j hj => (hquiet j hj).answers_eq

/-- **Where a task is at rest in its turn** the registry is what all have left: what it did
is all it does till it goes on. -/
theorem registry_of_runs (h : InTurn requests W c past) (horder : c.InOrder W.queue past)
    {t : Thread η Response}
    (ht : (c.after past).thread? i = some t) (hruns : .runs ∈ t.places W.queue)
    (hrest : t.isAtRest = true) :
    (c.after past).world.registry = left requests W c past (c.roll W.queue past) := by
  have hplaces : (c.after past).placesOf W.queue i ≠ [] :=
    List.ne_nil_of_mem (Crew.placesOf_of_thread? ht ▸ hruns)
  obtain ⟨earlier, later, hsplit⟩ := List.append_of_mem (h.mem_roll hplaces)
  obtain ⟨v, hv, hphase⟩ := h.phase hsplit
  rw [h.left_roll horder hsplit hplaces, left_append_singleton hv]
  rw [ht] at hphase
  cases hphase with
  | waits yet quiet => simp [Thread.places] at hruns
  | leaves turn went ended => simp [Thread.places] at hruns
  | runs turn comes asked follows kept =>
    rw [← registry_of_comes comes]
    exact (Thread.registry_of_waits follows hrest).symm

/-- **A task is given up** while it is at rest. -/
theorem dropped (h : InTurn requests W c past) (horder : c.InOrder W.queue past)
    (hrest : ∀ t, (c.after past).thread? i = some t → t.isAtRest = true) :
    InTurn requests W c (.drop i :: past) := by
  have hroll : c.roll W.queue (.drop i :: past) = c.roll W.queue past := List.append_nil _
  have hserved : c.served W.queue (.drop i :: past) = c.served W.queue past := List.append_nil _
  cases ht : (c.after past).thread? i with
  | none =>
    have hcrew : c.after (.drop i :: past) = c.after past := by simp [Crew.perform, Crew.giveUp, ht]
    refine h.same horder (by rw [hcrew]) (by rw [hcrew]) (fun _ => by rw [hcrew])
      (fun j => ?_) hroll hserved
    by_cases hj : j = i
    · rw [hj, Crew.story_of_gone ht]
    · exact Crew.story_drop_of_ne hj
  | some t =>
    have hcrew : c.after (.drop i :: past)
        = (c.after past).put i none (t.cancel (c.after past).world) := by
      simp [Crew.perform, Crew.giveUp, ht]
    have hregistry : (c.after (.drop i :: past)).world.registry
        = (c.after past).world.registry := by
      rw [hcrew]
      exact t.registry_cancel _
    have hself : (c.after (.drop i :: past)).thread? i = none := by
      rw [hcrew]
      exact Crew.thread?_put_self ht _ _
    have hother : ∀ j, j ≠ i → (c.after (.drop i :: past)).thread? j = (c.after past).thread? j :=
      fun j hj => Crew.thread?_giveUp_of_ne (Ne.symm hj) _
    have hqueueing : (c.after (.drop i :: past)).world.queueing = (c.after past).world.queueing :=
      Crew.world_perform (R := fun w v : World η => v.queueing = w.queueing) (fun _ => rfl)
        (fun _ _ _ huv hvw => hvw.trans huv) (fun _ _ hb => hb.queueing_eq) (c.after past) (by simp)
    have hanswers : ∀ j, (c.story j (.drop i :: past)).answers = (c.story j past).answers := by
      intro j
      by_cases hj : j = i
      · rw [hj, Crew.story_drop ht]
        rfl
      · rw [Crew.story_drop_of_ne hj]
    have hleft : ∀ tasks, left requests W c (.drop i :: past) tasks
        = left requests W c past tasks :=
      fun tasks => left_congr fun j _ => hanswers j
    have hlive := Crew.live_of_thread? ht
    have hwaits := hrest t ht
    refine h.changed (i := i) horder (hqueueing.trans h.queueing) hother
      (fun j hj => Crew.story_drop_of_ne hj)
      (fun j _ => by rw [hserved]) (.inl hroll)
      (fun hmem => Nat.lt_of_lt_of_le (h.known i (hroll ▸ hmem)) (Crew.length_perform_le _ _))
      (fun _ _ => hanswers i) (fun _ _ _ => hregistry) (fun hnew => ?_)
      (fun {earlier later} hsplit => ?_)
      fun hnone => ?_
    · obtain ⟨hquiet, hended, _⟩ := h.apart i (hroll ▸ hnew)
      rw [hself, Crew.story_drop ht]
      exact ⟨⟨hquiet.asked, hquiet.heard, hquiet.switched⟩, hended, fun t ht => by simp at ht⟩
    · obtain ⟨v, hv, hphase⟩ := h.phase (hroll ▸ hsplit)
      refine ⟨v, hv, ?_⟩
      rw [hself, hleft, hserved, Crew.story_drop ht]
      rw [ht] at hphase
      cases hphase with
      | waits yet quiet =>
        exact .gaveUp yet ⟨quiet.asked, quiet.heard, quiet.switched⟩ hlive.ended rfl
      | runs turn comes asked follows kept =>
        have hcourse := Thread.registry_of_waits follows hwaits
        exact .cancelled turn comes (hcourse ▸ kept) hlive.ended rfl
      | leaves turn went ended => exact .cancelled turn went.comes went.kept hlive.ended rfl
    · rw [hregistry, hroll, hleft]
      by_cases hruns : .runs ∈ t.places W.queue
      · exact h.registry_of_runs horder ht hruns hwaits
      · refine h.registry_of_others (Crew.placesOf_of_thread? ht ▸ hruns) fun j hj => ?_
        have hplaces := hnone j
        rwa [Crew.placesOf, hother j hj] at hplaces

section Go

variable {t : Thread η Response} {m : Move η Response}

/-- What others than a task that goes have left does not change. -/
theorem left_go_of_not_mem {tasks : List Nat} (h : i ∉ tasks) :
    left requests W c (.go i :: past) tasks = left requests W c past tasks := by
  refine left_congr fun j hj => ?_
  have hne : j ≠ i := fun heq => h (heq ▸ hj)
  rw [Crew.story_go_of_ne hne]

/-- Nor what anybody has left, if the task that goes is told nothing. -/
theorem left_go_of_answers {tasks : List Nat}
    (h : (c.story i (.go i :: past)).answers = (c.story i past).answers) :
    left requests W c (.go i :: past) tasks = left requests W c past tasks := by
  refine left_congr fun j _ => ?_
  by_cases hj : j = i
  · rw [hj, h]
  · rw [Crew.story_go_of_ne hj]

/-- Those on the roll before a task are others. -/
private theorem not_mem_earlier {roll earlier later : List Nat} (hnodup : roll.Nodup)
    (hsplit : roll = earlier ++ i :: later) : i ∉ earlier := fun hi =>
  List.disjoint_of_nodup_append (hsplit ▸ hnodup) hi List.mem_cons_self

/-- A roll is split in one way at a task. -/
private theorem split_unique {roll earlier later before behind : List Nat} (hnodup : roll.Nodup)
    (hsplit : roll = earlier ++ i :: later) (hother : roll = before ++ i :: behind) :
    before = earlier := by
  have hbefore := not_mem_earlier hnodup hother
  have hbehind : i ∉ behind := by
    rw [hother, List.nodup_append, List.nodup_cons] at hnodup
    exact hnodup.2.1.1
  exact ((List.append_cons_inj_of_notMem hbefore hbehind).1 (hother.symm.trans hsplit)).1

/-- The split of a roll at the task that came last. -/
private theorem split_last {roll earlier later : List Nat} (hnew : i ∉ roll)
    (hsplit : roll ++ [i] = earlier ++ i :: later) : earlier = roll := by
  rcases List.eq_nil_or_concat later with rfl | ⟨init, last, rfl⟩
  · exact (List.append_inj' hsplit rfl).1.symm
  · have hinit : roll ++ [i] = (earlier ++ i :: init) ++ [last] := by simp [hsplit]
    have hroll := (List.append_inj' hinit rfl).1
    exact absurd (hroll ▸ List.mem_append_right _ List.mem_cons_self) hnew

/-- **A task moves.**  What has to be shown is what becomes of that task. -/
theorem moved (h : InTurn requests W c past) (horder : c.InOrder W.queue past)
    (ht : (c.after past).thread? i = some t) (hm : t.move (c.after past).world = some m)
    (hroll : i ∈ c.roll W.queue past →
      (c.after past).arriving W.queue (.go i : Act η Response) = [])
    (hheard : i ∈ c.roll W.queue past → t.places W.queue = [] →
      t.reply? (c.after past).world = none)
    (hnow : m.world.registry = (c.after past).world.registry ∨ .runs ∈ t.places W.queue)
    (hapart : i ∉ c.roll W.queue (.go i :: past) →
      ((c.story i past).moved t (c.after past).world m).Quiet ∧ W.Outsider (requests i) m.thread)
    (hphase : ∀ {earlier later}, c.roll W.queue (.go i :: past) = earlier ++ i :: later →
      ∃ v, W.visit? (requests i) = some v ∧
        W.Phase v (left requests W c past earlier) m.world.registry
          ((c.story i past).moved t (c.after past).world m) (i ∈ c.served W.queue (.go i :: past))
          (some m.thread))
    (hregistry : .runs ∉ m.thread.places W.queue →
      (∀ j, j ≠ i → .runs ∉ (c.after past).placesOf W.queue j) →
      m.world.registry = left requests W c (.go i :: past) (c.roll W.queue (.go i :: past))) :
    InTurn requests W c (.go i :: past) := by
  have hcrew : c.after (.go i :: past) = (c.after past).put i (some m.thread) m.world :=
    Crew.go_of_move ht hm
  have hself : (c.after (.go i :: past)).thread? i = some m.thread := by
    rw [hcrew]
    exact Crew.thread?_put_self ht _ _
  have hother : ∀ j, j ≠ i → (c.after (.go i :: past)).thread? j = (c.after past).thread? j :=
    fun j hj => Crew.thread?_go_of_ne (Ne.symm hj) _
  have hworld : (c.after (.go i :: past)).world = m.world := by rw [hcrew, Crew.world_put]
  have hplaces : (c.after past).placesOf W.queue i = t.places W.queue := Crew.placesOf_of_thread? ht
  have hstory : c.story i (.go i :: past) = (c.story i past).moved t (c.after past).world m := by
    rw [Crew.story_go ht, Story.go_of_move hm]
  have harriving : (c.after past).arriving W.queue (.go i : Act η Response) = [] ∨
      (c.after past).arriving W.queue (.go i : Act η Response) = [i] := by
    unfold Crew.arriving
    dsimp only
    split <;> simp
  have hmore : c.roll W.queue (.go i :: past) = c.roll W.queue past ∨
      i ∉ c.roll W.queue past ∧ c.roll W.queue (.go i :: past) = c.roll W.queue past ++ [i] := by
    by_cases hi : i ∈ c.roll W.queue past
    · exact .inl (by rw [Crew.roll, hroll hi, List.append_nil])
    · rcases harriving with hnone | hone
      · exact .inl (by rw [Crew.roll, hnone, List.append_nil])
      · exact .inr ⟨hi, by rw [Crew.roll, hone]⟩
  have hserved : ∀ j,
      j ≠ i → (j ∈ c.served W.queue (.go i :: past) ↔ j ∈ c.served W.queue past) := by
    intro j hj
    rw [Crew.served, Crew.starting, List.mem_append]
    split <;> simp [hj]
  refine h.changed (i := i) horder ?_ hother (fun j hj => Crew.story_go_of_ne hj) hserved hmore
    (fun _ => Nat.lt_of_lt_of_le (Crew.lt_of_thread? ht) (Crew.length_perform_le _ _))
    ?_ ?_ ?_ ?_ ?_
  · rw [hworld, (Thread.becomes_of_move hm).queueing_eq]
    exact h.queueing
  · intro hi hnone
    rw [hstory]
    simp [Story.answers, Story.moved, hheard hi (hplaces ▸ hnone)]
  · intro j hj hruns
    rw [hworld]
    rcases hnow with hsame | hslot
    · exact hsame
    · exact absurd (horder.alone hruns (hplaces ▸ hslot)) hj
  · intro hnew
    obtain ⟨hquiet, houtsider⟩ := hapart hnew
    rw [hstory, hself]
    exact ⟨hquiet, fun hended => absurd (Crew.live_of_thread? ht).ended hended,
      fun t ht => Option.some.inj ht ▸ houtsider⟩
  · intro earlier later hsplit
    rw [hstory, hself, hworld,
      left_go_of_not_mem (not_mem_earlier (nodup_of_more h.nodup hmore) hsplit)]
    exact hphase hsplit
  · intro hnone
    rw [hworld]
    refine hregistry ?_ fun j hj => ?_
    · have hi := hnone i
      rwa [Crew.placesOf, hself] at hi
    · have hplaces := hnone j
      rwa [Crew.placesOf, hother j hj] at hplaces

/-- A move that takes no slot brings nobody to the queue and starts nobody. -/
theorem roll_go_of_deed (hdeed : (c.after past).deed? W.queue i = none ∨
    (c.after past).deed? W.queue i = some .ended) :
    c.roll W.queue (.go i :: past) = c.roll W.queue past ∧
      c.served W.queue (.go i :: past) = c.served W.queue past := by
  rcases hdeed with hdeed | hdeed <;>
    simp [Crew.roll, Crew.served, Crew.arriving, Crew.starting, hdeed]

/-- A task that has not come to the queue goes on without coming to it. -/
theorem movedApart (h : InTurn requests W c past) (horder : c.InOrder W.queue past)
    (hnew : i ∉ c.roll W.queue past) (ht : (c.after past).thread? i = some t)
    (hm : t.move (c.after past).world = some m) (hdeed : m.deed = none)
    (hregistry : m.world.registry = (c.after past).world.registry)
    (hquestion : m.thread.question? = none)
    (hsilent : t.reply? (c.after past).world = none) (hbefore : t.places W.queue = [])
    (hthread : W.Outsider (requests i) m.thread) :
    InTurn requests W c (.go i :: past) := by
  have hnone : (c.after past).deed? W.queue i = none := by rw [Crew.deed?_of_move ht hm, hdeed]; rfl
  obtain ⟨hroll, _⟩ := roll_go_of_deed (W := W) (.inl hnone)
  refine h.moved horder ht hm (fun hi => absurd hi hnew) (fun hi => absurd hi hnew) (.inl hregistry)
    (fun _ => ⟨?_, hthread⟩) (fun hsplit => ?_) fun _ hothers => ?_
  · rw [Story.moved_eq_self hquestion hsilent hregistry]
    exact (h.apart i hnew).quiet
  · rw [hroll] at hsplit
    exact absurd (hsplit ▸ List.mem_append_right _ List.mem_cons_self) hnew
  · rw [hregistry, hroll, left_go_of_not_mem hnew]
    exact h.registry_of_others (by simp [Crew.placesOf_of_thread? ht, hbefore]) hothers

/-- **A task comes to the queue** and has to wait. -/
theorem movedCame (h : InTurn requests W c past) (horder : c.InOrder W.queue past) {v : Visit η}
    {place : Waiter} (hnew : i ∉ c.roll W.queue past) (hv : W.visit? (requests i) = some v)
    (ht : (c.after past).thread? i = some t)
    (hm : t.move (c.after past).world
      = some ⟨some (W.queue, .came), .waiting W.queue place (W.gate.job v) leave,
      ((c.after past).world.enter W.queue).2⟩)
    (hsilent : t.reply? (c.after past).world = none) (hbefore : t.places W.queue = []) :
    InTurn requests W c (.go i :: past) := by
  have hdeed : (c.after past).deed? W.queue i = some .came := by
    rw [Crew.deed?_of_move ht hm]
    simp
  have hroll : c.roll W.queue (.go i :: past) = c.roll W.queue past ++ [i] := by
    simp [Crew.roll, Crew.arriving, hdeed]
  have hserved : c.served W.queue (.go i :: past) = c.served W.queue past := by
    simp [Crew.served, Crew.starting, hdeed]
  have hquiet := (h.apart i hnew).quiet
  have hleft : left requests W c (.go i :: past) (c.roll W.queue past ++ [i])
      = left requests W c past (c.roll W.queue past) := by
    rw [left_append_of_quiet fun j hj => ?_]
    · exact left_go_of_not_mem hnew
    · rw [List.mem_singleton.1 hj, Crew.story_go ht, Story.go_of_move hm,
        Story.moved_eq_self rfl hsilent rfl]
      exact hquiet.answers_eq
  refine h.moved horder ht hm (fun hi => absurd hi hnew) (fun hi => absurd hi hnew) (.inl rfl)
    (fun hi => absurd (by rw [hroll]; simp) hi) (fun _ => ⟨v, hv, ?_⟩) fun _ hothers => ?_
  · rw [Story.moved_eq_self rfl hsilent rfl, hserved]
    exact .waits (fun hi => hnew (horder.served.subset hi)) hquiet
  · rw [hroll, hleft]
    exact h.registry_of_others (by simp [Crew.placesOf_of_thread? ht, hbefore]) hothers

/-- **A task comes to the queue** and finds the slot free: its turn has come. -/
theorem movedIn (h : InTurn requests W c past) (horder : c.InOrder W.queue past) {v : Visit η}
    (hnew : i ∉ c.roll W.queue past) (hv : W.visit? (requests i) = some v)
    (ht : (c.after past).thread? i = some t)
    (hm : t.move (c.after past).world = some ⟨some (W.queue, .cameIn),
      .holding W.queue (.fresh (W.gate.job v)) leave, ((c.after past).world.enter W.queue).2⟩)
    (hsilent : t.reply? (c.after past).world = none) : InTurn requests W c (.go i :: past) := by
  have hdeed : (c.after past).deed? W.queue i = some .cameIn := by
    rw [Crew.deed?_of_move ht hm]
    simp
  have hroll : c.roll W.queue (.go i :: past) = c.roll W.queue past ++ [i] := by
    simp [Crew.roll, Crew.arriving, hdeed]
  have hserved : i ∈ c.served W.queue (.go i :: past) := by simp [Crew.served, Crew.starting, hdeed]
  have hquiet := (h.apart i hnew).quiet
  have hfree := horder.free (Crew.starts_iff_deed?.2 (.inr hdeed))
  refine h.moved horder ht hm (fun hi => absurd hi hnew) (fun hi => absurd hi hnew) (.inl rfl)
    (fun hi => absurd (by rw [hroll]; simp) hi) (fun hsplit => ⟨v, hv, ?_⟩) fun hnone _ => ?_
  · rw [hroll] at hsplit
    rw [split_last hnew hsplit, ← h.registry hfree, Story.moved_eq_self rfl hsilent rfl]
    exact .begins hv hserved hquiet
  · simp [Thread.places] at hnone

/-- **The turn of a task that waited comes.** -/
theorem movedOn (h : InTurn requests W c past) (horder : c.InOrder W.queue past) {v : Visit η}
    {place : Waiter}
    {earlier later : List Nat} (hold : c.roll W.queue past = earlier ++ i :: later)
    (hv : W.visit? (requests i) = some v) (hquiet : (c.story i past).Quiet)
    (ht : (c.after past).thread? i = some (.waiting W.queue place (W.gate.job v) leave))
    (hm : (Thread.waiting W.queue place (W.gate.job v) leave).move (c.after past).world
      = some ⟨some (W.queue, .began), .holding W.queue (.fresh (W.gate.job v)) leave,
        (c.after past).world.goOn W.queue place⟩) : InTurn requests W c (.go i :: past) := by
  have hdeed : (c.after past).deed? W.queue i = some .began := by
    rw [Crew.deed?_of_move ht hm]
    simp
  have harriving : (c.after past).arriving W.queue (.go i : Act η Response) = [] := by
    simp [Crew.arriving, hdeed]
  have hroll : c.roll W.queue (.go i :: past) = c.roll W.queue past := by
    rw [Crew.roll, harriving, List.append_nil]
  have hserved : i ∈ c.served W.queue (.go i :: past) := by simp [Crew.served, Crew.starting, hdeed]
  have hfree := horder.free (Crew.starts_iff_deed?.2 (.inl hdeed))
  have hplaces : (c.after past).placesOf W.queue i ≠ [] := by
    simp [Crew.placesOf_of_thread? ht, Thread.places]
  refine h.moved horder ht hm (fun _ => harriving)
    (fun _ hnone => by simp [Thread.places] at hnone) (.inl rfl)
    (fun hi => absurd (by rw [hroll, hold]; simp) hi) (fun {before behind} hsplit => ⟨v, hv, ?_⟩)
    fun hnone _ => ?_
  · -- nobody is in its turn, and nobody from here on has left anything
    have hfound : (c.after past).world.registry = left requests W c past before := by
      rw [h.registry hfree, h.left_roll horder (hroll ▸ hsplit) hplaces]
      exact left_append_of_quiet fun j hj => List.mem_singleton.1 hj ▸ hquiet.answers_eq
    have hstory := Story.moved_eq_self (s := c.story i past) (w := (c.after past).world)
      (t := .waiting W.queue place (W.gate.job v) leave)
      (m := ⟨some (W.queue, .began), .holding W.queue (.fresh (W.gate.job v)) leave,
        (c.after past).world.goOn W.queue place⟩) rfl rfl rfl
    rw [← hfound, hstory]
    exact .begins hv hserved hquiet
  · simp [Thread.places] at hnone

/-- **In its turn** a job goes along its course. -/
theorem movedInside (h : InTurn requests W c past) (horder : c.InOrder W.queue past) {v : Visit η}
    {inner : Thread η Turn} {n : Move η Turn} {questions : List Question} {course : Course Turn}
    {earlier later : List Nat} (hold : c.roll W.queue past = earlier ++ i :: later)
    (hv : W.visit? (requests i) = some v) (hserved : i ∈ c.served W.queue past)
    (hcomes : (W.course v (left requests W c past earlier)).Comes questions
      (c.story i past).answers course)
    (hasked : (c.story i past).questions
      = questions ++ (inner.question?.map fun p => p.request.question).toList)
    (hfollows : inner.Follows (c.after past).world.registry course)
    (hkept : (c.story i past).switched = false →
      (c.after past).world.registry.selected = (left requests W c past earlier).selected)
    (ht : (c.after past).thread? i = some (.holding W.queue inner leave))
    (hmoves : Thread.Moves (c.after past).world inner n)
    (hm : (Thread.holding W.queue inner leave).move (c.after past).world
      = some ⟨n.deed, .holding W.queue n.thread leave, n.world⟩) : InTurn requests W c
        (.go i :: past) := by
  obtain ⟨hdeed, next, hadvances⟩ := Thread.advances_of_move hmoves hfollows
  have hnone : (c.after past).deed? W.queue i = none := by
    rw [Crew.deed?_of_move ht hm, hdeed]
    rfl
  obtain ⟨hroll, hsame⟩ := roll_go_of_deed (W := W) (.inl hnone)
  have harriving : (c.after past).arriving W.queue (.go i : Act η Response) = [] := by
    simp [Crew.arriving, hnone]
  obtain ⟨questions, hcomes, hasked⟩ := Story.comes_moved hcomes hasked hadvances
  refine h.moved horder ht hm (fun _ => harriving)
    (fun _ hplaces => by simp [Thread.places] at hplaces)
    (.inr (by simp [Thread.places])) (fun hi => absurd (by rw [hroll, hold]; simp) hi)
    (fun {before behind} hsplit => ⟨v, hv, ?_⟩) fun hplaces _ => by simp [Thread.places] at hplaces
  obtain rfl := split_unique h.nodup hold (hroll ▸ hsplit)
  refine .runs (hsame ▸ hserved) hcomes hasked ?_ fun hswitched => ?_
  · cases hadvances with
    | other _ _ hfollows => exact hfollows
    | asked _ _ _ _ hfollows => exact hfollows
    | told _ _ _ _ _ _ hfollows => exact hfollows
  · obtain ⟨hbefore, hstep⟩ : (c.story i past).switched = false ∧
        n.world.registry.selected = (c.after past).world.registry.selected := by
      simpa [Story.moved] using hswitched
    exact hstep.trans (hkept hbefore)

/-- **A turn ends**, well or not. -/
theorem movedOut (h : InTurn requests W c past) (horder : c.InOrder W.queue past) {v : Visit η}
    {inner : Thread η Turn} {p : Program η Response} {e : TaskEnd Turn} {questions : List Question}
    {course : Course Turn} {earlier later : List Nat}
    (hold : c.roll W.queue past = earlier ++ i :: later)
    (hv : W.visit? (requests i) = some v) (hserved : i ∈ c.served W.queue past)
    (hcomes : (W.course v (left requests W c past earlier)).Comes questions
      (c.story i past).answers course)
    (hasked : (c.story i past).questions
      = questions ++ (inner.question?.map fun p => p.request.question).toList)
    (hcourse : course = .ends e (c.after past).world.registry)
    (hkept : (c.story i past).switched = false →
      (c.after past).world.registry.selected = (left requests W c past earlier).selected)
    (hinner : inner.ended? = some e) (hended : (Thread.fresh p).ended? = some (endOf e))
    (ht : (c.after past).thread? i = some (.holding W.queue inner leave))
    (hm : (Thread.holding W.queue inner leave).move (c.after past).world
      = some ⟨some (W.queue, .ended), .fresh p, (c.after past).world.release W.queue⟩) :
    InTurn requests W c (.go i :: past) := by
  have hdeed : (c.after past).deed? W.queue i = some .ended := by
    rw [Crew.deed?_of_move ht hm]
    simp
  obtain ⟨hroll, hsame⟩ := roll_go_of_deed (W := W) (.inr hdeed)
  have harriving : (c.after past).arriving W.queue (.go i : Act η Response) = [] := by
    simp [Crew.arriving, hdeed]
  have hplaces : (c.after past).placesOf W.queue i ≠ [] := by
    simp [Crew.placesOf_of_thread? ht, Thread.places]
  have hsilent : (Thread.holding W.queue inner (leave (η := η))).reply? (c.after past).world
      = none := by
    obtain ⟨b, rfl, _⟩ | ⟨text, rfl, _⟩ := Thread.eq_fresh_of_ended hinner <;> rfl
  have hquestion := Thread.question?_of_ended hinner
  have hstory := Story.moved_eq_self (s := c.story i past) (w := (c.after past).world)
    (m := ⟨some (W.queue, .ended), .fresh p, (c.after past).world.release W.queue⟩) rfl hsilent rfl
  have hquestions : questions = (c.story i past).questions := by simp [hasked, hquestion]
  subst hcourse hquestions
  refine h.moved horder ht hm (fun _ => harriving) (fun _ _ => hsilent) (.inl rfl)
    (fun hi => absurd (by rw [hroll, hold]; simp) hi) (fun {before behind} hsplit => ⟨v, hv, ?_⟩)
    fun _ _ => ?_
  · obtain rfl := split_unique h.nodup hold (hroll ▸ hsplit)
    rw [hstory]
    exact .leaves (hsame ▸ hserved) ⟨hcomes, hkept⟩ hended
  · have hanswers : (c.story i (.go i :: past)).answers = (c.story i past).answers := by
      rw [Crew.story_go ht, Story.go_of_move hm, hstory]
    rw [hroll, left_go_of_answers hanswers, h.left_roll horder hold hplaces,
      left_append_singleton hv,
      ← registry_of_comes hcomes]
    rfl

/-- **A task on the roll moves.** -/
theorem movedServed (h : InTurn requests W c past) (horder : c.InOrder W.queue past)
    (hi : i ∈ c.roll W.queue past) (ht : (c.after past).thread? i = some t)
    (hm : t.move (c.after past).world = some m) : InTurn requests W c (.go i :: past) := by
  obtain ⟨earlier, later, hold⟩ := List.append_of_mem hi
  obtain ⟨v, hv, hphase⟩ := h.phase hold
  have hmoves := Thread.moves_of_move hm
  rw [ht] at hphase
  cases hphase with
  | waits yet quiet =>
    cases hmoves with
    | began => exact h.movedOn horder hold hv quiet ht hm
  | runs turn comes asked follows kept =>
    cases hmoves with
    | finished b => exact h.movedOut horder hold hv turn comes asked follows kept rfl rfl ht hm
    | panicked text => exact h.movedOut horder hold hv turn comes asked follows kept rfl rfl ht hm
    | inside _ _ moves =>
      exact h.movedInside horder hold hv turn comes asked follows kept ht moves hm
  | leaves turn went ended =>
    rw [Thread.move_of_ended ended] at hm
    nomatch hm

/-- **A task that has not come to the queue moves.** -/
theorem movedNew (h : InTurn requests W c past) (horder : c.InOrder W.queue past)
    (hnew : i ∉ c.roll W.queue past) (ht : (c.after past).thread? i = some t)
    (hm : t.move (c.after past).world = some m) : InTurn requests W c (.go i :: past) := by
  have hmoves := Thread.moves_of_move hm
  cases (h.apart i hnew).outsider t ht with
  | reads hbypasses honly =>
    obtain ⟨hdeed, hthread, hregistry, hquestion, hsilent⟩ := Thread.reads_of_move hmoves honly
    exact h.movedApart horder hnew ht hm hdeed hregistry hquestion hsilent
      (Thread.places_of_onlyReads honly _) (.reads hbypasses hthread)
  | coming hv hcoming =>
    cases hcoming with
    | @created next n hnext =>
      cases hmoves with
      | call =>
        have hnotes : next (Call.isQueueing.answer (c.after past).world).1 = _ :=
          (congrArg next h.queueing).trans hnext
        rw [hnotes] at hm
        exact h.movedApart horder hnew ht hm rfl rfl rfl rfl rfl (.coming hv (.notes n))
    | notes n =>
      cases hmoves with
      | call => exact h.movedApart horder hnew ht hm rfl rfl rfl rfl rfl (.coming hv .enters)
    | enters =>
      cases hmoves with
      | came _ place => exact h.movedCame horder hnew hv ht hm rfl rfl
      | cameIn => exact h.movedIn horder hnew hv ht hm rfl

/-- **A task comes to its end.** -/
theorem ended (h : InTurn requests W c past) (horder : c.InOrder W.queue past)
    {e : TaskEnd Response} (ht : (c.after past).thread? i = some t) (he : t.ended? = some e) :
    InTurn requests W c (.go i :: past) := by
  have hnone : (c.after past).deed? W.queue i = none := by
    rw [Crew.deed?, ht, Option.bind_some, Thread.move_of_ended he]
    rfl
  obtain ⟨hroll, hserved⟩ := roll_go_of_deed (W := W) (.inl hnone)
  have hcrew : c.after (.go i :: past)
      = Crew.record ((c.after past).nameOf i) (some e)
        ((c.after past).put i none (c.after past).world) :=
    Crew.go_of_ended ht he
  have hworld : (c.after (.go i :: past)).world = (c.after past).world := by
    rw [hcrew, Crew.world_record, Crew.world_put]
  have hself : (c.after (.go i :: past)).thread? i = none := by
    rw [hcrew, Crew.thread?_record, Crew.thread?_put_self ht]
  have hother : ∀ j, j ≠ i → (c.after (.go i :: past)).thread? j = (c.after past).thread? j :=
    fun j hj => Crew.thread?_go_of_ne (Ne.symm hj) _
  have hstory : c.story i (.go i :: past) = { c.story i past with ended := some e } := by
    rw [Crew.story_go ht, Story.go_of_ended he]
  have hanswers : (c.story i (.go i :: past)).answers = (c.story i past).answers := by
    rw [hstory]
    rfl
  have hlive := Crew.live_of_thread? ht
  refine h.changed (i := i) horder (hworld ▸ h.queueing) hother (fun j hj => Crew.story_go_of_ne hj)
    (fun j _ => by rw [hserved]) (.inl hroll)
    (fun hmem => Nat.lt_of_lt_of_le (h.known i (hroll ▸ hmem)) (Crew.length_perform_le _ _))
    (fun _ _ => hanswers) (fun _ _ _ => by rw [hworld]) (fun hnew => ?_)
    (fun {earlier later} hsplit => ?_)
    fun hfree => ?_
  · obtain ⟨hquiet, _, houtsider⟩ := h.apart i (hroll ▸ hnew)
    rw [hself, hstory]
    refine ⟨⟨hquiet.asked, hquiet.heard, hquiet.switched⟩, fun _ => ?_, fun t ht => by simp at ht⟩
    cases houtsider t ht with
    | reads hbypasses _ => exact hbypasses
    | coming _ hcoming => cases hcoming <;> simp [Thread.ended?] at he
  · obtain ⟨v, hv, hphase⟩ := h.phase (hroll ▸ hsplit)
    refine ⟨v, hv, ?_⟩
    rw [hself, left_go_of_answers hanswers, hserved, hstory]
    rw [ht] at hphase
    cases hphase with
    | waits yet quiet => simp [Thread.ended?] at he
    | runs turn comes asked follows kept => simp [Thread.ended?] at he
    | leaves turn went ended =>
      obtain rfl := Option.some.inj (he.symm.trans ended)
      exact .completed turn ⟨went.comes, went.kept⟩ rfl hlive.dropped
  · rw [hworld, hroll, left_go_of_answers hanswers]
    have hself : .runs ∉ (c.after past).placesOf W.queue i := by
      simp [Crew.placesOf_of_thread? ht, Thread.places_of_ended he]
    refine h.registry_of_others hself fun j hj => ?_
    have hplaces := hfree j
    rwa [Crew.placesOf, hother j hj] at hplaces

/-- **A task goes.** -/
theorem gone (h : InTurn requests W c past) (horder : c.InOrder W.queue past) (i : Nat) :
    InTurn requests W c (.go i :: past) := by
  have stuck : c.after (.go i :: past) = c.after past → c.story i (.go i :: past) = c.story i past →
      (c.after past).deed? W.queue i = none → InTurn requests W c (.go i :: past) := by
    intro hcrew hstory hnone
    obtain ⟨hroll, hserved⟩ := roll_go_of_deed (W := W) (.inl hnone)
    refine h.same horder (by rw [hcrew]) (by rw [hcrew]) (fun _ => by rw [hcrew])
      (fun j => ?_) hroll hserved
    by_cases hj : j = i
    · rw [hj, hstory]
    · exact Crew.story_go_of_ne hj
  cases ht : (c.after past).thread? i with
  | none => exact stuck (Crew.go_of_gone ht) (Crew.story_of_gone ht) (by simp [Crew.deed?, ht])
  | some t =>
    cases hm : t.move (c.after past).world with
    | some m =>
      by_cases hi : i ∈ c.roll W.queue past
      · exact h.movedServed horder hi ht hm
      · exact h.movedNew horder hi ht hm
    | none =>
      cases he : t.ended? with
      | some e => exact h.ended horder ht he
      | none =>
        refine stuck (Crew.go_of_stuck ht he hm) ?_ (by simp [Crew.deed?, ht, hm])
        rw [Crew.story_go ht, Story.go_of_stuck he hm]

end Go

end InTurn

/-- **All histories.**  In every run of a wallet queued requests take turns. -/
theorem Run.inTurn (h : W.Run requests w past) : InTurn requests W (Crew.ofWorld w) past := by
  induction past with
  | nil => exact .start h.queueing rfl
  | cons a past ih =>
    have hbefore := ih h.earlier
    have horder := Crew.inOrder h.idle h.earlier.few
    cases a with
    | spawn name p =>
      obtain rfl : p = _ := h.keeps.1
      exact hbefore.spawned horder name
    | go i => exact hbefore.gone horder i
    | drop i => exact hbefore.dropped horder h.keeps.1
    | outside o => exact hbefore.outside horder h.keeps.1

end Wallet

end WalletGate
