import WalletGate.Coordination.Progress

/-!
# Crews: several programs under way in one world

A **crew** is a world and the tasks started in it, in the order in which they were created.
Nothing runs by itself: a task goes on when it is resumed, and only one at a time does.  A
task that has ended keeps its place and its name.

* `Crew.spawn`, `Crew.poll`, `Crew.drop` — a task is created, resumed once, given up;
* `Crew.settle` — the first task that can go on is resumed, again and again, until none can;
* `Crew.isStill_settle` — after that every task has ended or has to wait.
-/

namespace WalletGate

/-- A program under way, by name. -/
structure Task (η α : Type) : Type 1 where
  name : String
  /-- What is left of it; none if it has ended. -/
  thread : Option (Thread η α)

/-- How a task ended by itself. -/
inductive TaskEnd (α : Type) where
  | finished (a : α)
  | panicked (text : String)
  deriving Repr

/-- A world and the tasks in it. -/
structure Crew (η α : Type) : Type 1 where
  world : World η
  tasks : List (Task η α)
  /-- The tasks that ended by themselves, latest first. -/
  ended : List (String × TaskEnd α)

/-- What becomes of a task that is resumed. -/
inductive Polled where
  | pending
  | finished
  | panicked
  /-- There was nothing left to resume. -/
  | gone
  deriving DecidableEq, Repr

variable {η α : Type}

namespace Task

/-- A task after its thread was resumed, and how it ended if it did. -/
def after (name : String) : Outcome η α → Task η α × Option (TaskEnd α) × Polled
  | .finished a => (⟨name, none⟩, some (.finished a), .finished)
  | .panicked text => (⟨name, none⟩, some (.panicked text), .panicked)
  | .suspended t => (⟨name, some t⟩, none, .pending)

/-- The task can go on. -/
def isReady (w : World η) (t : Task η α) : Bool :=
  match t.thread with
  | some thread => thread.isReady w
  | none => false

end Task

namespace Crew

/-- A world without tasks. -/
def ofWorld (w : World η) : Crew η α := ⟨w, [], []⟩

/-- Does something to the world. -/
def onWorld {β : Type} (act : World η → β × World η) (c : Crew η α) : β × Crew η α :=
  let (b, w) := act c.world
  (b, { c with world := w })

/-- Creates a task; nothing of it happens yet. -/
def spawn (name : String) (p : Program η α) (c : Crew η α) : Crew η α :=
  { c with tasks := c.tasks ++ [⟨name, some (.fresh p)⟩] }

/-- Resumes the named task among tasks, if it is under way. -/
def pollIn (name : String) : List (Task η α) → World η →
    List (Task η α) × World η × Option (TaskEnd α) × Polled
  | [], w => ([], w, none, .gone)
  | t :: rest, w =>
    if t.name = name then
      match t.thread with
      | none => (t :: rest, w, none, .gone)
      | some thread =>
        let (o, w) := thread.resume w
        let (t, e, p) := Task.after name o
        (t :: rest, w, e, p)
    else
      let (rest, w, e, p) := pollIn name rest w
      (t :: rest, w, e, p)

/-- Records the end of a task, if it ended. -/
def record (name : String) (e : Option (TaskEnd α)) (c : Crew η α) : Crew η α :=
  match e with
  | some e => { c with ended := (name, e) :: c.ended }
  | none => c

/-- Resumes the named task once. -/
def poll (name : String) (c : Crew η α) : Polled × Crew η α :=
  let (tasks, w, e, p) := pollIn name c.tasks c.world
  (p, record name e { c with tasks := tasks, world := w })

/-- Gives up the named task among tasks; false if there is nothing left of it. -/
def dropIn (name : String) : List (Task η α) → World η → List (Task η α) × World η × Bool
  | [], w => ([], w, false)
  | t :: rest, w =>
    if t.name = name then
      match t.thread with
      | none => (t :: rest, w, false)
      | some thread => (⟨t.name, none⟩ :: rest, thread.cancel w, true)
    else
      let (rest, w, b) := dropIn name rest w
      (t :: rest, w, b)

/-- Gives up the named task; false if there is nothing left of it. -/
def drop (name : String) (c : Crew η α) : Bool × Crew η α :=
  let (tasks, w, b) := dropIn name c.tasks c.world
  (b, { c with tasks := tasks, world := w })

/-- Resumes the first task that can go on, if there is one: the tasks and the world behind
it, and the name and end of a task that ended. -/
def stepIn (w : World η) : List (Task η α) →
    Option (List (Task η α) × World η × String × Option (TaskEnd α))
  | [] => none
  | t :: rest =>
    match t.thread with
    | some thread =>
      if thread.isReady w then
        let (o, v) := thread.resume w
        let (s, e, _) := Task.after t.name o
        some (s :: rest, v, t.name, e)
      else (stepIn w rest).map fun (rest, v, name, e) => (t :: rest, v, name, e)
    | none => (stepIn w rest).map fun (rest, v, name, e) => (t :: rest, v, name, e)

/-- Resumes the first task that can go on, if there is one. -/
def step (c : Crew η α) : Option (Crew η α) :=
  (stepIn c.world c.tasks).map fun (tasks, w, name, e) =>
    record name e { c with tasks := tasks, world := w }

/-- What is left of the tasks. -/
def threads (c : Crew η α) : List (Option (Thread η α)) :=
  c.tasks.map Task.thread

@[simp] theorem threads_record (name : String) (e : Option (TaskEnd α)) (c : Crew η α) :
    (record name e c).threads = c.threads := by
  cases e <;> rfl

/-- A step leaves less of one task. -/
theorem oneLess_stepIn {w v : World η} {ts ss : List (Task η α)} {name : String}
    {e : Option (TaskEnd α)} (h : stepIn w ts = some (ss, v, name, e)) :
    OneLess Thread.Less (ss.map Task.thread) (ts.map Task.thread) := by
  induction ts generalizing ss with
  | nil => simp [stepIn] at h
  | cons t rest ih =>
    have skip : (stepIn w rest).map (fun (rest, v, name, e) => (t :: rest, v, name, e))
        = some (ss, v, name, e) →
        OneLess Thread.Less (ss.map Task.thread) ((t :: rest).map Task.thread) := by
      intro h
      obtain ⟨⟨rest', v', name', e'⟩, hr, heq⟩ := Option.map_eq_some_iff.1 h
      simp only [Prod.mk.injEq] at heq
      obtain ⟨rfl, rfl, rfl, rfl⟩ := heq
      exact .tail (ih hr)
    unfold stepIn at h
    split at h
    · next thread ht =>
      split at h
      · next hr =>
        rcases ho : thread.resume w with ⟨o, u⟩
        rw [ho] at h
        simp only [Option.some.injEq, Prod.mk.injEq] at h
        rw [← h.1]
        cases o with
        | finished a =>
          simp only [Task.after, List.map_cons, ht]
          exact .head .ended
        | panicked text =>
          simp only [Task.after, List.map_cons, ht]
          exact .head .ended
        | suspended s =>
          simp only [Task.after, List.map_cons, ht]
          exact .head (.under ⟨w, u, hr, ho⟩)
      · exact skip h
    · exact skip h

/-- A step leaves less of the crew. -/
theorem oneLess_step {c d : Crew η α} (h : c.step = some d) :
    OneLess Thread.Less d.threads c.threads := by
  unfold step at h
  obtain ⟨⟨ss, v, name, e⟩, hs, rfl⟩ := Option.map_eq_some_iff.1 h
  rw [threads_record]
  exact oneLess_stepIn hs

/-- Crews by what is left of their tasks. -/
instance : WellFoundedRelation (Crew η α) where
  rel c d := OneLess Thread.Less c.threads d.threads
  wf := InvImage.wf threads (wellFounded_oneLess Thread.acc_less)

/-- Resumes the first task that can go on, again and again, until none can. -/
def settle (c : Crew η α) : Crew η α :=
  match _h : c.step with
  | some d => settle d
  | none => c
termination_by c
decreasing_by exact oneLess_step _h

/-- No task can go on. -/
def IsStill (c : Crew η α) : Prop :=
  ∀ t ∈ c.tasks, t.isReady c.world = false

/-- If there is nothing to resume, no task can go on. -/
theorem isReady_of_stepIn_eq_none {w : World η} {ts : List (Task η α)} (h : stepIn w ts = none) :
    ∀ t ∈ ts, t.isReady w = false := by
  induction ts with
  | nil => intro t ht; simp at ht
  | cons s rest ih =>
    unfold stepIn at h
    intro t ht
    split at h
    · next thread hs =>
      split at h
      · simp at h
      · next hr =>
        rcases List.mem_cons.1 ht with rfl | ht
        · simpa [Task.isReady, hs] using hr
        · exact ih (Option.map_eq_none_iff.1 h) t ht
    · next hs =>
      rcases List.mem_cons.1 ht with rfl | ht
      · simp [Task.isReady, hs]
      · exact ih (Option.map_eq_none_iff.1 h) t ht

/-- A settled crew is still: every task has ended or has to wait. -/
theorem isStill_settle (c : Crew η α) : c.settle.IsStill := by
  fun_induction settle c with
  | case1 c d h ih => exact ih
  | case2 c h => exact isReady_of_stepIn_eq_none (Option.map_eq_none_iff.1 h)

/-- Takes the ends recorded so far, earliest first. -/
def takeEnded (c : Crew η α) : List (String × TaskEnd α) × Crew η α :=
  (c.ended.reverse, { c with ended := [] })

end Crew

end WalletGate
