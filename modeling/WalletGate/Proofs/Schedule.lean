import WalletGate.Proofs.Move

/-!
# Schedules: crews one act at a time

What happens to a crew happens as one **act** after another: a task is created, a task makes
one move or is given up, or something comes from outside — the user decides, time passes,
queueing is turned on or off, somebody edits the registry, the host changes.  The acts come
in any order; nothing is assumed of it.

A **history** is a list of acts, the latest first, so what was before an act is the rest of
the list.  `Crew.after` is the crew behind a history.

* `Crew.thread?_perform`, `Crew.world_perform` — what one act can do to a task and to the world;
* `Crew.poll_eq_after`, `Crew.drop_eq_after`, `Crew.settle_eq_after` — resuming a task once,
  giving one up and settling are histories, of moves of that task, of that one act, and of
  moves of tasks; so what is shown of all such histories is shown of them.
-/

namespace WalletGate

variable {η α β : Type}

/-- What comes to a wallet from outside its tasks. -/
inductive Outside (η : Type) where
  | accept (id : ApprovalId)
  | reject (id : ApprovalId) (reason : String)
  | rejectAll (reason : String)
  /-- Time passes. -/
  | wait (milliseconds : Nat)
  /-- Queueing is turned on or off. -/
  | setQueueing (queueing : Bool)
  /-- The host changes. -/
  | host (change : η → η)
  | addCustom (id : ClientId) (config : ClientConfig)
  | removeCustom (id : ClientId)
  | switchToBuiltIn (network : BuiltIn)
  | switchToCustom (id : ClientId)
  | bindOrigin (origin : Origin) (id : ClientId)

namespace Outside

/-- The world behind it. -/
def apply : Outside η → World η → World η
  | accept id, w => (w.onDesk (Desk.accept id)).2
  | reject id reason, w => (w.onDesk (Desk.reject id reason)).2
  | rejectAll reason, w => (w.rejectAll reason).2
  | wait milliseconds, w => w.advance milliseconds
  | setQueueing queueing, w => { w with queueing := queueing }
  | host change, w => { w with host := change w.host }
  | addCustom id config, w => (w.onRegistry (Registry.addCustom id config)).2
  | removeCustom id, w => (w.onRegistry (Registry.removeCustom id)).2
  | switchToBuiltIn network, w => (w.onRegistry (Registry.switchToBuiltIn network)).2
  | switchToCustom id, w => (w.onRegistry (Registry.switchToCustom id)).2
  | bindOrigin origin id, w => (w.onRegistry (Registry.bind origin id)).2

/-- The registry of custom clients is edited, or a client is selected directly. -/
def editsNetworks : Outside η → Bool
  | addCustom _ _ => true
  | removeCustom _ => true
  | switchToBuiltIn _ => true
  | switchToCustom _ => true
  | _ => false

end Outside

/-- One thing that happens to a crew. -/
inductive Act (η α : Type) : Type 1 where
  | spawn (name : String) (p : Program η α)
  /-- The task with this number makes a move. -/
  | go (i : Nat)
  /-- The task with this number is given up. -/
  | drop (i : Nat)
  | outside (o : Outside η)

namespace Crew

/-- What is left of the task with this number. -/
def thread? (i : Nat) (c : Crew η α) : Option (Thread η α) :=
  c.tasks[i]?.bind Task.thread

/-- Leaves something else of a task, and another world. -/
def put (i : Nat) (t : Option (Thread η α)) (w : World η) (c : Crew η α) : Crew η α :=
  { c with tasks := c.tasks.modify i fun task => ⟨task.name, t⟩, world := w }

/-- The name of the task with this number. -/
def nameOf (i : Nat) (c : Crew η α) : String :=
  (c.tasks[i]?.map Task.name).getD ""

/-- A task makes a move; one that has come to its end is taken off, and its end is recorded. -/
def go (i : Nat) (c : Crew η α) : Crew η α :=
  match c.thread? i with
  | none => c
  | some t =>
    match t.ended? with
    | some e => record (c.nameOf i) (some e) (c.put i none c.world)
    | none =>
      match t.move c.world with
      | some m => c.put i (some m.thread) m.world
      | none => c

/-- A task is given up. -/
def giveUp (i : Nat) (c : Crew η α) : Crew η α :=
  match c.thread? i with
  | none => c
  | some t => c.put i none (t.cancel c.world)

/-- The crew behind an act. -/
def perform (a : Act η α) (c : Crew η α) : Crew η α :=
  match a with
  | .spawn name p => c.spawn name p
  | .go i => c.go i
  | .drop i => c.giveUp i
  | .outside o => { c with world := o.apply c.world }

/-- The crew behind a history. -/
def after (c : Crew η α) : List (Act η α) → Crew η α
  | [] => c
  | a :: past => (c.after past).perform a

@[simp] theorem after_nil (c : Crew η α) : c.after [] = c := rfl

@[simp] theorem after_cons (c : Crew η α) (a : Act η α) (past : List (Act η α)) :
    c.after (a :: past) = (c.after past).perform a := rfl

/-- One history after another. -/
theorem after_append (c : Crew η α) (later past : List (Act η α)) :
    c.after (later ++ past) = (c.after past).after later := by
  induction later with
  | nil => rfl
  | cons a later ih => simp [ih]

@[simp] theorem world_put (i : Nat) (t : Option (Thread η α)) (w : World η) (c : Crew η α) :
    (c.put i t w).world = w := rfl

@[simp] theorem world_record (name : String) (e : Option (TaskEnd α)) (c : Crew η α) :
    (record name e c).world = c.world := by
  cases e <;> rfl

@[simp] theorem tasks_record (name : String) (e : Option (TaskEnd α)) (c : Crew η α) :
    (record name e c).tasks = c.tasks := by
  cases e <;> rfl

@[simp] theorem thread?_record (i : Nat) (name : String) (e : Option (TaskEnd α)) (c : Crew η α) :
    (record name e c).thread? i = c.thread? i := by
  simp [thread?]

@[simp] theorem length_put (i : Nat) (t : Option (Thread η α)) (w : World η) (c : Crew η α) :
    (c.put i t w).tasks.length = c.tasks.length := by
  simp [put]

/-- A task of which something is left is one of the tasks. -/
theorem lt_of_thread? {i : Nat} {c : Crew η α} {t : Thread η α} (h : c.thread? i = some t) :
    i < c.tasks.length := by
  obtain ⟨_, htask, _⟩ := Option.bind_eq_some_iff.1 h
  exact (List.getElem?_eq_some_iff.1 htask).1

/-- Nothing is left of a task that was not created yet. -/
theorem thread?_of_length_le {i : Nat} {c : Crew η α} (h : c.tasks.length ≤ i) :
    c.thread? i = none := by
  rw [thread?, List.getElem?_eq_none h]
  rfl

/-- What is left of a task is what was left there. -/
theorem thread?_put_self {i : Nat} {c : Crew η α} {t : Thread η α} (h : c.thread? i = some t)
    (s : Option (Thread η α)) (w : World η) : (c.put i s w).thread? i = s := by
  obtain ⟨task, htask, _⟩ := Option.bind_eq_some_iff.1 h
  simp [thread?, put, htask]

/-- The other tasks are left alone. -/
theorem thread?_put_of_ne {i j : Nat} (h : i ≠ j) (s : Option (Thread η α)) (w : World η)
    (c : Crew η α) :
    (c.put i s w).thread? j = c.thread? j := by
  simp [thread?, put, h]

/-- A task that can move does. -/
theorem go_of_move {i : Nat} {c : Crew η α} {t : Thread η α} {m : Move η α}
    (ht : c.thread? i = some t)
    (hm : t.move c.world = some m) : c.go i = c.put i (some m.thread) m.world := by
  simp [go, ht, Thread.ended?_of_move hm, hm]

/-- A task that neither can move nor has come to its end stays as it is, and so does
everything. -/
theorem go_of_stuck {i : Nat} {c : Crew η α} {t : Thread η α} (ht : c.thread? i = some t)
    (he : t.ended? = none) (hm : t.move c.world = none) : c.go i = c := by
  simp [go, ht, he, hm]

/-- A task that has come to its end is taken off. -/
theorem go_of_ended {i : Nat} {c : Crew η α} {t : Thread η α} {e : TaskEnd α}
    (ht : c.thread? i = some t)
    (he : t.ended? = some e) : c.go i = record (c.nameOf i) (some e) (c.put i none c.world) := by
  simp [go, ht, he]

/-- There is nothing left to move. -/
theorem go_of_gone {i : Nat} {c : Crew η α} (ht : c.thread? i = none) : c.go i = c := by
  simp [go, ht]

/-- The world behind a move of a task is the one behind the move of its thread. -/
theorem world_go (i : Nat) (c : Crew η α) :
    (c.go i).world = c.world ∨
      ∃ t m, c.thread? i = some t ∧ t.move c.world = some m ∧ (c.go i).world = m.world := by
  cases ht : c.thread? i with
  | none => exact .inl (by rw [go_of_gone ht])
  | some t =>
    cases hm : t.move c.world with
    | some m => exact .inr ⟨t, m, rfl, hm, by rw [go_of_move ht hm, world_put]⟩
    | none =>
      refine .inl ?_
      cases he : t.ended? with
      | some e => rw [go_of_ended ht he, world_record, world_put]
      | none => rw [go_of_stuck ht he hm]

/-- A task that has not come to its end is there after its move. -/
theorem thread?_go_self {i : Nat} {c : Crew η α} {t : Thread η α} (ht : c.thread? i = some t)
    (he : t.ended? = none) : (c.go i).thread? i = some (t.after c.world) := by
  cases hm : t.move c.world with
  | some m =>
    rw [go_of_move ht hm, thread?_put_self ht]
    simp [Thread.after, hm]
  | none => rw [go_of_stuck ht he hm, ht, Thread.after, hm]

/-- A task that goes stays one of the tasks. -/
@[simp] theorem length_go (i : Nat) (c : Crew η α) : (c.go i).tasks.length = c.tasks.length := by
  unfold go
  split
  · rfl
  · split
    · simp
    · split <;> simp

/-- So does one that is given up. -/
@[simp] theorem length_giveUp (i : Nat) (c : Crew η α) :
    (c.giveUp i).tasks.length = c.tasks.length := by
  unfold giveUp
  split <;> simp

/-- A task leaves the others alone. -/
theorem thread?_go_of_ne {i j : Nat} (h : i ≠ j) (c : Crew η α) :
    (c.go i).thread? j = c.thread? j := by
  unfold go
  split
  · rfl
  · split
    · rw [thread?_record, thread?_put_of_ne h]
    · split
      · rw [thread?_put_of_ne h]
      · rfl

/-- A task that is given up leaves the others alone. -/
theorem thread?_giveUp_of_ne {i j : Nat} (h : i ≠ j) (c : Crew η α) :
    (c.giveUp i).thread? j = c.thread? j := by
  unfold giveUp
  split
  · rfl
  · rw [thread?_put_of_ne h]

/-- A new task leaves those there are alone. -/
theorem thread?_spawn {i : Nat} {c : Crew η α} {t : Thread η α} (h : c.thread? i = some t)
    (name : String) (p : Program η α) : (c.spawn name p).thread? i = some t := by
  obtain ⟨task, htask, hthread⟩ := Option.bind_eq_some_iff.1 h
  have hlt := (List.getElem?_eq_some_iff.1 htask).1
  simp [thread?, spawn, List.getElem?_append_left hlt, htask, hthread]

/-- **The others wait.**  A task changes only when it moves or is given up. -/
theorem thread?_perform {i : Nat} {c : Crew η α} {t : Thread η α} {a : Act η α}
    (h : c.thread? i = some t)
    (hgo : a ≠ .go i) (hdrop : a ≠ .drop i) : (c.perform a).thread? i = some t := by
  cases a with
  | spawn name p => exact thread?_spawn h name p
  | go j =>
    have hne : j ≠ i := fun he => hgo (he ▸ rfl)
    rw [perform, thread?_go_of_ne hne, h]
  | drop j =>
    have hne : j ≠ i := fun he => hdrop (he ▸ rfl)
    rw [perform, thread?_giveUp_of_ne hne, h]
  | outside o => exact h

/-- What holds between the world before and behind one thing a thread does, and between the
world before and behind what comes from outside, holds between the world before and behind
an act. -/
theorem world_perform {R : World η → World η → Prop} (hrefl : ∀ w, R w w)
    (htrans : ∀ u v w, R u v → R v w → R u w) (hbecomes : ∀ w v, w.Becomes v → R w v)
    {a : Act η α} (c : Crew η α) (houtside : ∀ o, a = .outside o → R c.world (o.apply c.world)) :
    R c.world (c.perform a).world := by
  cases a with
  | spawn name p => exact hrefl _
  | go i =>
    rcases world_go i c with hw | ⟨t, m, _, hm, hw⟩
    · exact hw ▸ hrefl _
    · exact hw ▸ hbecomes _ _ (Thread.becomes_of_move hm)
  | drop i =>
    rw [perform, giveUp]
    split
    · exact hrefl _
    · next t _ =>
      have kept : ∀ v, Relation.ReflTransGen World.Becomes c.world v → R c.world v := by
        intro v hv
        induction hv with
        | refl => exact hrefl _
        | tail _ hstep ih => exact htrans _ _ _ ih (hbecomes _ _ hstep)
      exact kept _ (t.becomes_cancel c.world)
  | outside o => exact houtside o rfl

/-! ### Polling, dropping and settling are histories -/

/-- Leaving what there is changes nothing. -/
theorem put_self {i : Nat} {c : Crew η α} {t : Thread η α} (h : c.thread? i = some t) :
    c.put i (some t) c.world = c := by
  obtain ⟨task, htask, hthread⟩ := Option.bind_eq_some_iff.1 h
  have hsame : c.tasks.modify i (fun task => ⟨task.name, some t⟩) = c.tasks := by
    refine List.ext_getElem? fun j => ?_
    rw [List.getElem?_modify]
    by_cases hij : i = j
    · subst hij
      simp [htask, ← hthread]
    · simp [hij]
  rw [put, hsame]

@[simp] theorem put_put (i : Nat) (s t : Option (Thread η α)) (v w : World η) (c : Crew η α) :
    (c.put i s v).put i t w = c.put i t w := by
  simp [put, List.modify_modify_eq, Function.comp_def]

@[simp] theorem nameOf_put (i : Nat) (t : Option (Thread η α)) (w : World η) (c : Crew η α) :
    (c.put i t w).nameOf i = c.nameOf i := by
  simp [nameOf, put, Function.comp_def]

/-- What is reached by moves of a thread is reached by moves of its task. -/
theorem exists_after_of_reaches {i : Nat} {c : Crew η α} {t s : Thread η α} {w : World η}
    (ht : c.thread? i = some t) (h : Thread.Reaches (t, c.world) (s, w)) :
    ∃ n, c.after (List.replicate n (.go i)) = c.put i (some s) w := by
  suffices hall : ∀ y : Thread η α × World η, Thread.Reaches (t, c.world) y →
      ∃ n, c.after (List.replicate n (.go i)) = c.put i (some y.1) y.2 from hall (s, w) h
  intro y hy
  induction hy with
  | refl => exact ⟨0, (put_self ht).symm⟩
  | @tail x z _ hmove ih =>
    obtain ⟨n, hn⟩ := ih
    obtain ⟨deed, hmove⟩ := hmove
    have hx : (c.put i (some x.1) x.2).thread? i = some x.1 := thread?_put_self ht _ _
    refine ⟨n + 1, ?_⟩
    rw [List.replicate_succ, after_cons, hn, perform, go_of_move hx hmove, put_put]

/-- Going on with a task as far as it goes is a number of its moves. -/
theorem exists_after_resume {i : Nat} {c : Crew η α} {t : Thread η α} (ht : c.thread? i = some t) :
    ∃ n, c.after (List.replicate n (.go i)) =
      record (c.nameOf i) (Task.after (c.nameOf i) (t.resume c.world).1).2.1
        (c.put i (Task.after (c.nameOf i) (t.resume c.world).1).1.thread (t.resume c.world).2) := by
  obtain ⟨n, hn⟩ := exists_after_of_reaches ht (t.reaches_resume c.world)
  rcases hr : t.resume c.world with ⟨o, w⟩
  rw [hr] at hn
  have hthread : (c.after (List.replicate n (.go i))).thread? i = some o.thread := by
    rw [hn]
    exact thread?_put_self ht _ _
  have hended : ∀ e, o.thread.ended? = some e →
      c.after (List.replicate (n + 1) (.go i)) = record (c.nameOf i) (some e) (c.put i none w) := by
    intro e he
    rw [List.replicate_succ, after_cons, perform, go_of_ended hthread he, hn, nameOf_put, put_put,
      world_put]
  cases o with
  | finished a => exact ⟨n + 1, hended _ rfl⟩
  | panicked text => exact ⟨n + 1, hended _ rfl⟩
  | suspended s => exact ⟨n, hn⟩

/-- Leaving something of a task that is there. -/
theorem put_eq_set {i : Nat} {c : Crew η α} {task : Task η α} (h : c.tasks[i]? = some task)
    (t : Option (Thread η α)) (w : World η) :
    c.put i t w = { c with tasks := c.tasks.set i ⟨task.name, t⟩, world := w } := by
  have hset : c.tasks.modify i (fun task => ⟨task.name, t⟩) = c.tasks.set i ⟨task.name, t⟩ := by
    refine List.ext_getElem? fun j => ?_
    rw [List.getElem?_modify, List.getElem?_set]
    by_cases hij : i = j
    · subst hij
      obtain ⟨hlt, htask⟩ := List.getElem?_eq_some_iff.1 h
      simp [hlt, htask]
    · simp [hij]
  rw [put, hset]

/-- Which task a poll resumes, if any. -/
theorem pollIn_cases (name : String) (ts : List (Task η α)) (w : World η) :
    (∃ p, pollIn name ts w = (ts, w, none, p)) ∨
      ∃ i t, ts[i]? = some ⟨name, some t⟩ ∧
        pollIn name ts w = (ts.set i (Task.after name (t.resume w).1).1, (t.resume w).2,
          (Task.after name (t.resume w).1).2) := by
  induction ts with
  | nil => exact .inl ⟨_, rfl⟩
  | cons task rest ih =>
    by_cases hname : task.name = name
    · cases hthread : task.thread with
      | none => exact .inl ⟨.gone, by simp [pollIn, hname, hthread]⟩
      | some t =>
        refine .inr ⟨0, t, ?_, by simp [pollIn, hname, hthread]⟩
        rw [List.getElem?_cons_zero, ← hname, ← hthread]
    · rcases ih with ⟨p, hp⟩ | ⟨i, t, hi, hp⟩
      · exact .inl ⟨p, by simp [pollIn, hname, hp]⟩
      · exact .inr ⟨i + 1, t, by simpa using hi, by simp [pollIn, hname, hp]⟩

/-- Which task is dropped, if any. -/
theorem dropIn_cases (name : String) (ts : List (Task η α)) (w : World η) :
    dropIn name ts w = (ts, w, false) ∨
      ∃ i t, ts[i]? = some ⟨name, some t⟩ ∧
        dropIn name ts w = (ts.set i ⟨name, none⟩, t.cancel w, true) := by
  induction ts with
  | nil => exact .inl rfl
  | cons task rest ih =>
    by_cases hname : task.name = name
    · cases hthread : task.thread with
      | none => exact .inl (by simp [dropIn, hname, hthread])
      | some t =>
        refine .inr ⟨0, t, ?_, by simp [dropIn, hname, hthread]⟩
        rw [List.getElem?_cons_zero, ← hname, ← hthread]
    · rcases ih with hp | ⟨i, t, hi, hp⟩
      · exact .inl (by simp [dropIn, hname, hp])
      · exact .inr ⟨i + 1, t, by simpa using hi, by simp [dropIn, hname, hp]⟩

/-- Which task a step resumes. -/
theorem stepIn_cases {w v : World η} {ts ss : List (Task η α)} {name : String}
    {e : Option (TaskEnd α)} (h : stepIn w ts = some (ss, v, name, e)) :
    ∃ i t, ts[i]? = some ⟨name, some t⟩ ∧ ss = ts.set i (Task.after name (t.resume w).1).1 ∧
      v = (t.resume w).2 ∧ e = (Task.after name (t.resume w).1).2.1 := by
  induction ts generalizing ss with
  | nil => simp [stepIn] at h
  | cons task rest ih =>
    have skip : ∀ x : List (Task η α) × World η × String × Option (TaskEnd α),
        stepIn w rest = some x → (task :: x.1, x.2) = (ss, v, name, e) →
        ∃ i t, (task :: rest)[i]? = some ⟨name, some t⟩ ∧
          ss = (task :: rest).set i (Task.after name (t.resume w).1).1 ∧
          v = (t.resume w).2 ∧ e = (Task.after name (t.resume w).1).2.1 := by
      rintro ⟨rest', v', name', e'⟩ hr heq
      simp only [Prod.mk.injEq] at heq
      obtain ⟨rfl, rfl, rfl, rfl⟩ := heq
      obtain ⟨i, t, hi, hs, hv, he⟩ := ih hr
      exact ⟨i + 1, t, by simpa using hi, by simp [hs], hv, he⟩
    unfold stepIn at h
    split at h
    · next thread hthread =>
      split at h
      · simp only [Option.some.injEq, Prod.mk.injEq] at h
        obtain ⟨hs, hv, rfl, he⟩ := h
        refine ⟨0, thread, ?_, hs.symm, hv.symm, he.symm⟩
        rw [List.getElem?_cons_zero, ← hthread]
      · obtain ⟨x, hr, heq⟩ := Option.map_eq_some_iff.1 h
        exact skip x hr heq
    · obtain ⟨x, hr, heq⟩ := Option.map_eq_some_iff.1 h
      exact skip x hr heq

/-- The crew behind a task that was resumed is the one behind a number of its moves. -/
theorem exists_after_resumed {i : Nat} {name : String} {c : Crew η α} {t : Thread η α}
    (h : c.tasks[i]? = some ⟨name, some t⟩) :
    ∃ n, c.after (List.replicate n (.go i)) = record name (Task.after name (t.resume c.world).1).2.1
      { c with
        tasks := c.tasks.set i (Task.after name (t.resume c.world).1).1
        world := (t.resume c.world).2 } := by
  have hthread : c.thread? i = some t := by simp [thread?, h]
  have hname : c.nameOf i = name := by simp [nameOf, h]
  obtain ⟨n, hn⟩ := exists_after_resume hthread
  rw [hname, put_eq_set h] at hn
  refine ⟨n, hn.trans ?_⟩
  cases (t.resume c.world).1 <;> rfl

/-- **Resuming a task once** changes nothing, or is a history in which nothing happens but
moves of a task of that name. -/
theorem poll_eq_after (name : String) (c : Crew η α) :
    (c.poll name).2 = c ∨
      ∃ i n, c.nameOf i = name ∧ (c.poll name).2 = c.after (List.replicate n (.go i)) := by
  rcases pollIn_cases name c.tasks c.world with ⟨p, hp⟩ | ⟨i, t, hi, hp⟩
  · exact .inl (by simp [poll, hp, record])
  · obtain ⟨n, hn⟩ := exists_after_resumed hi
    exact .inr ⟨i, n, by simp [nameOf, hi], by rw [hn, poll, hp]⟩

/-- **Giving a task up** changes nothing, or is that one act. -/
theorem drop_eq_after (name : String) (c : Crew η α) :
    (c.drop name).2 = c ∨ ∃ i, c.nameOf i = name ∧ (c.drop name).2 = c.after [.drop i] := by
  rcases dropIn_cases name c.tasks c.world with hp | ⟨i, t, hi, hp⟩
  · exact .inl (by simp [drop, hp])
  · have hthread : c.thread? i = some t := by simp [thread?, hi]
    refine .inr ⟨i, by simp [nameOf, hi], ?_⟩
    rw [after_cons, after_nil, perform, giveUp, hthread]
    simp [drop, hp, put_eq_set hi]

/-- **Settling** is a history in which nothing happens but moves of these tasks. -/
theorem settle_eq_after (c : Crew η α) :
    ∃ tasks : List Nat, c.settle = c.after (tasks.map .go) := by
  fun_induction settle c with
  | case1 c d h ih =>
    obtain ⟨⟨ss, v, name, e⟩, hs, rfl⟩ := Option.map_eq_some_iff.1 h
    obtain ⟨i, t, hi, rfl, rfl, rfl⟩ := stepIn_cases hs
    obtain ⟨n, hn⟩ := exists_after_resumed hi
    obtain ⟨later, hlater⟩ := ih
    refine ⟨later ++ List.replicate n i, ?_⟩
    rw [List.map_append, List.map_replicate, after_append, hn, hlater]
  | case2 c h => exact ⟨[], rfl⟩

end Crew

end WalletGate
