import WalletGate.Proofs.Writes

/-!
# The way of a task through its program

Whatever else goes on, a task does one thing after another, and what it does next is said by
its program and by what came of the things it did before.  A **doing** is what one move of a
task amounts to: a question to the world, a step of the host, a request parked or a decision
heard, a slot taken or given up.  The **ways** of a program are the lists of doings that can
come of it, each with the end it has come to there, if it has; a list that breaks off is a
way too.  Nothing is assumed of what happens between two doings: a question may be answered
as any world would answer it, the user may decide as they like.

So what a task does, and in which order, can be read off its program, whatever the history.

* `Program.way_bind` — a way of a composed program is a way of its first part, or of one
  after the other;
* `Thread.way_of_moves` — one move is the first doing on a way of what is left;
* `Crew.way_doings` — what a task has done, in any history, is a way of its program.
-/

namespace WalletGate

variable {η α β : Type}

/-- What a move of a task amounts to. -/
inductive Doing : Type 1 where
  /-- The world was asked, and has answered. -/
  | called {β : Type} (c : Call β)
  /-- It waits for the host. -/
  | waits
  /-- The host took the step. -/
  | hosted
  /-- A request was parked. -/
  | asked (request : ApprovalRequest)
  /-- It was told the decision. -/
  | told (answer : Except Fault Unit)
  /-- Something was done to the slot of a queue. -/
  | slot (queue : Nat) (deed : Deed)

/-- Lists of doings, each with the end that was come to, if one was. -/
abbrev Ways (α : Type) := List Doing → Option (TaskEnd α) → Prop

namespace Ways

/-- Nothing was done yet, or this first and then something on one of these ways. -/
inductive From (d : Doing) (onward : Ways α) : Ways α
  | start : From d onward [] none
  | went {later : List Doing} {r : Option (TaskEnd α)} :
    onward later r → From d onward (d :: later) r

/-- On through a job that holds the slot of a queue, and, once it has come to its end,
behind it. -/
inductive ThroughSlot (queue : Nat) (job : Ways β) (behind : β → Ways α) : Ways α
  | inside {steps : List Doing} : job steps none → ThroughSlot queue job behind steps none
  | finished (inner : List Doing) {later : List Doing} {r : Option (TaskEnd α)} (b : β) :
    job inner (some (.finished b)) → behind b later r →
    ThroughSlot queue job behind (inner ++ .slot queue .ended :: later) r
  | panicked (inner : List Doing) {r : Option (TaskEnd α)} (text : String) :
    job inner (some (.panicked text)) → r = none ∨ r = some (.panicked text) →
    ThroughSlot queue job behind (inner ++ [.slot queue .ended]) r

/-- To a queue and on through a job that holds its slot: at once, or after a wait. -/
inductive ToSlot (queue : Nat) (job : Ways β) (behind : β → Ways α) : Ways α
  | start : ToSlot queue job behind [] none
  | came : ToSlot queue job behind [.slot queue .came] none
  | cameIn {later : List Doing} {r : Option (TaskEnd α)} :
    ThroughSlot queue job behind later r → ToSlot queue job behind (.slot queue .cameIn :: later) r
  | began {later : List Doing} {r : Option (TaskEnd α)} :
    ThroughSlot queue job behind later r →
    ToSlot queue job behind (.slot queue .came :: .slot queue .began :: later) r

/-- Through one thing, and, once that has come to its end, on behind it. -/
inductive Then (first : Ways α) (behind : α → Ways β) : Ways β
  | within {steps : List Doing} : first steps none → Then first behind steps none
  | panicked {steps : List Doing} (text : String) :
    first steps (some (.panicked text)) → Then first behind steps (some (.panicked text))
  | went (inner : List Doing) {later : List Doing} {r : Option (TaskEnd β)} (a : α) :
    first inner (some (.finished a)) → behind a later r → Then first behind (inner ++ later) r

variable {first onward : Ways α} {behind : α → Ways β} {steps : List Doing} {r : Option (TaskEnd β)}

theorem From.imp {d : Doing} {wider : Ways α} {e : Option (TaskEnd α)} (h : From d first steps e)
    (hfirst : ∀ later e, first later e → wider later e) : From d wider steps e := by
  cases h with
  | start => exact .start
  | went h => exact .went (hfirst _ _ h)

theorem ThroughSlot.imp {queue : Nat} {wider : Ways α} {elsewhere : α → Ways β}
    (h : ThroughSlot queue first behind steps r) (hfirst : ∀ inner e, first inner e → wider inner e)
    (hbehind : ∀ a later e, behind a later e → elsewhere a later e) :
    ThroughSlot queue wider elsewhere steps r := by
  cases h with
  | inside hjob => exact .inside (hfirst _ _ hjob)
  | finished inner a hjob hnext => exact .finished inner a (hfirst _ _ hjob) (hbehind a _ _ hnext)
  | panicked inner text hjob hr => exact .panicked inner text (hfirst _ _ hjob) hr

theorem ToSlot.imp {queue : Nat} {wider : Ways α} {elsewhere : α → Ways β}
    (h : ToSlot queue first behind steps r) (hfirst : ∀ inner e, first inner e → wider inner e)
    (hbehind : ∀ a later e, behind a later e → elsewhere a later e) :
    ToSlot queue wider elsewhere steps r := by
  cases h with
  | start => exact .start
  | came => exact .came
  | cameIn h => exact .cameIn (h.imp hfirst hbehind)
  | began h => exact .began (h.imp hfirst hbehind)

theorem Then.imp {elsewhere : α → Ways β} (h : Then first behind steps r)
    (hbehind : ∀ a later e, behind a later e → elsewhere a later e) :
    Then first elsewhere steps r := by
  cases h with
  | within hfirst => exact .within hfirst
  | panicked text hfirst => exact .panicked text hfirst
  | went inner a hfirst hnext => exact .went inner a hfirst (hbehind a _ _ hnext)

/-- What leads to one thing leads through it and on. -/
theorem Then.prepend (h : Then onward behind steps r) (before : List Doing)
    (hbefore : ∀ later e, onward later e → first (before ++ later) e) :
    Then first behind (before ++ steps) r := by
  cases h with
  | within h => exact .within (hbefore _ _ h)
  | panicked text h => exact .panicked text (hbefore _ _ h)
  | went inner a hfirst hbehind =>
    rw [← List.append_assoc]
    exact .went _ a (hbefore _ _ hfirst) hbehind

/-- Whoever goes on behind a job that holds a slot goes through the job first. -/
theorem ThroughSlot.then {queue : Nat} {γ : Type} {job : Ways γ} {next : γ → Ways α}
    (h : ThroughSlot queue job (fun c => Then (next c) behind) steps r) :
    Then (ThroughSlot queue job next) behind steps r := by
  cases h with
  | inside hjob => exact .within (.inside hjob)
  | panicked inner text hjob hr =>
    rcases hr with rfl | rfl
    · exact .within (.panicked inner text hjob (.inl rfl))
    · exact .panicked text (.panicked inner text hjob (.inr rfl))
  | finished inner c hjob hnext =>
    have hbefore (steps : List Doing) (e : Option (TaskEnd α)) (h : next c steps e) :
        ThroughSlot queue job next (inner ++ [.slot queue .ended] ++ steps) e := by
      rw [List.append_assoc]
      exact .finished inner c hjob h
    have hlater := hnext.prepend _ hbefore
    rwa [List.append_assoc] at hlater

end Ways

open Ways

/-- The ways of a program. -/
def Program.Way {α : Type} : Program η α → Ways α
  | done a => fun steps r => steps = [] ∧ (r = none ∨ r = some (.finished a))
  | panic text => fun steps r => steps = [] ∧ (r = none ∨ r = some (.panicked text))
  | call c next => From (.called c) fun later r => ∃ w : World η, (next (c.answer w).1).Way later r
  | await step next => From .waits (From .hosted fun later r =>
      ∃ b host rest, step host = some (b, rest) ∧ (next b).Way later r)
  | ask request next => From (.asked request) fun steps r =>
      ∃ answer, From (.told answer) ((next answer).Way) steps r
  | enqueue queue job next => ToSlot queue job.Way fun b => (next b).Way

/-- The ways of what is left of a program. -/
def Thread.Way {α : Type} : Thread η α → Ways α
  | fresh p => p.Way
  | held step next =>
    From .hosted fun later r => ∃ b host rest, step host = some (b, rest) ∧ (next b).Way later r
  | asking _ _ _ next => fun steps r => ∃ answer, From (.told answer) ((next answer).Way) steps r
  | waiting queue _ job next =>
    From (.slot queue .began) (ThroughSlot queue job.Way fun b => (next b).Way)
  | holding queue inner next => ThroughSlot queue inner.Way fun b => (next b).Way

namespace Program

/-- Nothing was done yet. -/
theorem way_start (p : Program η α) : p.Way [] none := by
  cases p with
  | done a => exact ⟨rfl, .inl rfl⟩
  | panic text => exact ⟨rfl, .inl rfl⟩
  | call c next => exact .start
  | await step next => exact .start
  | ask request next => exact .start
  | enqueue queue job next => exact .start

/-- **A way of a composed program** is a way of its first part, or of one part after the
other. -/
theorem way_bind {p : Program η α} {f : α → Program η β} {steps : List Doing}
    {r : Option (TaskEnd β)}
    (h : (p.bind f).Way steps r) : Then p.Way (fun a => (f a).Way) steps r := by
  induction p generalizing steps r with
  | done a => exact .went [] a ⟨rfl, .inr rfl⟩ h
  | panic text =>
    obtain ⟨rfl, rfl | rfl⟩ := h
    · exact .within ⟨rfl, .inl rfl⟩
    · exact .panicked text ⟨rfl, .inr rfl⟩
  | call c next ih =>
    cases h with
    | start => exact .within .start
    | went h =>
      obtain ⟨w, h⟩ := h
      exact (ih _ h).prepend [.called c] fun later e h => .went ⟨w, h⟩
  | await step next ih =>
    cases h with
    | start => exact .within .start
    | went h =>
      cases h with
      | start => exact .within (.went .start)
      | went h =>
        obtain ⟨b, host, rest, htaken, h⟩ := h
        exact (ih b h).prepend [.waits, .hosted] fun later e h => .went
          (.went ⟨b, host, rest, htaken, h⟩)
  | ask request next ih =>
    cases h with
    | start => exact .within .start
    | went h =>
      obtain ⟨answer, h⟩ := h
      cases h with
      | start => exact .within (.went ⟨answer, .start⟩)
      | went h =>
        exact (ih answer h).prepend [.asked request, .told answer] fun later e h => .went
          ⟨answer, .went h⟩
  | enqueue queue job next _ ih =>
    have through {later : List Doing}
      (h : ThroughSlot queue job.Way (fun b => ((next b).bind f).Way) later r) :
        Then (ThroughSlot queue job.Way fun b => (next b).Way) (fun a => (f a).Way) later r := by
      refine ThroughSlot.then ?_
      cases h with
      | inside hjob => exact .inside hjob
      | finished inner b hjob h => exact .finished inner b hjob (ih b h)
      | panicked inner text hjob hr => exact .panicked inner text hjob hr
    cases h with
    | start => exact .within .start
    | came => exact .within .came
    | cameIn h => exact (through h).prepend [.slot queue .cameIn] fun later e h => .cameIn h
    | began h =>
      exact (through h).prepend [.slot queue .came, .slot queue .began] fun later e h => .began h

end Program

namespace Thread

/-- What the next move of a thread amounts to; none if it has to wait or has come to its end. -/
def doing? {α : Type} : Thread η α → World η → Option Doing
  | fresh (.call c _), _ => some (.called c)
  | fresh (.await _ _), _ => some .waits
  | fresh (.ask request _), _ => some (.asked request)
  | fresh (.enqueue queue _ _), w =>
    some (.slot queue (if (w.enter queue).1.isSome then .came else .cameIn))
  | fresh _, _ => none
  | held step _, w => (step w.host).map fun _ => .hosted
  | asking requester deadline request _, w =>
    (w.look requester deadline).map fun ending => .told (w.conclude requester request ending).1
  | waiting queue place _ _, w =>
    if (w.queues queue).isOver place then some (.slot queue .began) else none
  | holding queue inner _, w =>
    match inner.ended? with
    | some _ => some (.slot queue .ended)
    | none => inner.doing? w

variable {t : Thread η α} {w : World η} {m : Move η α}

/-- Nothing was done yet. -/
theorem way_start (t : Thread η α) : t.Way [] none := by
  induction t with
  | fresh p => exact p.way_start
  | held step next => exact .start
  | asking requester deadline request next => exact ⟨.ok (), .start⟩
  | waiting queue place job next => exact .start
  | holding queue inner next ih => exact .inside ih

/-- A thread at its end has come to it. -/
theorem way_of_ended {e : TaskEnd α} (h : t.ended? = some e) : t.Way [] (some e) := by
  rcases eq_fresh_of_ended h with ⟨a, rfl, rfl⟩ | ⟨text, rfl, rfl⟩
  · exact ⟨rfl, .inr rfl⟩
  · exact ⟨rfl, .inr rfl⟩

/-- A thread that moves has not come to its end. -/
theorem ended?_of_moves (h : Moves w t m) : t.ended? = none := by
  cases h <;> rfl

/-- **One move is the first doing on a way** of what is left. -/
theorem way_of_moves (h : Moves w t m) :
    ∃ d, t.doing? w = some d ∧ ∀ later r, m.thread.Way later r → t.Way (d :: later) r := by
  induction h with
  | call c next => exact ⟨_, rfl, fun later r h => .went ⟨w, h⟩⟩
  | await step next => exact ⟨_, rfl, fun later r h => .went h⟩
  | ask request next => exact ⟨_, rfl, fun later r h => .went h⟩
  | came queue place job next taken =>
    refine ⟨_, rfl, fun later r h => ?_⟩
    rw [taken]
    cases h with
    | start => exact .came
    | went h => exact .began h
  | cameIn queue job next free =>
    refine ⟨_, rfl, fun later r h => ?_⟩
    rw [free]
    exact .cameIn h
  | hosted step next b host taken =>
    exact ⟨.hosted, by rw [doing?, taken]; rfl, fun later r h => .went ⟨b, _, _, taken, h⟩⟩
  | concluded requester deadline request next ending found =>
    exact ⟨_, by rw [doing?, found]; rfl, fun later r h => ⟨_, .went h⟩⟩
  | began queue place job next woken =>
    exact ⟨_, by rw [doing?, if_pos woken], fun later r h => .went h⟩
  | finished queue b next => exact ⟨_, rfl, fun later r h => .finished [] b ⟨rfl, .inr rfl⟩ h⟩
  | panicked queue text next =>
    refine ⟨_, rfl, fun later r h => ?_⟩
    obtain ⟨rfl, hr⟩ := h
    exact .panicked [] text ⟨rfl, .inr rfl⟩ hr
  | @inside α β queue inner m next moves ih =>
    obtain ⟨d, hd, hway⟩ := ih
    refine ⟨d, by rw [doing?, ended?_of_moves moves]; exact hd, fun later r h => ?_⟩
    cases h with
    | inside h => exact .inside (hway _ _ h)
    | finished inner b hjob h => exact .finished (d :: inner) b (hway _ _ hjob) h
    | panicked inner text hjob hr => exact .panicked (d :: inner) text (hway _ _ hjob) hr

/-- Where there is no move there is nothing done. -/
theorem doing?_of_not_move (h : t.move w = none) : t.doing? w = none := by
  induction t with
  | fresh p =>
    cases p with
    | done a => rfl
    | panic text => rfl
    | enqueue queue job next =>
      simp only [move, Program.move] at h
      rcases hw : w.enter queue with ⟨_ | place, v⟩ <;> rw [hw] at h <;> cases h
    | _ => cases h
  | held step next => simpa [move, doing?] using h
  | asking requester deadline request next => simpa [move, doing?] using h
  | waiting queue place job next =>
    rw [move] at h
    split at h
    · cases h
    · next hnot => exact if_neg hnot
  | holding queue inner next ih =>
    rw [move] at h
    split at h
    · cases h
    · cases h
    · next hended =>
      rw [doing?, hended]
      exact ih (Option.map_eq_none_iff.1 h)

end Thread

namespace Crew

/-- What an act amounts to for the task with this number; none if it is nothing the task
does. -/
def doing? (i : Nat) (c : Crew η α) : Act η α → Option Doing
  | .go j => if j = i then (c.thread? i).bind fun t => t.doing? c.world else none
  | _ => none

/-- What the task with this number has done in a history, the first thing first. -/
def doings (c : Crew η α) (i : Nat) : List (Act η α) → List Doing
  | [] => []
  | a :: past => c.doings i past ++ ((c.after past).doing? i a).toList

variable {c : Crew η α} {i : Nat} {past : List (Act η α)} {a : Act η α}

/-- Only the moves of a task are something it does. -/
theorem doings_of_ne (h : a ≠ .go i) : c.doings i (a :: past) = c.doings i past := by
  cases a with
  | go j => simp [doings, doing?, show j ≠ i from fun hj => h (congrArg Act.go hj)]
  | _ => simp [doings, doing?]

/-- A task of which nothing is left does nothing more. -/
theorem doings_of_gone (h : (c.after past).thread? i = none) :
    c.doings i (a :: past) = c.doings i past := by
  by_cases ha : a = .go i
  · simp [doings, ha, doing?, h]
  · exact doings_of_ne ha

/-- What a task has done leads through its program to what is left of it. -/
structure OnItsWay (c : Crew η α) (i : Nat) (p : Program η α) (past : List (Act η α)) : Prop where
  created : i < (c.after past).tasks.length
  /-- What was done and the end that was recorded. -/
  way : p.Way (c.doings i past) (c.story i past).ended
  /-- Whoever goes on with what is left has come this way through the program. -/
  onward : ∀ t, (c.after past).thread? i = some t → ∀ later r, t.Way later r →
    p.Way (c.doings i past ++ later) r

namespace OnItsWay

variable {p : Program η α} {t : Thread η α}

theorem created_cons (h : c.OnItsWay i p past) (a : Act η α) :
    i < (c.after (a :: past)).tasks.length :=
  Nat.lt_of_lt_of_le h.created (length_perform_le (c.after past) a)

/-- An act that is nothing the task does leaves it where it is. -/
theorem kept (h : c.OnItsWay i p past) (hdoings : c.doings i (a :: past) = c.doings i past)
    (hstory : c.story i (a :: past) = c.story i past)
    (hthread : (c.after (a :: past)).thread? i = (c.after past).thread? i) :
    c.OnItsWay i p (a :: past) := by
  refine ⟨h.created_cons a, ?_, ?_⟩
  · rw [hdoings, hstory]
    exact h.way
  · rw [hdoings, hthread]
    exact h.onward

/-- A move takes it on by what the move amounts to. -/
theorem moved (h : c.OnItsWay i p past) (ht : (c.after past).thread? i = some t) {m : Move η α}
    (hm : t.move (c.after past).world = some m) : c.OnItsWay i p (.go i :: past) := by
  obtain ⟨d, hd, hway⟩ := Thread.way_of_moves (Thread.moves_of_move hm)
  have hdoings : c.doings i (.go i :: past) = c.doings i past ++ [d] := by
    simp [doings, doing?, ht, hd]
  have hended : (c.story i (.go i :: past)).ended = none := by
    rw [story_go ht, Story.go_of_move hm]
    exact (live_of_thread? ht).ended
  have honward (later : List Doing) (r : Option (TaskEnd α)) (hlater : m.thread.Way later r) :
      p.Way (c.doings i (.go i :: past) ++ later) r := by
    rw [hdoings, List.append_assoc]
    exact h.onward t ht _ _ (hway later r hlater)
  refine ⟨h.created_cons _, ?_, fun s hs => ?_⟩
  · have hhere := honward [] none m.thread.way_start
    rwa [List.append_nil, ← hended] at hhere
  · rw [after_cons, perform, go_of_move ht hm, thread?_put_self ht] at hs
    cases hs
    exact honward

/-- At the end of its program the end is recorded. -/
theorem ended (h : c.OnItsWay i p past) (ht : (c.after past).thread? i = some t) {e : TaskEnd α}
    (he : t.ended? = some e) : c.OnItsWay i p (.go i :: past) := by
  have hdoings : c.doings i (.go i :: past) = c.doings i past := by
    simp [doings, doing?, ht, Thread.doing?_of_not_move (Thread.move_of_ended he)]
  have hended : (c.story i (.go i :: past)).ended = some e := by
    rw [story_go ht, Story.go_of_ended he]
  refine ⟨h.created_cons _, ?_, fun s hs => ?_⟩
  · have hhere := h.onward t ht [] (some e) (Thread.way_of_ended he)
    rwa [List.append_nil, ← hdoings, ← hended] at hhere
  · rw [after_cons, perform, go_of_ended ht he, thread?_record, thread?_put_self ht] at hs
    cases hs

/-- Whoever is given up has come as far as that. -/
theorem dropped (h : c.OnItsWay i p past) (ht : (c.after past).thread? i = some t) :
    c.OnItsWay i p (.drop i :: past) := by
  have hdoings : c.doings i (.drop i :: past) = c.doings i past := doings_of_ne (by simp)
  refine ⟨h.created_cons _, ?_, fun s hs => ?_⟩
  · rw [hdoings, story_drop ht]
    exact h.way
  · rw [after_cons, perform, giveUp, ht, thread?_put_self ht] at hs
    cases hs

/-- **One act keeps a task on its way.** -/
theorem cons (h : c.OnItsWay i p past) (a : Act η α) : c.OnItsWay i p (a :: past) := by
  by_cases ha : a = .go i ∨ a = .drop i
  · cases ht : (c.after past).thread? i with
    | none =>
      exact h.kept (doings_of_gone ht) (story_of_gone ht)
        (by rw [after_cons, perform_of_gone ht ha])
    | some t =>
      rcases ha with rfl | rfl
      · cases hm : t.move (c.after past).world with
        | some m => exact h.moved ht hm
        | none =>
          cases he : t.ended? with
          | some e => exact h.ended ht he
          | none =>
            refine h.kept ?_ ?_ (by rw [after_cons, perform, go_of_stuck ht he hm])
            · simp [doings, doing?, ht, Thread.doing?_of_not_move hm]
            · rw [story_go ht, Story.go_of_stuck he hm]
      · exact h.dropped ht
  · rw [not_or] at ha
    exact h.kept (doings_of_ne ha.1) (story_cons_of_ne ha.1 ha.2)
      (thread?_perform_of_lt h.created ha.1 ha.2)

end OnItsWay

/-- **What a task has done is a way of its program**, in any history, whatever the others do
and whatever comes from outside. -/
theorem way_doings (start : Crew η α) (name : String) (p : Program η α) (past : List (Act η α)) :
    p.Way ((start.spawn name p).doings start.tasks.length past)
      ((start.spawn name p).story start.tasks.length past).ended := by
  suffices h : (start.spawn name p).OnItsWay start.tasks.length p past from h.way
  induction past with
  | nil =>
    refine ⟨by simp [spawn], p.way_start, fun t ht later r h => ?_⟩
    have hfresh : t = .fresh p := by simpa [thread?, spawn] using ht.symm
    rw [hfresh] at h
    exact h
  | cons a past ih => exact ih.cons a

end Crew

end WalletGate
