import WalletGate.Gate
import WalletGate.Proofs.Admission
import WalletGate.Proofs.Check
import WalletGate.Proofs.Rule

/-!
# One prompt at a time

Where the user is asked only by jobs of one queue, at most one request is parked at the
desk, and it is the request of the job that holds the slot and waits for the decision.
Whatever becomes of that job, its entry is off the desk before the slot goes to another.

`Program.AsksBehind` says of a program that it asks only while it holds the slot; a gate of
the queue does, and so does a pipeline of such gates and of handlers that ask nobody else
(`Pipeline.asksBehind_handle`).  What a thread asks at the moment is its **question**.

* `Thread.hears_of_move`, `Thread.desk_cancel` — all that a move, and giving a thread up,
  can do to the desk;
* `Thread.runs_of_question` — whoever has a question holds the slot;
* `Prompted.perform` — every parked request is somebody's question, and one act keeps it so;
* `Gate.one_prompt` — all of it, of every history.
-/

namespace WalletGate

variable {η α β : Type}

/-! ### Programs that ask only behind the slot -/

namespace Program

/-- The program asks the user only while it holds the slot of the queue. -/
def AsksBehind (queue : Nat) {α : Type} : Program η α → Prop
  | done _ => True
  | panic _ => True
  | call _ next => ∀ b, (next b).AsksBehind queue
  | await _ next => ∀ b, (next b).AsksBehind queue
  | ask _ _ => False
  | enqueue key job next => (key = queue ∨ job.AsksBehind queue) ∧ ∀ b, (next b).AsksBehind queue

/-- Programs that ask only behind the slot compose. -/
theorem asksBehind_bind {queue : Nat} {p : Program η α} {f : α → Program η β}
    (hp : p.AsksBehind queue)
    (hf : ∀ a, (f a).AsksBehind queue) : (p.bind f).AsksBehind queue := by
  induction p with
  | done a => exact hf a
  | panic text => trivial
  | call c next ih => exact fun b => ih b (hp b) hf
  | await step next ih => exact fun b => ih b (hp b) hf
  | ask request next ih => exact hp.elim
  | enqueue key job next _ ih => exact ⟨hp.1, fun b => ih b (hp.2 b) hf⟩

end Program

/-- The handler asks nobody on its own account, or only behind the slot: with handlers
behind it that ask only behind the slot, it asks only there. -/
def Handler.AsksBehind (queue : Nat) (handler : Handler η) : Prop :=
  ∀ request response rest, (∀ q s, (rest q s : Program η Turn).AsksBehind queue) →
    (handler request response rest).AsksBehind queue

/-- A gate asks only behind the slot of its queue. -/
theorem Gate.asksBehind_handle {g : Gate η}
    (hflag : g.collaborators.isQueueing.AsksBehind g.queue) :
    Handler.AsksBehind g.queue g.handle := by
  intro request response rest hrest
  unfold Gate.handle
  split
  · trivial
  · split
    · trivial
    · refine Program.asksBehind_bind hflag fun queueing => ?_
      split
      · dsimp only
        split
        · exact fun _ => ⟨.inl rfl, fun _ => trivial⟩
        · exact fun _ => hrest _ _
      · exact hrest _ _

/-- **A pipeline asks only behind the slot** if each of its handlers does. -/
theorem Pipeline.asksBehind_handle {queue : Nat} {handlers : List (Handler η)}
    (h : ∀ handler ∈ handlers, Handler.AsksBehind queue handler) (request : Request) :
    (Pipeline.handle handlers request).AsksBehind queue := by
  have hdispatch : ∀ q s, (Pipeline.dispatch handlers q s).AsksBehind queue := by
    induction handlers with
    | nil => exact fun _ _ => trivial
    | cons handler rest ih =>
      intro q s
      exact h handler List.mem_cons_self q s _
        (ih fun other hother => h other (List.mem_cons_of_mem _ hother))
  refine Program.asksBehind_bind (hdispatch _ _) fun turn => Program.asksBehind_bind ?_
    fun _ => trivial
  unfold Pipeline.report
  split
  · trivial
  · exact fun _ => trivial

namespace Thread

/-- What is left of the program asks only while it holds the slot of the queue. -/
def AsksBehind (queue : Nat) {α : Type} : Thread η α → Prop
  | fresh p => p.AsksBehind queue
  | held _ next => ∀ b, (next b).AsksBehind queue
  | asking _ _ _ _ => False
  | waiting key _ job next => (key = queue ∨ job.AsksBehind queue) ∧ ∀ b, (next b).AsksBehind queue
  | holding key inner next =>
    (key = queue ∨ inner.AsksBehind queue) ∧ ∀ b, (next b).AsksBehind queue

/-- What the thread asks the user at the moment. -/
def question? {α : Type} : Thread η α → Option Parked
  | asking requester _ request _ => some ⟨request, requester⟩
  | holding _ inner _ => inner.question?
  | _ => none

variable {queue : Nat} {t : Thread η α} {w : World η} {m : Move η α} {p : Parked}

/-- A thread that asks only behind the slot goes on doing so. -/
theorem asksBehind_of_move (h : Moves w t m) (ht : t.AsksBehind queue) :
    m.thread.AsksBehind queue := by
  induction h with
  | call c next => exact ht _
  | await step next => exact ht
  | ask request next => exact ht.elim
  | came key place job next _ => exact ht
  | cameIn key job next _ => exact ht
  | hosted step next b host _ => exact ht b
  | concluded requester deadline request next ending _ => exact ht.elim
  | began key place job next _ => exact ht
  | finished key b next => exact ht.2 b
  | panicked key text next => trivial
  | inside key next _ ih => exact ⟨ht.1.imp_right ih, ht.2⟩

/-- **Whoever has a question holds the slot.** -/
theorem runs_of_question (ht : t.AsksBehind queue) (hp : t.question? = some p) :
    .runs ∈ t.places queue := by
  induction t with
  | fresh p => simp [question?] at hp
  | held step next => simp [question?] at hp
  | asking requester deadline request next => exact ht.elim
  | waiting key place job next => simp [question?] at hp
  | holding key inner next ih =>
    rcases ht.1 with rfl | hinner
    · simp [places]
    · exact List.mem_append_left _ (ih hinner hp)

/-- Whoever is about to have one holds it already. -/
theorem runs_of_moves_question (ht : t.AsksBehind queue) (h : Moves w t m)
    (hnone : t.question? = none)
    (hp : m.thread.question? = some p) : .runs ∈ t.places queue := by
  induction h with
  | ask request next => exact ht.elim
  | concluded requester deadline request next ending _ => exact ht.elim
  | inside key next _ ih =>
    rcases ht.1 with rfl | hinner
    · simp [places]
    · exact List.mem_append_left _ (ih hinner hnone hp)
  | _ => simp [question?] at hp

/-- A thread at its end has no question. -/
theorem question?_of_ended {e : TaskEnd α} (h : t.ended? = some e) : t.question? = none := by
  obtain ⟨a, rfl, _⟩ | ⟨text, rfl, _⟩ := eq_fresh_of_ended h <;> rfl

end Thread

/-! ### What a thread does to the desk -/

/-- All a move can do to the desk and to the question of the thread that moves. -/
inductive Hears (d : Desk) : Option Parked → Option Parked → Desk → Prop
  | nothing {question : Option Parked} : Hears d question question d
  | parked (request : ApprovalRequest) :
    Hears d none (some ⟨request, (d.park request).1⟩) (d.park request).2.1
  | concluded (p : Parked) : Hears d (some p) none (d.leave p.requester p.request.id).1

/-- **All a move can do to the desk.** -/
theorem Thread.hears_of_move {t : Thread η α} {w : World η} {m : Move η α} (h : Moves w t m) :
    Hears w.desk t.question? m.thread.question? m.world.desk := by
  induction h with
  | call c next =>
    rw [World.desk_answer]
    exact .nothing
  | await step next => exact .nothing
  | ask request next => exact .parked request
  | came key place job next _ => exact .nothing
  | cameIn key job next _ => exact .nothing
  | hosted step next b host _ => exact .nothing
  | concluded requester deadline request next ending _ => exact .concluded ⟨request, requester⟩
  | began key place job next _ => exact .nothing
  | finished key b next => exact .nothing
  | panicked key text next => exact .nothing
  | inside key next _ ih => exact ih

/-- **All that giving a thread up does to the desk**: its question is taken away. -/
theorem Thread.desk_cancel (t : Thread η α) (w : World η) :
    (t.cancel w).desk = t.question?.elim w.desk fun p =>
    (w.desk.leave p.requester p.request.id).1 := by
  induction t with
  | fresh p => rfl
  | held step next => rfl
  | asking requester deadline request next => rfl
  | waiting queue place job next => rfl
  | holding queue inner next ih => exact ih

namespace Desk

variable {d e : Desk}

/-- A decision takes one entry off the desk. -/
theorem parked_settle {id : ApprovalId} {verdict : Verdict} {ns : List Notice}
    (h : d.settle id verdict = .ok (e, ns)) : e.parked = (d.remove id).parked := by
  unfold settle at h
  split at h
  · simp at h
  · dsimp only at h
    split at h
    · obtain ⟨rfl, _⟩ := Prod.mk.inj (Except.ok.inj h)
      exact parked_deliver _ _ _
    · obtain ⟨rfl, _⟩ := Prod.mk.inj (Except.ok.inj h)
      rfl

/-- What is left behind an entry that is taken off was there before. -/
theorem parked_remove_sublist (id : ApprovalId) (d : Desk) :
    (d.remove id).parked.Sublist d.parked :=
  List.filter_sublist

/-- The entry of a requester that leaves is gone. -/
theorem ne_of_mem_leave {p q : Parked} {d : Desk}
    (hp : q ∈ (d.leave p.requester p.request.id).1.parked) : q ≠ p := by
  rintro rfl
  have hid := (List.mem_filter.1 hp).2
  simp at hid

/-- What is left behind a requester that leaves was there before. -/
theorem parked_leave_sublist (p : Parked) (d : Desk) :
    (d.leave p.requester p.request.id).1.parked.Sublist d.parked :=
  parked_remove_sublist p.request.id d

end Desk

/-- What comes from outside parks nobody. -/
theorem Outside.parked_sublist (o : Outside η) (w : World η) :
    (o.apply w).desk.parked.Sublist w.desk.parked := by
  cases o with
  | accept id =>
    rcases w.desk_onDesk (Desk.accept id) with hsame | ⟨d, ns, hact, hd⟩
    · exact hsame.symm ▸ .refl _
    · obtain ⟨_, hsettle⟩ := Desk.settle_of_accept hact
      rw [apply, hd, Desk.parked_settle hsettle]
      exact Desk.parked_remove_sublist id _
  | reject id reason =>
    rcases w.desk_onDesk (Desk.reject id reason) with hsame | ⟨d, ns, hact, hd⟩
    · exact hsame.symm ▸ .refl _
    · obtain ⟨_, hsettle⟩ := Desk.settle_of_reject hact
      rw [apply, hd, Desk.parked_settle hsettle]
      exact Desk.parked_remove_sublist id _
  | rejectAll reason =>
    have hnone : (apply (rejectAll reason) w).desk.parked = [] :=
      Desk.parked_rejectAll reason w.desk
    rw [hnone]
    exact List.nil_sublist _
  | wait milliseconds => exact .refl _
  | setQueueing queueing => exact .refl _
  | host change => exact .refl _
  | addCustom id config => simp [apply]
  | removeCustom id => simp [apply]
  | switchToBuiltIn network => simp [apply]
  | switchToCustom id => simp [apply]
  | bindOrigin origin id => simp [apply]

/-! ### Jobs that start -/

/-- What is left of a task behind the creation of a task was left before, or is the new
program. -/
theorem Crew.thread?_of_spawn {i : Nat} {c : Crew η α} {t : Thread η α} {name : String}
    {p : Program η α}
    (h : (c.spawn name p).thread? i = some t) : c.thread? i = some t ∨ t = .fresh p := by
  rw [thread?, spawn] at h
  rcases Nat.lt_trichotomy i c.tasks.length with hi | rfl | hi
  · rw [List.getElem?_append_left hi] at h
    exact .inl h
  · simp at h
    exact .inr h.symm
  · simp [List.getElem?_append_right (Nat.le_of_lt hi), Nat.sub_ne_zero_of_lt hi] at h

namespace Crew

/-- A job of the queue is about to start in a task. -/
def Starts (queue i : Nat) (c : Crew η α) : Prop :=
  ∃ t m d, c.thread? i = some t ∧ t.move c.world = some m ∧ m.deed = some (queue, d) ∧
    (d = .began ∨ d = .cameIn)

end Crew

/-- Where a job starts no job runs. -/
theorem Standing.running_eq_zero_of_starts {queue i : Nat} {c : Crew η α} {l : Ledger} {line : Line}
    (h : Standing queue c l line) (hstarts : c.Starts queue i) : c.running queue = 0 := by
  obtain ⟨t, m, d, ht, hm, hdeed, hd⟩ := hstarts
  have hpass := Thread.passes_of_move hm queue
  have hplaces : c.placesOf queue i = t.places queue := Crew.placesOf_of_thread? ht
  have hlength := h.lengths i
  have none_runs : ∀ rest : Line, (∀ j ∈ rest, j.2 ≠ .runs) →
      (rest.map Prod.snd).count .runs = 0 := by
    intro rest hrest
    refine List.count_eq_zero.2 fun hmem => ?_
    obtain ⟨j, hj, hruns⟩ := List.mem_map.1 hmem
    exact hrest j hj hruns
  rw [hplaces] at hlength
  rw [Crew.running, h.perm_places.count_eq]
  rw [hdeed] at hpass
  generalize hps : t.places queue = ps at hpass hlength
  generalize m.thread.places queue = ss at hpass
  generalize m.world.queues queue = q at hpass
  cases hpass with
  | elsewhere hnone => exact absurd rfl (hnone d)
  | came _ => simp at hd
  | ended => simp at hd
  | cameIn hfree =>
    rw [(h.lined.enter_free hfree).1]
    rfl
  | @began ps w hover =>
    obtain ⟨n, ns, hstays⟩ := List.exists_cons_of_length_eq_add_one hlength
    have hmem : (n, Stand.waits w) ∈ line :=
      h.mem_line (Crew.lt_of_thread? ht) (by simp [hplaces, hps, hstays])
    obtain ⟨rest, rfl, hruns⟩ := h.lined.goOn hmem hover
    refine none_runs _ fun j hj => ?_
    rcases List.mem_cons.1 hj with rfl | hj
    · exact Stand.noConfusion
    · exact hruns.behind j hj

/-! ### Every parked request is somebody's question -/

/-- Whoever asks holds the slot, every parked request is somebody's question, and there is
at most one. -/
structure Prompted (queue : Nat) (c : Crew η α) : Prop where
  behind : ∀ i t, c.thread? i = some t → t.AsksBehind queue
  owned : ∀ p ∈ c.world.desk.parked, ∃ i t, c.thread? i = some t ∧ t.question? = some p
  few : c.world.desk.parked.length ≤ 1

namespace Prompted

variable {queue i : Nat} {c d : Crew η α}

/-- A crew without tasks in front of an empty desk. -/
theorem start {w : World η} (hdesk : w.desk.parked = []) :
    Prompted queue (Crew.ofWorld w : Crew η α) where
  behind i t ht := by simp [Crew.ofWorld, Crew.thread?] at ht
  owned p hp := by simp [Crew.ofWorld, hdesk] at hp
  few := by simp [Crew.ofWorld, hdesk]

/-- **Who holds the slot and asks nothing keeps the desk empty.** -/
theorem parked_eq_nil (h : Prompted queue c) (hone : c.running queue ≤ 1)
    (hholds : .runs ∈ c.placesOf queue i)
    (hquiet : ∀ t, c.thread? i = some t → t.question? = none) :
    c.world.desk.parked = [] := by
  refine List.eq_nil_iff_forall_not_mem.2 fun p hp => ?_
  obtain ⟨j, t, ht, hquestion⟩ := h.owned p hp
  have hj : .runs ∈ c.placesOf queue j := by
    rw [Crew.placesOf_of_thread? ht]
    exact Thread.runs_of_question (h.behind j t ht) hquestion
  obtain rfl := Crew.eq_of_runs hone hj hholds
  simp [hquiet t ht] at hquestion

/-- Where no job runs the desk is empty. -/
theorem parked_eq_nil_of_idle (h : Prompted queue c) (hnone : c.running queue = 0) :
    c.world.desk.parked = [] := by
  refine List.eq_nil_iff_forall_not_mem.2 fun p hp => ?_
  obtain ⟨j, t, ht, hquestion⟩ := h.owned p hp
  have hruns := Thread.runs_of_question (h.behind j t ht) hquestion
  have hmem : Stand.runs ∈ c.places queue := by
    refine List.mem_flatMap.2 ⟨j, List.mem_range.2 (Crew.lt_of_thread? ht), ?_⟩
    rwa [Crew.placesOf_of_thread? ht]
  exact absurd hnone (Nat.ne_of_gt (List.count_pos_iff.2 hmem))

/-- **Who holds the slot takes its question away** when it is given up, and leaves the desk
empty. -/
theorem parked_cancel_eq_nil (h : Prompted queue c) (hone : c.running queue ≤ 1) {t : Thread η α}
    (ht : c.thread? i = some t) (hholds : .runs ∈ t.places queue) :
    (t.cancel c.world).desk.parked = [] := by
  have hplaces : .runs ∈ c.placesOf queue i := by rwa [Crew.placesOf_of_thread? ht]
  rw [t.desk_cancel]
  cases hquestion : t.question? with
  | none =>
    exact h.parked_eq_nil hone hplaces fun t' ht' => Option.some.inj (ht.symm.trans ht') ▸ hquestion
  | some p =>
    refine List.eq_nil_iff_forall_not_mem.2 fun q hq => ?_
    obtain ⟨j, s, hs, hown⟩ := h.owned q ((Desk.parked_leave_sublist p _).subset hq)
    have hj : .runs ∈ c.placesOf queue j := by
      rw [Crew.placesOf_of_thread? hs]
      exact Thread.runs_of_question (h.behind j s hs) hown
    obtain rfl := Crew.eq_of_runs hone hj hplaces
    obtain rfl : t = s := Option.some.inj (ht.symm.trans hs)
    exact Desk.ne_of_mem_leave hq (Option.some.inj (hown.symm.trans hquestion))

/-- Questions stay and entries may leave. -/
theorem less (h : Prompted queue c) (hbehind : ∀ j t, d.thread? j = some t → t.AsksBehind queue)
    (hparked : d.world.desk.parked.Sublist c.world.desk.parked)
    (hstay : ∀ p ∈ d.world.desk.parked, ∀ j t, c.thread? j = some t → t.question? = some p →
      ∃ s, d.thread? j = some s ∧ s.question? = some p) : Prompted queue d where
  behind := hbehind
  owned p hp := by
    obtain ⟨j, t, ht, hquestion⟩ := h.owned p (hparked.subset hp)
    obtain ⟨s, hs, hquestion⟩ := hstay p hp j t ht hquestion
    exact ⟨j, s, hs, hquestion⟩
  few := Nat.le_trans hparked.length_le h.few

/-- One task changes or ends; if it had a question, the entry of that question is gone. -/
theorem changed (h : Prompted queue c) {t : Thread η α} {s : Option (Thread η α)}
    (ht : c.thread? i = some t) (hself : d.thread? i = s)
    (hother : ∀ j, j ≠ i → d.thread? j = c.thread? j)
    (hbehind : ∀ s', s = some s' → s'.AsksBehind queue)
    (hparked : d.world.desk.parked.Sublist c.world.desk.parked)
    (hgone : ∀ p ∈ d.world.desk.parked, t.question? = some p → ∃ s', s = some s' ∧
      s'.question? = some p) :
    Prompted queue d := by
  refine h.less (fun j t' ht' => ?_) hparked fun p hp j t' ht' hquestion => ?_
  · by_cases hj : j = i
    · subst hj
      exact hbehind t' (hself.symm.trans ht')
    · exact h.behind j t' ((hother j hj).symm.trans ht')
  · by_cases hj : j = i
    · subst hj
      obtain rfl : t = t' := Option.some.inj (ht.symm.trans ht')
      obtain ⟨s', hs', hquestion⟩ := hgone p hp hquestion
      exact ⟨s', hself.trans hs', hquestion⟩
    · exact ⟨t', (hother j hj).trans ht', hquestion⟩

/-- **A task moves.** -/
theorem moved (h : Prompted queue c) (hone : c.running queue ≤ 1) {t : Thread η α} {m : Move η α}
    (ht : c.thread? i = some t) (hm : t.move c.world = some m) :
    Prompted queue (c.put i (some m.thread) m.world) := by
  have hmoves := Thread.moves_of_move hm
  have hbefore := h.behind i t ht
  have hbehind := Thread.asksBehind_of_move hmoves hbefore
  have hself : (c.put i (some m.thread) m.world).thread? i = some m.thread :=
    Crew.thread?_put_self ht _ _
  have hother : ∀ j, j ≠ i → (c.put i (some m.thread) m.world).thread? j = c.thread? j :=
    fun j hj => Crew.thread?_put_of_ne (Ne.symm hj) _ _ _
  have hhears := Thread.hears_of_move hmoves
  have hasked : t.question? = none → ∀ p, m.thread.question? = some p →
      c.world.desk.parked = [] := by
    intro hnone p hp
    have hruns := Thread.runs_of_moves_question hbefore hmoves hnone hp
    refine h.parked_eq_nil hone (i := i) ?_ fun t' ht' => ?_
    · rwa [Crew.placesOf_of_thread? ht]
    · obtain rfl : t = t' := Option.some.inj (ht.symm.trans ht')
      exact hnone
  generalize hbefore : t.question? = before at hhears
  generalize hafter : m.thread.question? = behind at hhears
  generalize hdesk : m.world.desk = desk at hhears
  cases hhears with
  | nothing =>
    refine h.changed ht hself hother (fun s hs => Option.some.inj hs ▸ hbehind) (hdesk ▸ .refl _) ?_
    intro p _ hp
    exact ⟨m.thread, rfl, hafter.trans (hbefore.symm.trans hp)⟩
  | parked request =>
    have hempty := hasked hbefore _ hafter
    have hnow : m.world.desk.parked = [⟨request, (c.world.desk.park request).1⟩] := by
      rw [hdesk, Desk.park, Desk.remove, hempty]
      rfl
    exact {
      behind := by
        intro j t' ht'
        by_cases hj : j = i
        · subst hj
          exact Option.some.inj (hself.symm.trans ht') ▸ hbehind
        · exact h.behind j t' ((hother j hj).symm.trans ht')
      owned := by
        intro p hp
        rw [Crew.world_put, hnow, List.mem_singleton] at hp
        exact ⟨i, m.thread, hself, hp ▸ hafter⟩
      few := by
        rw [Crew.world_put, hnow]
        exact Nat.le_refl 1 }
  | concluded q =>
    refine h.changed ht hself hother (fun s hs => Option.some.inj hs ▸ hbehind) ?_ fun p hp hq => ?_
    · rw [Crew.world_put, hdesk]
      exact Desk.parked_leave_sublist q c.world.desk
    · obtain rfl : q = p := Option.some.inj (hbefore.symm.trans hq)
      rw [Crew.world_put, hdesk] at hp
      exact absurd rfl (Desk.ne_of_mem_leave hp)

/-- **A task goes.** -/
theorem gone (h : Prompted queue c) (hone : c.running queue ≤ 1) (i : Nat) :
    Prompted queue (c.go i) := by
  cases ht : c.thread? i with
  | none => rwa [Crew.go_of_gone ht]
  | some t =>
    cases hm : t.move c.world with
    | some m =>
      rw [Crew.go_of_move ht hm]
      exact h.moved hone ht hm
    | none =>
      cases he : t.ended? with
      | none => rwa [Crew.go_of_stuck ht he hm]
      | some e =>
        rw [Crew.go_of_ended ht he]
        refine h.changed ht (by rw [Crew.thread?_record, Crew.thread?_put_self ht]) (fun j hj => ?_)
          (fun s hs => by simp at hs) (by simp) fun p _ hp => ?_
        · rw [Crew.thread?_record, Crew.thread?_put_of_ne (Ne.symm hj)]
        · simp [Thread.question?_of_ended he] at hp

/-- **A task is given up.** -/
theorem givenUp (h : Prompted queue c) (i : Nat) : Prompted queue (c.giveUp i) := by
  cases ht : c.thread? i with
  | none =>
    have hsame : c.giveUp i = c := by simp [Crew.giveUp, ht]
    rwa [hsame]
  | some t =>
    have hcrew : c.giveUp i = c.put i none (t.cancel c.world) := by simp [Crew.giveUp, ht]
    rw [hcrew]
    refine h.changed ht (Crew.thread?_put_self ht _ _)
      (fun j hj => Crew.thread?_put_of_ne (Ne.symm hj) _ _ _) (fun s hs => by simp at hs) ?_
      fun p hp hq => ?_
    · rw [Crew.world_put, t.desk_cancel]
      cases t.question? with
      | none => exact .refl _
      | some q => exact Desk.parked_leave_sublist q c.world.desk
    · rw [Crew.world_put, t.desk_cancel, hq] at hp
      exact absurd rfl (Desk.ne_of_mem_leave hp)

/-- **One act.** -/
theorem perform (h : Prompted queue c) (hone : c.running queue ≤ 1) {a : Act η α}
    (hspawn : ∀ name p, a = .spawn name p → p.AsksBehind queue) : Prompted queue (c.perform a) := by
  cases a with
  | spawn name p =>
    refine h.less (fun j t ht => ?_) (.refl _) fun q _ j t ht hq =>
      ⟨t, Crew.thread?_spawn ht name p, hq⟩
    rcases Crew.thread?_of_spawn ht with ht | rfl
    · exact h.behind j t ht
    · exact hspawn name p rfl
  | go i => exact h.gone hone i
  | drop i => exact h.givenUp i
  | outside o => exact h.less h.behind (o.parked_sublist c.world) fun p _ j t ht hq => ⟨t, ht, hq⟩

end Prompted

/-- **All histories.**  Where every task asks only behind the slot of a queue that starts
idle, every parked request is the question of somebody who holds the slot. -/
theorem Crew.prompted {queue : Nat} {w : World η} {past : List (Act η α)}
    (hidle : w.queues queue = Queue.idle) (hdesk : w.desk.parked = [])
    (hfew : (((ofWorld w).after past).world.queues queue).signals < UInt64.size)
    (hspawn : ∀ name p, Act.spawn name p ∈ past → p.AsksBehind queue) :
    Prompted queue ((ofWorld w).after past) := by
  induction past with
  | nil => exact Prompted.start hdesk
  | cons a past ih =>
    have hbefore :=
      Nat.lt_of_le_of_lt (signals_le_of_suffix queue (ofWorld w) (List.suffix_cons a past)) hfew
    obtain ⟨line, hline⟩ := standing hidle past hbefore
    exact (ih hbefore fun name p hp => hspawn name p (List.mem_cons_of_mem a hp)).perform
      hline.one_runs
      fun name p ha => hspawn name p (ha ▸ List.mem_cons_self)

namespace Gate

/-! ### Two sites ask -/

/-- The task of a request that a site sends through a client, in a wallet of one gate. -/
def sentThrough (client : ClientId) : Program Unit Response :=
  Pipeline.handle [plain.handle] (Visit.sending client Pipeline.nothing (η := Unit)).request

/-- A request for sepolia has the slot and waits for the user; one for goerli waits behind
it. -/
def twoRequests : List (Act Unit Response) :=
  List.replicate 3 (.go 1) ++ List.replicate 8 (.go 0) ++
    [.spawn "second" (sentThrough BuiltIn.goerli.clientId),
      .spawn "first" (sentThrough BuiltIn.sepolia.clientId)]

/-- **One prompt at a time.**  In every history of a wallet whose tasks are pipelines of
gates of one queue and of handlers that ask nobody otherwise: at most one request is parked;
it is the question of a task that holds the slot and waits for the decision; when a job of
the queue starts no request is parked; and when a task is given up that holds the slot,
nothing is parked any more at the moment the slot is handed on. -/
theorem one_prompt {queue : Nat} {w : World η} {past : List (Act η Response)}
    (hidle : w.queues queue = Queue.idle) (hdesk : w.desk.parked = [])
    (hfew : (((Crew.ofWorld w).after past).world.queues queue).signals < UInt64.size)
    (hspawn : ∀ name p, Act.spawn name p ∈ past → ∃ handlers request,
      p = Pipeline.handle handlers request ∧
      ∀ handler ∈ handlers, Handler.AsksBehind queue handler ∨
        ∃ g : Gate η, handler = g.handle ∧ g.queue = queue ∧
          g.collaborators.isQueueing.AsksBehind queue) :
    ((Crew.ofWorld w).after past).world.desk.parked.length ≤ 1 ∧
    (∀ p ∈ ((Crew.ofWorld w).after past).world.desk.parked, ∃ i t,
      ((Crew.ofWorld w).after past).thread? i = some t ∧ .runs ∈ t.places queue ∧
        t.question? = some p) ∧
    (∀ i, ((Crew.ofWorld w).after past).Starts queue i →
      ((Crew.ofWorld w).after past).world.desk.parked = []) ∧
    ∀ i (β : Type) (inner : Thread η β) next,
      ((Crew.ofWorld w).after past).thread? i = some (.holding queue inner next) →
      (inner.cancel ((Crew.ofWorld w).after past).world).desk.parked = [] := by
  have hbehind : ∀ name p, Act.spawn name p ∈ past → p.AsksBehind queue := by
    intro name p hp
    obtain ⟨handlers, request, rfl, hhandlers⟩ := hspawn name p hp
    refine Pipeline.asksBehind_handle (fun handler hhandler => ?_) request
    rcases hhandlers handler hhandler with hnobody | ⟨g, rfl, rfl, hflag⟩
    · exact hnobody
    · exact asksBehind_handle hflag
  have hprompted := Crew.prompted hidle hdesk hfew hbehind
  obtain ⟨line, hline⟩ := Crew.standing hidle past hfew
  refine ⟨hprompted.few, fun p hp => ?_, fun i hstarts => ?_, fun i β inner next ht => ?_⟩
  · obtain ⟨i, t, ht, hquestion⟩ := hprompted.owned p hp
    exact ⟨i, t, ht, Thread.runs_of_question (hprompted.behind i t ht) hquestion, hquestion⟩
  · exact hprompted.parked_eq_nil_of_idle (hline.running_eq_zero_of_starts hstarts)
  · exact hprompted.parked_cancel_eq_nil hline.one_runs ht (by simp [Thread.places])

/-- Of two requests one is parked.  Its task is given up, the job of the other is about to
start, and nothing is parked. -/
theorem one_prompt_twoRequests :
    (∃ p ∈ ((Crew.ofWorld (.start ())).after twoRequests).world.desk.parked, ∃ i t,
      ((Crew.ofWorld (.start ())).after twoRequests).thread? i = some t ∧ .runs ∈ t.places 0 ∧
        t.question? = some p) ∧
    ((Crew.ofWorld (.start ())).after twoRequests).world.desk.parked.length ≤ 1 ∧
    ((Crew.ofWorld (.start ())).after (.drop 0 :: twoRequests)).Starts 0 1 ∧
    ((Crew.ofWorld (.start ())).after (.drop 0 :: twoRequests)).world.desk.parked = [] := by
  have hgates : ∀ name p, Act.spawn name p ∈ .drop 0 :: twoRequests → ∃ handlers request,
      p = Pipeline.handle handlers request ∧ ∀ handler ∈ handlers, Handler.AsksBehind 0 handler ∨
        ∃ g : Gate Unit, handler = g.handle ∧ g.queue = 0 ∧
          g.collaborators.isQueueing.AsksBehind 0 := by
    intro name p hp
    refine ⟨[plain.handle], ?_⟩
    simp only [twoRequests, List.mem_cons, List.mem_append, List.mem_replicate, reduceCtorEq,
      and_false, false_or, or_false, List.not_mem_nil, Act.spawn.injEq] at hp
    rcases hp with ⟨_, rfl⟩ | ⟨_, rfl⟩ <;>
      exact ⟨_, rfl, fun handler hhandler =>
        .inr ⟨plain, List.mem_singleton.1 hhandler, rfl, fun _ => trivial⟩⟩
  have hasked := @one_prompt Unit 0 (.start ()) twoRequests rfl rfl (by decide)
    fun name p hp => hgates name p (List.mem_cons_of_mem _ hp)
  have hdropped := @one_prompt Unit 0 (.start ()) (.drop 0 :: twoRequests) rfl rfl (by decide)
    hgates
  have hstarts : ((Crew.ofWorld (.start ())).after (.drop 0 :: twoRequests)).Starts 0 1 :=
    ⟨_, _, .began, rfl, rfl, rfl, .inl rfl⟩
  exact ⟨⟨_, List.mem_cons_self, hasked.2.1 _ List.mem_cons_self⟩, hasked.1, hstarts,
    hdropped.2.2.1 1 hstarts⟩

end Gate

end WalletGate
