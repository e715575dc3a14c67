import WalletGate.Proofs.Prompt

/-!
# The course of a program that has the networks to itself

What a program comes to depends on the registry it finds, on what it is told when it asks
the user, and on whatever else goes on in the world.  A program **follows a course** if the
last of these makes no difference: the course says how it ends and what it leaves of the
registry, and where it asks the user on the way, what becomes of every answer.

A course is a plain tree.  Nothing in it waits, and nobody else is there; so to find out
what a program that follows a course does, among others that leave the registry alone, it is
enough to read the course.

* `Program.follows_bind` — courses compose;
* `Thread.advances_of_move` — one move of a thread goes along its course, and no move of it
  takes a slot;
* `Thread.registry_of_waits` — where such a thread waits, the registry is the one the course
  says;
* `Thread.reads_of_move` — a thread that only reads leaves the registry alone and asks nobody;
* `Thread.waits_of_resume` — resuming a thread leaves it waiting;
* `Crew.AtRest.poll`, `Crew.AtRest.drop`, `Crew.AtRest.settle` — so all tasks are at rest
  whenever none is just being resumed.
-/

namespace WalletGate

variable {η α β : Type}

/-- What the user is asked, whoever asks and whenever. -/
structure Question where
  origin : Origin
  proposal : SwitchProposal
  deriving DecidableEq

/-- What an approval request asks. -/
def ApprovalRequest.question (r : ApprovalRequest) : Question := ⟨r.origin, r.proposal⟩

/-- What a program comes to: its end and the registry it leaves, or a question to the user,
the registry at that moment, and what becomes of every answer. -/
inductive Course (α : Type) where
  | ends (e : TaskEnd α) (r : Registry)
  | asks (r : Registry) (question : Question) (next : Except Fault Unit → Course α)

namespace Course

/-- The registry where the course ends or asks. -/
def registry : Course α → Registry
  | ends _ r => r
  | asks r _ _ => r

/-- Goes on with another course. -/
def bind : Course α → (α → Registry → Course β) → Course β
  | ends (.finished a) r, f => f a r
  | ends (.panicked text) r, _ => ends (.panicked text) r
  | asks r question next, f => asks r question fun answer => (next answer).bind f

/-- What is left of a course when these answers were given, the first one first. -/
def hear : Course α → List (Except Fault Unit) → Course α
  | asks _ _ next, answer :: answers => (next answer).hear answers
  | asks r question next, [] => asks r question next
  | ends e r, _ => ends e r

/-- The course has come to this point; these questions were asked and answered so. -/
inductive Comes (start : Course α) : List Question → List (Except Fault Unit) → Course α → Prop
  | start : Comes start [] [] start
  | told {questions : List Question} {answers : List (Except Fault Unit)} {r : Registry}
    {question : Question} {next : Except Fault Unit → Course α}
    (before : Comes start questions answers (asks r question next))
    (answer : Except Fault Unit) :
    Comes start (questions ++ [question]) (answers ++ [answer]) (next answer)

@[simp] theorem hear_nil (c : Course α) : c.hear [] = c := by
  cases c <;> rfl

theorem hear_append (c : Course α) (earlier later : List (Except Fault Unit)) :
    c.hear (earlier ++ later) = (c.hear earlier).hear later := by
  induction c generalizing earlier with
  | ends e r => cases later <;> rfl
  | asks r question next ih =>
    cases earlier with
    | nil => rfl
    | cons answer earlier => exact ih answer earlier

/-- Where a course has come to is found from the answers alone. -/
theorem Comes.hear_eq {c d : Course α} {questions : List Question}
    {answers : List (Except Fault Unit)}
    (h : c.Comes questions answers d) : c.hear answers = d := by
  induction h with
  | start => exact c.hear_nil
  | told before answer ih => rw [hear_append, ih, hear, hear_nil]

end Course

/-! ### Programs that follow a course -/

/-- Does something to a registry: what cannot be done changes nothing. -/
def Registry.carryOut (act : Registry → Except Fault (Registry × Notice)) (r : Registry) :
    Except Fault Unit × Registry :=
  match act r with
  | .ok (s, _) => (.ok (), s)
  | .error fault => (.error fault, r)

namespace Call

/-- What a call may be answered with where this is the registry, and the registry behind it. -/
def Gives {β : Type} : Call β → Registry → β → Registry → Prop
  | note _, r, _, s => s = r
  | queueLength _, r, _, s => s = r
  | isQueueing, r, _, s => s = r
  | clientConfig id, r, b, s => b = r.clientConfig id ∧ s = r
  | selectedChain, r, b, s => b = r.selectedChain ∧ s = r
  | switchToBuiltIn network, r, b, s => (b, s) = r.carryOut (Registry.switchToBuiltIn network)
  | switchToCustom id, r, b, s => (b, s) = r.carryOut (Registry.switchToCustom id)
  | bindOrigin origin id, r, b, s => (b, s) = r.carryOut (Registry.bind origin id)
  | draft origin fromChain toChain client, r, b, s =>
    b.question = ⟨origin, fromChain, toChain, client⟩ ∧ s = r

/-- The call may change the registry. -/
def writes {β : Type} : Call β → Bool
  | switchToBuiltIn _ => true
  | switchToCustom _ => true
  | bindOrigin _ _ => true
  | _ => false

/-- What the world does with its registry is what is done to the registry. -/
theorem gives_onRegistry (act : Registry → Except Fault (Registry × Notice)) (w : World η) :
    ((w.onRegistry act).1, (w.onRegistry act).2.registry) = w.registry.carryOut act := by
  unfold World.onRegistry Registry.carryOut
  cases act w.registry <;> rfl

/-- **The world answers as its registry says.** -/
theorem gives_answer (c : Call β) (w : World η) :
    c.Gives w.registry (c.answer w).1 (c.answer w).2.registry := by
  cases c with
  | note n => rfl
  | queueLength queue => rfl
  | isQueueing => rfl
  | clientConfig id => exact ⟨rfl, rfl⟩
  | selectedChain => exact ⟨rfl, rfl⟩
  | switchToBuiltIn network => exact gives_onRegistry _ w
  | switchToCustom id => exact gives_onRegistry _ w
  | bindOrigin origin id => exact gives_onRegistry _ w
  | draft origin fromChain toChain client => exact ⟨rfl, rfl⟩

/-- A call that writes nothing leaves the registry alone. -/
theorem registry_answer_of_not_writes {c : Call β} (h : c.writes = false) (w : World η) :
    (c.answer w).2.registry = w.registry := by
  cases c <;> first | rfl | simp [writes] at h

end Call

namespace Program

/-- From this registry the program follows the course, whatever else goes on in the world.
Where it waits for the host the registry is left as it stands behind the wait. -/
def Follows {α : Type} : Program η α → Registry → Course α → Prop
  | done a, r, c => c = .ends (.finished a) r
  | panic text, r, c => c = .ends (.panicked text) r
  | call k next, r, c => ∀ b s, k.Gives r b s → (next b).Follows s c
  | await _ next, r, c => c.registry = r ∧ ∀ b, (next b).Follows r c
  | ask request next, r, c =>
    ∃ course, c = .asks r request.question course ∧ ∀ answer, (next answer).Follows r
      (course answer)
  | enqueue _ _ _, _, _ => False

/-- The program only reads the registry, and neither asks the user nor comes to a queue. -/
def OnlyReads {α : Type} : Program η α → Prop
  | done _ => True
  | panic _ => True
  | call k next => k.writes = false ∧ ∀ b, (next b).OnlyReads
  | await _ next => ∀ b, (next b).OnlyReads
  | ask _ _ => False
  | enqueue _ _ _ => False

/-- Programs that only read compose. -/
theorem onlyReads_bind {p : Program η α} {f : α → Program η β} (hp : p.OnlyReads)
    (hf : ∀ a, (f a).OnlyReads) : (p.bind f).OnlyReads := by
  induction p with
  | done a => exact hf a
  | panic text => trivial
  | call k next ih => exact ⟨hp.1, fun b => ih b (hp.2 b) hf⟩
  | await step next ih => exact fun b => ih b (hp b) hf
  | ask request next _ => exact hp.elim
  | enqueue queue job next _ _ => exact hp.elim

/-- **Courses compose**, where what comes second begins by leaving the registry alone. -/
theorem follows_bind {p : Program η α} {f : α → Program η β} {r : Registry} {c : Course α}
    {g : α → Registry → Course β} (hp : p.Follows r c) (hf : ∀ a s, (f a).Follows s (g a s))
    (hg : ∀ a s, (g a s).registry = s) : (p.bind f).Follows r (c.bind g) := by
  induction p generalizing r with
  | done a =>
    obtain rfl : c = .ends (.finished a) r := hp
    exact hf a r
  | panic text =>
    obtain rfl : c = .ends (.panicked text) r := hp
    rfl
  | call k next ih => exact fun b s hb => ih b (hp b s hb) hf hg
  | await step next ih =>
    refine ⟨?_, fun b => ih b (hp.2 b) hf hg⟩
    rcases c with ⟨a | text, s⟩ | ⟨s, question, course⟩
    · exact (hg a s).trans hp.1
    · exact hp.1
    · exact hp.1
  | ask request next ih =>
    obtain ⟨course, rfl, hcourse⟩ := hp
    exact ⟨_, rfl, fun answer => ih answer (hcourse answer) hf hg⟩
  | enqueue queue job next _ _ => exact hp.elim

end Program

/-! ### Threads that follow a course -/

/-- What a requester was told: how the wait for the answer to its request ended, where the
desk has this limit. -/
structure Reply where
  request : ApprovalRequest
  limit : Option Nat
  ending : Desk.Ending
  deriving DecidableEq

/-- What the requester makes of it. -/
def Reply.answer (r : Reply) : Except Fault Unit :=
  ((Desk.empty r.limit).conclude r.request r.ending).1

namespace Thread

/-- What is left of the program follows the course from this registry. -/
def Follows {α : Type} : Thread η α → Registry → Course α → Prop
  | fresh p, r, c => p.Follows r c
  | held _ next, r, c => c.registry = r ∧ ∀ b, (next b).Follows r c
  | asking _ _ request next, r, c =>
    ∃ course, c = .asks r request.question course ∧ ∀ answer, (next answer).Follows r
      (course answer)
  | waiting _ _ _ _, _, _ => False
  | holding _ _ _, _, _ => False

/-- What is left of the program only reads. -/
def OnlyReads {α : Type} : Thread η α → Prop
  | fresh p => p.OnlyReads
  | held _ next => ∀ b, (next b).OnlyReads
  | _ => False

/-- What the thread is told if it moves now and waits for an answer. -/
def reply? {α : Type} : Thread η α → World η → Option Reply
  | asking requester deadline request _, w =>
    (w.look requester deadline).map fun ending => ⟨request, w.desk.limit, ending⟩
  | holding _ inner _, w => inner.reply? w
  | _, _ => none

/-- The thread waits: for the host, for the user or for a slot. -/
def waits {α : Type} : Thread η α → Bool
  | fresh _ => false
  | holding _ inner _ => inner.waits
  | _ => true

/-- Nothing has happened in the thread, or it waits: so a task stands whenever it is not
just being resumed. -/
def isAtRest {α : Type} : Thread η α → Bool
  | fresh _ => true
  | t => t.waits

/-- What a requester makes of the end of its wait is what it was told. -/
theorem answer_conclude (w : World η) (requester : Nat) (request : ApprovalRequest)
    (ending : Desk.Ending) :
    (w.conclude requester request ending).1 = (Reply.mk request w.desk.limit ending).answer := by
  rcases ending with (_ | reason) | _ | _ <;> rfl

variable {t : Thread η α} {w : World η} {m : Move η α}

/-- All a move of a thread can be to its course: the thread asks, is told, or does something
else. -/
inductive Advances (t : Thread η α) (w : World η) (m : Move η α) (c : Course α) : Course α → Prop
  | other (question : m.thread.question? = t.question?) (silent : t.reply? w = none)
    (follows : m.thread.Follows m.world.registry c) : Advances t w m c c
  | asked (p : Parked) (before : t.question? = none) (question : m.thread.question? = some p)
    (silent : t.reply? w = none) (follows : m.thread.Follows m.world.registry c) :
    Advances t w m c c
  | told (reply : Reply) (requester : Nat) {next : Except Fault Unit → Course α}
    (before : t.question? = some ⟨reply.request, requester⟩) (question : m.thread.question? = none)
    (said : t.reply? w = some reply) (asks : c = .asks w.registry reply.request.question next)
    (follows : m.thread.Follows m.world.registry (next reply.answer)) :
    Advances t w m c (next reply.answer)

/-- **A move goes along the course**, and takes no slot. -/
theorem advances_of_move {c : Course α} (h : Moves w t m) (ht : t.Follows w.registry c) :
    m.deed = none ∧ ∃ d, Advances t w m c d := by
  induction h with
  | call k next => exact ⟨rfl, _, .other rfl rfl (ht _ _ (k.gives_answer w))⟩
  | await step next => exact ⟨rfl, _, .other rfl rfl ht⟩
  | ask request next => exact ⟨rfl, _, .asked _ rfl rfl rfl ht⟩
  | came queue place job next _ => exact ht.elim
  | cameIn queue job next _ => exact ht.elim
  | hosted step next b host _ => exact ⟨rfl, _, .other rfl rfl (ht.2 b)⟩
  | concluded requester deadline request next ending found =>
    obtain ⟨course, rfl, hcourse⟩ := ht
    have hsaid : (asking requester deadline request next).reply? w
        = some ⟨request, w.desk.limit, ending⟩ := by
      rw [reply?, found]
      rfl
    refine ⟨rfl, _, .told ⟨request, w.desk.limit, ending⟩ requester rfl rfl hsaid rfl ?_⟩
    rw [answer_conclude]
    exact hcourse _
  | began queue place job next _ => exact ht.elim
  | finished queue b next => exact ht.elim
  | panicked queue text next => exact ht.elim
  | inside queue next _ _ => exact ht.elim

/-- **Where the thread waits, the registry is the one the course says.** -/
theorem registry_of_waits {c : Course α} {r : Registry} (ht : t.Follows r c)
    (hwaits : t.waits = true) :
    c.registry = r := by
  cases t with
  | fresh p => simp [waits] at hwaits
  | held step next => exact ht.1
  | asking requester deadline request next =>
    obtain ⟨course, rfl, _⟩ := ht
    rfl
  | waiting queue place job next => exact ht.elim
  | holding queue inner next => exact ht.elim

/-- A thread that only reads stands in front of no queue. -/
theorem places_of_onlyReads (ht : t.OnlyReads) (queue : Nat) : t.places queue = [] := by
  cases t with
  | fresh p => rfl
  | held step next => rfl
  | asking requester deadline request next => rfl
  | waiting key place job next => exact ht.elim
  | holding key inner next => exact ht.elim

/-- **A thread that only reads** leaves the registry alone, takes no slot, asks nobody and
is told nothing. -/
theorem reads_of_move (h : Moves w t m) (ht : t.OnlyReads) :
    m.deed = none ∧ m.thread.OnlyReads ∧ m.world.registry = w.registry ∧ m.thread.question? = none ∧
      t.reply? w = none := by
  induction h with
  | call k next => exact ⟨rfl, ht.2 _, Call.registry_answer_of_not_writes ht.1 w, rfl, rfl⟩
  | await step next => exact ⟨rfl, ht, rfl, rfl, rfl⟩
  | ask request next => exact ht.elim
  | came queue place job next _ => exact ht.elim
  | cameIn queue job next _ => exact ht.elim
  | hosted step next b host _ => exact ⟨rfl, ht b, rfl, rfl, rfl⟩
  | concluded requester deadline request next ending _ => exact ht.elim
  | began queue place job next _ => exact ht.elim
  | finished queue b next => exact ht.elim
  | panicked queue text next => exact ht.elim
  | inside queue next _ _ => exact ht.elim

end Thread

/-! ### Resuming leaves a thread at rest -/

/-- What follows a job behind its slot is suspended in a wait, if what goes on there is. -/
theorem Outcome.waits_behindSlot (queue : Nat) {next : β → Program η α}
    (hnext : ∀ b v s, ((next b).run v).1 = .suspended s → s.waits = true)
    {o : Outcome η β × World η} (ho : ∀ s, o.1 = .suspended s → s.waits = true) {s : Thread η α}
    (h : (behindSlot queue next o).1 = .suspended s) : s.waits = true := by
  obtain ⟨o, w⟩ := o
  cases o with
  | finished b => exact hnext b _ s h
  | panicked text => simp [behindSlot] at h
  | suspended t =>
    obtain rfl : Thread.holding queue t next = s := by simpa [behindSlot] using h
    exact ho t rfl

/-- A program that is suspended waits. -/
theorem Program.waits_of_run {p : Program η α} {w : World η} {s : Thread η α}
    (h : (p.run w).1 = .suspended s) : s.waits = true := by
  induction p generalizing w with
  | done a => simp [run] at h
  | panic text => simp [run] at h
  | call k next ih => exact ih _ h
  | await step next ih =>
    rw [run] at h
    split at h
    · exact ih _ h
    · obtain rfl : Thread.held step next = s := by simpa using h
      rfl
  | ask request next ih =>
    rw [run] at h
    dsimp only at h
    split at h
    · obtain rfl := Outcome.suspended.inj h
      rfl
    · exact ih _ h
  | enqueue queue job next ihj ihn =>
    rcases he : w.enter queue with ⟨_ | place, v⟩
    · rw [run_enqueue_of_free he] at h
      exact Outcome.waits_behindSlot queue (fun b v s => ihn b) (fun s => ihj) h
    · rw [run, he] at h
      obtain rfl := Outcome.suspended.inj h
      rfl

/-- **Resuming a thread leaves it waiting**, if it does not come to its end. -/
theorem Thread.waits_of_resume {t s : Thread η α} {w : World η}
    (h : (t.resume w).1 = .suspended s) :
    s.waits = true := by
  induction t generalizing w with
  | fresh p => exact Program.waits_of_run h
  | held step next =>
    rw [resume] at h
    split at h
    · exact Program.waits_of_run h
    · obtain rfl := Outcome.suspended.inj h
      rfl
  | asking requester deadline request next =>
    rw [resume] at h
    split at h
    · obtain rfl := Outcome.suspended.inj h
      rfl
    · exact Program.waits_of_run h
  | waiting queue place job next =>
    rw [resume] at h
    split at h
    · exact Outcome.waits_behindSlot queue (fun b v s => Program.waits_of_run)
        (fun s => Program.waits_of_run) h
    · obtain rfl := Outcome.suspended.inj h
      rfl
  | holding queue inner next ih =>
    exact Outcome.waits_behindSlot queue (fun b v s => Program.waits_of_run) (fun s => ih) h

/-- A thread that waits is at rest. -/
theorem Thread.isAtRest_of_waits {t : Thread η α} (h : t.waits = true) : t.isAtRest = true := by
  cases t with
  | fresh p => rfl
  | _ => exact h

/-- What is left of a task is at rest. -/
def Task.isAtRest (task : Task η α) : Bool := task.thread.all Thread.isAtRest

/-- A task that has been resumed is at rest. -/
theorem Task.isAtRest_after (name : String) (t : Thread η α) (w : World η) :
    (Task.after name (t.resume w).1).1.isAtRest = true := by
  cases hresume : (t.resume w).1 with
  | finished a => rfl
  | panicked text => rfl
  | suspended s => exact Thread.isAtRest_of_waits (Thread.waits_of_resume hresume)

namespace Crew

/-- All tasks are at rest. -/
def AtRest (c : Crew η α) : Prop := ∀ task ∈ c.tasks, task.isAtRest = true

instance (c : Crew η α) : Decidable c.AtRest :=
  inferInstanceAs (Decidable (∀ task ∈ c.tasks, task.isAtRest = true))

namespace AtRest

variable {c : Crew η α} {i : Nat}

theorem isAtRest (h : c.AtRest) {t : Thread η α} (ht : c.thread? i = some t) :
    t.isAtRest = true := by
  obtain ⟨task, htask, hthread⟩ := Option.bind_eq_some_iff.1 ht
  have hrest := h task (List.mem_of_getElem? htask)
  rwa [Task.isAtRest, hthread] at hrest

/-- One task is replaced by another that is at rest. -/
theorem set (h : c.AtRest) {task : Task η α} (htask : task.isAtRest = true) (i : Nat)
    (w : World η) :
    AtRest { c with tasks := c.tasks.set i task, world := w } := by
  intro other hother
  rcases List.mem_or_eq_of_mem_set hother with hold | rfl
  · exact h other hold
  · exact htask

theorem record (h : c.AtRest) (name : String) (e : Option (TaskEnd α)) :
    (Crew.record name e c).AtRest := by
  cases e with
  | none => exact h
  | some e => exact h

/-- A task that was just created is at rest. -/
theorem spawn (h : c.AtRest) (name : String) (p : Program η α) : (c.spawn name p).AtRest := by
  intro task htask
  rcases List.mem_append.1 htask with hold | hnew
  · exact h task hold
  · obtain rfl := List.mem_singleton.1 hnew
    rfl

/-- **Polling leaves all tasks at rest.** -/
theorem poll (h : c.AtRest) (name : String) : (c.poll name).2.AtRest := by
  rw [Crew.poll]
  rcases pollIn_cases name c.tasks c.world with ⟨p, hp⟩ | ⟨i, t, _, hp⟩ <;> rw [hp]
  · exact record h name none
  · exact record (h.set (Task.isAtRest_after name t c.world) i _) name _

/-- So does giving a task up. -/
theorem drop (h : c.AtRest) (name : String) : (c.drop name).2.AtRest := by
  rw [Crew.drop]
  rcases dropIn_cases name c.tasks c.world with hp | ⟨i, t, _, hp⟩ <;> rw [hp]
  · exact h
  · exact h.set rfl i _

/-- **So does settling.** -/
theorem settle (h : c.AtRest) : c.settle.AtRest := by
  fun_induction Crew.settle c with
  | case1 c d hstep ih =>
    obtain ⟨⟨ss, v, name, e⟩, hs, rfl⟩ := Option.map_eq_some_iff.1 hstep
    obtain ⟨i, t, _, rfl, rfl, rfl⟩ := stepIn_cases hs
    exact ih (record (h.set (Task.isAtRest_after name t c.world) i _) name _)
  | case2 c hstep => exact h

end AtRest

end Crew

end WalletGate
