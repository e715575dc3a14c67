import WalletGate.Proofs.Polls

/-!
# Something kept beside the host

To tell what a program has done, it may keep something **beside** the host, and change it
whenever it does what is to be told.  The program never looks at it, and nobody else touches
it.  So a program that keeps something does just what it would do without, poll by poll and
in the same worlds; and what is kept is followed along the program from one pause to the
next.

* `Program.Beside` — one program is another one that keeps something; where it pauses, and
  where it ends, what is kept is known;
* `Program.Beside.bind`, `Program.Beside.mono` — it is followed along a composed program;
* `Program.Beside.run`, `Thread.Beside.resume` — one poll;
* `Outcome.Beside.polled` — any number of polls.
-/

namespace WalletGate

variable {η σ α β : Type}

/-! ### Worlds and programs with something beside the host -/

/-- A world, with something kept beside its host. -/
def World.beside (s : σ) (w : World η) : World (η × σ) := { w with host := (w.host, s) }

/-- A step of the host leaves what is kept beside it. -/
def besideStep (step : η → Option (β × η)) (h : η × σ) : Option (β × (η × σ)) :=
  (step h.1).map fun taken => (taken.1, taken.2, h.2)

namespace Program

/-- A program that keeps nothing, where something is kept. -/
def beside {α : Type} : Program η α → Program (η × σ) α
  | done a => done a
  | panic text => panic text
  | call c next => call c fun b => (next b).beside
  | await step next => await (besideStep step) fun b => (next b).beside
  | ask request next => ask request fun answer => (next answer).beside
  | enqueue queue job next => enqueue queue job.beside fun b => (next b).beside

/-- Changes what is kept. -/
def keep (change : σ → σ) : Program (η × σ) Unit := hosted fun h => ((), h.1, change h.2)

/-- A program, and the same one that keeps something.  It begins with `s`; wherever the
program may pause or break down, `pause` is true of what is kept by then, and where it ends
with a value `ends` is true of both. -/
inductive Beside (pause : σ → Prop) :
    {α : Type} → Program η α → Program (η × σ) α → σ → (α → σ → Prop) → Prop
  | done {α : Type} {a : α} {s : σ} {ends : α → σ → Prop} (holds : ends a s) :
    Beside pause (done a) (done a) s ends
  | panic {α : Type} {text : String} {s : σ} {ends : α → σ → Prop} (pauses : pause s) :
    Beside pause (panic text) (panic text) s ends
  | call {α β : Type} {c : Call β} {next : β → Program η α} {next' : β → Program (η × σ) α} {s : σ}
    {ends : α → σ → Prop} (on : ∀ b, Beside pause (next b) (next' b) s ends) :
    Beside pause (call c next) (call c next') s ends
  | await {α β : Type} {step : η → Option (β × η)} {next : β → Program η α}
    {next' : β → Program (η × σ) α} {s : σ} {ends : α → σ → Prop} (pauses : pause s)
    (on : ∀ b, Beside pause (next b) (next' b) s ends) :
    Beside pause (await step next) (await (besideStep step) next') s ends
  | ask {α : Type} {request : ApprovalRequest} {next : Except Fault Unit → Program η α}
    {next' : Except Fault Unit → Program (η × σ) α} {s : σ} {ends : α → σ → Prop} (pauses : pause s)
    (on : ∀ answer, Beside pause (next answer) (next' answer) s ends) :
    Beside pause (ask request next) (ask request next') s ends
  | enqueue {α β : Type} {queue : Nat} {job : Program η β} {job' : Program (η × σ) β}
    {next : β → Program η α} {next' : β → Program (η × σ) α} {s : σ} {middle : β → σ → Prop}
    {ends : α → σ → Prop} (pauses : pause s) (within : Beside pause job job' s middle)
    (on : ∀ b s, middle b s → Beside pause (next b) (next' b) s ends) :
    Beside pause (enqueue queue job next) (enqueue queue job' next') s ends
  /-- What is kept changes; the other program does nothing. -/
  | keep {α : Type} {change : σ → σ} {p : Program η α} {next' : Unit → Program (η × σ) α} {s : σ}
    {ends : α → σ → Prop} (on : Beside pause p (next' ()) (change s) ends) :
    Beside pause p (await (fun h => some ((), h.1, change h.2)) next') s ends

namespace Beside

variable {pause : σ → Prop} {p : Program η α} {p' : Program (η × σ) α} {s : σ} {ends : α → σ → Prop}

/-- Less may be known of what is kept. -/
theorem mono {pause' : σ → Prop} {ends' : α → σ → Prop} (h : Beside pause p p' s ends)
    (hpause : ∀ s, pause s → pause' s) (hends : ∀ a s, ends a s → ends' a s) :
    Beside pause' p p' s ends' := by
  induction h with
  | done holds => exact .done (hends _ _ holds)
  | panic pauses => exact .panic (hpause _ pauses)
  | call _ ih => exact .call fun b => ih b hends
  | await pauses _ ih => exact .await (hpause _ pauses) fun b => ih b hends
  | ask pauses _ ih => exact .ask (hpause _ pauses) fun answer => ih answer hends
  | enqueue pauses _ _ ihjob ih =>
    exact .enqueue (hpause _ pauses) (ihjob fun _ _ h => h) fun b s h => ih b s h hends
  | keep _ ih => exact .keep (ih hends)

/-- **What is kept is followed from a program to what it goes on with.** -/
theorem bind {f : α → Program η β} {f' : α → Program (η × σ) β} {ends' : β → σ → Prop}
    (h : Beside pause p p' s ends) (hf : ∀ a s, ends a s → Beside pause (f a) (f' a) s ends') :
    Beside pause (p.bind f) (p'.bind f') s ends' := by
  induction h with
  | done holds => exact hf _ _ holds
  | panic pauses => exact .panic pauses
  | call _ ih => exact .call fun b => ih b hf
  | await pauses _ ih => exact .await pauses fun b => ih b hf
  | ask pauses _ ih => exact .ask pauses fun answer => ih answer hf
  | enqueue pauses within _ _ ih => exact .enqueue pauses within fun b s h => ih b s h hf
  | keep _ ih => exact .keep (ih hf)

/-- A program that keeps nothing leaves what is kept as it is. -/
theorem of_beside (hpause : pause s) (p : Program η α) :
    Beside pause p p.beside s fun a s' => s' = s ∧ p.Returns a := by
  induction p with
  | done a => exact .done ⟨rfl, .done a⟩
  | panic text => exact .panic hpause
  | call c next ih =>
    exact .call fun b => (ih b).mono (fun _ h => h) fun _ _ h => ⟨h.1, .call b h.2⟩
  | await step next ih =>
    exact .await hpause fun b => (ih b).mono (fun _ h => h) fun _ _ h => ⟨h.1, .await b h.2⟩
  | ask request next ih =>
    exact .ask hpause fun answer => (ih answer).mono (fun _ h => h) fun _ _ h =>
      ⟨h.1, .ask answer h.2⟩
  | enqueue queue job next ihjob ih =>
    refine .enqueue hpause ihjob ?_
    rintro b _ ⟨rfl, hjob⟩
    exact (ih b).mono (fun _ h => h) fun _ _ h => ⟨h.1, .enqueue b hjob h.2⟩

end Beside

end Program

/-! ### One poll -/

/-- What is left of a program, and of the same one that keeps something. -/
inductive Thread.Beside (pause : σ → Prop) :
    {α : Type} → Thread η α → Thread (η × σ) α → σ → (α → σ → Prop) → Prop
  | fresh {α : Type} {p : Program η α} {p' : Program (η × σ) α} {s : σ} {ends : α → σ → Prop}
    (on : p.Beside pause p' s ends) : Beside pause (fresh p) (fresh p') s ends
  | held {α β : Type} {step : η → Option (β × η)} {next : β → Program η α}
    {next' : β → Program (η × σ) α} {s : σ} {ends : α → σ → Prop} (pauses : pause s)
    (on : ∀ b, (next b).Beside pause (next' b) s ends) :
    Beside pause (held step next) (held (besideStep step) next') s ends
  | asking {α : Type} {requester : Nat} {deadline : Option Nat} {request : ApprovalRequest}
    {next : Except Fault Unit → Program η α} {next' : Except Fault Unit → Program (η × σ) α} {s : σ}
    {ends : α → σ → Prop} (pauses : pause s)
    (on : ∀ answer, (next answer).Beside pause (next' answer) s ends) :
    Beside pause (asking requester deadline request next)
      (asking requester deadline request next') s ends
  | waiting {α β : Type} {queue : Nat} {place : Waiter} {job : Program η β}
    {job' : Program (η × σ) β} {next : β → Program η α} {next' : β → Program (η × σ) α} {s : σ}
    {middle : β → σ → Prop} {ends : α → σ → Prop} (pauses : pause s)
    (within : job.Beside pause job' s middle)
    (on : ∀ b s, middle b s → (next b).Beside pause (next' b) s ends) :
    Beside pause (waiting queue place job next) (waiting queue place job' next') s ends
  | holding {α β : Type} {queue : Nat} {inner : Thread η β} {inner' : Thread (η × σ) β}
    {next : β → Program η α} {next' : β → Program (η × σ) α} {s : σ} {middle : β → σ → Prop}
    {ends : α → σ → Prop} (within : Beside pause inner inner' s middle)
    (on : ∀ b s, middle b s → (next b).Beside pause (next' b) s ends) :
    Beside pause (holding queue inner next) (holding queue inner' next') s ends

/-- Two programs, one of which keeps something, came equally far, in the same world. -/
inductive Outcome.Beside (pause : σ → Prop) (ends : α → σ → Prop) :
    Outcome η α × World η → Outcome (η × σ) α × World (η × σ) → Prop
  | finished {a : α} {s : σ} (w : World η) (holds : ends a s) :
    Beside pause ends (.finished a, w) (.finished a, w.beside s)
  | panicked {s : σ} (text : String) (w : World η) (pauses : pause s) :
    Beside pause ends (.panicked text, w) (.panicked text, w.beside s)
  | suspended {t : Thread η α} {t' : Thread (η × σ) α} {s : σ} (w : World η) (pauses : pause s)
    (on : t.Beside pause t' s ends) :
    Beside pause ends (.suspended t, w) (.suspended t', w.beside s)

namespace World

variable (s : σ) (w : World η)

theorem enter_beside (queue : Nat) :
    (w.beside s).enter queue = ((w.enter queue).1, (w.enter queue).2.beside s) := rfl

theorem onRegistry_beside (act : Registry → Except Fault (Registry × Notice)) :
    (w.beside s).onRegistry act = ((w.onRegistry act).1, (w.onRegistry act).2.beside s) := by
  have hregistry : (w.beside s).registry = w.registry := rfl
  unfold onRegistry
  rw [hregistry]
  cases act w.registry <;> rfl

end World

/-- A question is answered as it is where nothing is kept. -/
theorem Call.answer_beside (c : Call β) (s : σ) (w : World η) :
    c.answer (w.beside s) = ((c.answer w).1, (c.answer w).2.beside s) := by
  cases c with
  | switchToBuiltIn network => exact w.onRegistry_beside s (Registry.switchToBuiltIn network)
  | switchToCustom id => exact w.onRegistry_beside s (Registry.switchToCustom id)
  | bindOrigin origin id => exact w.onRegistry_beside s (Registry.bind origin id)
  | _ => rfl

section Poll

variable {pause : σ → Prop} {ends : α → σ → Prop} {middle : β → σ → Prop} {s : σ}

/-- The slot behind a job is given up on both sides. -/
theorem Outcome.Beside.behindSlot {queue : Nat} {next : β → Program η α}
    {next' : β → Program (η × σ) α} {o : Outcome η β × World η}
    {o' : Outcome (η × σ) β × World (η × σ)} (h : Outcome.Beside pause middle o o')
    (hnext : ∀ b s, middle b s → (next b).Beside pause (next' b) s ends)
    (hrun : ∀ b s, middle b s → ∀ w : World η,
      Outcome.Beside pause ends ((next b).run w) ((next' b).run (w.beside s))) :
    Outcome.Beside pause ends (Outcome.behindSlot queue next o)
      (Outcome.behindSlot queue next' o') := by
  cases h with
  | finished w holds => exact hrun _ _ holds (w.release queue)
  | panicked text w pauses => exact .panicked text (w.release queue) pauses
  | suspended w pauses on => exact .suspended w pauses (.holding on hnext)

/-- A step of the host is taken on both sides, or on neither. -/
theorem Thread.Beside.resume_held {step : η → Option (β × η)} {next : β → Program η α}
    {next' : β → Program (η × σ) α} (hpause : pause s)
    (hnext : ∀ b, (next b).Beside pause (next' b) s ends)
    (hrun : ∀ b (w : World η),
      Outcome.Beside pause ends ((next b).run w) ((next' b).run (w.beside s))) (w : World η) :
    Outcome.Beside pause ends ((Thread.held step next).resume w)
      ((Thread.held (besideStep step) next').resume (w.beside s)) := by
  have hhost : (w.beside s).host = (w.host, s) := rfl
  unfold Thread.resume
  rw [hhost, besideStep]
  cases step w.host with
  | none => exact .suspended w hpause (.held hpause hnext)
  | some taken => exact hrun taken.1 { w with host := taken.2 }

/-- A decision is heard on both sides, or on neither. -/
theorem Thread.Beside.resume_asking {requester : Nat} {deadline : Option Nat}
    {request : ApprovalRequest} {next : Except Fault Unit → Program η α}
    {next' : Except Fault Unit → Program (η × σ) α} (hpause : pause s)
    (hnext : ∀ answer, (next answer).Beside pause (next' answer) s ends)
    (hrun : ∀ answer (w : World η),
      Outcome.Beside pause ends ((next answer).run w) ((next' answer).run (w.beside s)))
      (w : World η) :
    Outcome.Beside pause ends ((Thread.asking requester deadline request next).resume w)
      ((Thread.asking requester deadline request next').resume (w.beside s)) := by
  have hlook : (w.beside s).look requester deadline = w.look requester deadline := rfl
  unfold Thread.resume
  rw [hlook]
  cases w.look requester deadline with
  | none => exact .suspended w hpause (.asking hpause hnext)
  | some ending => exact hrun _ (w.conclude requester request ending).2

/-- **A program that keeps something runs as it does without.** -/
theorem Program.Beside.run {p : Program η α} {p' : Program (η × σ) α} (h : p.Beside pause p' s ends)
    (w : World η) : Outcome.Beside pause ends (p.run w) (p'.run (w.beside s)) := by
  induction h generalizing w with
  | done holds => exact .finished w holds
  | panic pauses => exact .panicked _ w pauses
  | @call _ _ c next next' s ends _ ih =>
    simp only [Program.run]
    rw [c.answer_beside]
    exact ih _ _
  | await pauses on ih =>
    rw [run_await, run_await]
    exact Thread.Beside.resume_held pauses on ih w
  | @ask _ request next next' s ends pauses on ih =>
    rw [run_ask, run_ask]
    exact Thread.Beside.resume_asking pauses on ih (w.park request).2.2
  | @enqueue _ _ queue job job' next next' s middle ends pauses within on ihjob ih =>
    have henter := w.enter_beside s queue
    rcases he : w.enter queue with ⟨_ | place, v⟩
    · rw [he] at henter
      rw [run_enqueue_of_free he, run_enqueue_of_free henter]
      exact (ihjob v).behindSlot on ih
    · rw [he] at henter
      simp only [Program.run, he, henter]
      exact .suspended v pauses (.waiting pauses within on)
  | keep _ ih => exact ih w

/-- **So it is resumed as it is without.** -/
theorem Thread.Beside.resume {t : Thread η α} {t' : Thread (η × σ) α}
    (h : t.Beside pause t' s ends) (w : World η) :
    Outcome.Beside pause ends (t.resume w) (t'.resume (w.beside s)) := by
  induction h generalizing w with
  | fresh on => exact on.run w
  | held pauses on => exact resume_held pauses on (fun b => (on b).run) w
  | asking pauses on => exact resume_asking pauses on (fun answer => (on answer).run) w
  | @waiting _ _ queue place job job' next next' s middle ends pauses within on =>
    have hover : ((w.beside s).queues queue).isOver place = (w.queues queue).isOver place := rfl
    simp only [Thread.resume, hover]
    split
    · exact (within.run (w.goOn queue place)).behindSlot on fun b s h => (on b s h).run
    · exact .suspended w pauses (.waiting pauses within on)
  | holding within on ih => exact (ih w).behindSlot on fun b s h => (on b s h).run

end Poll

/-! ### Any number of polls -/

namespace Outcome

/-- Resumes what is left in these worlds, one after another.  What is kept is nobody else's:
it is found in each of them as it was left. -/
def polledBeside (o : Outcome (η × σ) α × World (η × σ)) (worlds : List (World η)) :
    Outcome (η × σ) α × World (η × σ) :=
  worlds.foldl (fun o w => again o (w.beside o.2.host.2)) o

/-- Both have ended with the same value, or with the same words, or neither has ended, and
the world is the same. -/
structure SameRun (o : Outcome η α × World η) (o' : Outcome (η × σ) α × World (η × σ)) : Prop where
  finished : ∀ a, o'.1 = .finished a ↔ o.1 = .finished a
  panicked : ∀ text, o'.1 = .panicked text ↔ o.1 = .panicked text
  world : o'.2 = o.2.beside o'.2.host.2

namespace Beside

variable {pause : σ → Prop} {ends : α → σ → Prop} {o : Outcome η α × World η}
  {o' : Outcome (η × σ) α × World (η × σ)}

/-- **A program that keeps something comes to what it comes to without**, however often it is
resumed, and whatever the worlds. -/
theorem polled (h : Beside pause ends o o') (worlds : List (World η)) :
    Beside pause ends (Outcome.polled o worlds) (polledBeside o' worlds) := by
  induction worlds generalizing o o' with
  | nil => exact h
  | cons w worlds ih =>
    refine ih ?_
    cases h with
    | finished v holds => exact .finished v holds
    | panicked text v pauses => exact .panicked text v pauses
    | suspended v pauses on => exact on.resume w

theorem sameRun (h : Beside pause ends o o') : SameRun o o' := by
  cases h with
  | finished w holds => exact ⟨fun a => by simp, fun text => by simp, rfl⟩
  | panicked text w pauses => exact ⟨fun a => by simp, fun text => by simp, rfl⟩
  | suspended w pauses on => exact ⟨fun a => by simp, fun text => by simp, rfl⟩

/-- Where a program has ended, what is kept is as it is at an end. -/
theorem of_finished (h : Beside pause ends o o') {a : α} (ended : o.1 = .finished a) :
    ends a o'.2.host.2 := by
  cases h with
  | finished w holds =>
    cases ended
    exact holds
  | panicked text w pauses => cases ended
  | suspended w pauses on => cases ended

/-- Where it has not, what is kept is as it is at a pause. -/
theorem of_not_finished (h : Beside pause ends o o') (on : ∀ a, o.1 ≠ .finished a) :
    pause o'.2.host.2 := by
  cases h with
  | finished w holds => exact absurd rfl (on _)
  | panicked text w pauses => exact pauses
  | suspended w pauses _ => exact pauses

end Beside

end Outcome

end WalletGate
