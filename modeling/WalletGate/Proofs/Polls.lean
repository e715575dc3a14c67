import WalletGate.Proofs.Move

/-!
# Programs that are resumed again and again

A program that has to wait stops, and is resumed later in whatever world there is by then:
between two polls anything may happen.  So a program is run in a list of worlds, one for
each poll, and what it comes to depends on nothing else.

What a program is composed of takes the polls one after another.  The first part is resumed
until it ends; the second begins in the very world in which the first one ended, without
waiting, and takes the polls that are left.

* `Program.run_bind`, `Thread.resume_bind` — one poll of a composed program;
* `Thread.Comes` — a thread that ends takes these polls for it, and leaves this world;
* `Thread.Comes.polled_bind` — the second part of a composed program takes the polls the
  first has left;
* `Thread.Comes.of_bind` — and a composed program that ends has ended both parts;
* `Outcome.polled_andThen`, `Outcome.polled_behindSlot` — what follows at once makes no
  difference to the polls.
-/

namespace WalletGate

variable {η α β : Type}

namespace Outcome

/-- Goes on with another program when the value is there. -/
def andThen (f : α → Program η β) : Outcome η α × World η → Outcome η β × World η
  | (.finished a, w) => (f a).run w
  | (.panicked text, w) => (.panicked text, w)
  | (.suspended t, w) => (.suspended (t.bind f), w)

/-- Resumes what is left, in the world there is by now.  What has ended stays as it is. -/
def again (o : Outcome η α × World η) (w : World η) : Outcome η α × World η :=
  match o.1 with
  | .suspended t => t.resume w
  | _ => o

/-- Resumes what is left in these worlds, one after another. -/
def polled (o : Outcome η α × World η) (worlds : List (World η)) : Outcome η α × World η :=
  worlds.foldl again o

@[simp] theorem polled_nil (o : Outcome η α × World η) : polled o [] = o := rfl

@[simp] theorem polled_cons (o : Outcome η α × World η) (w : World η) (worlds : List (World η)) :
    polled o (w :: worlds) = polled (again o w) worlds := rfl

theorem polled_append (o : Outcome η α × World η) (worlds later : List (World η)) :
    polled o (worlds ++ later) = polled (polled o worlds) later :=
  List.foldl_append

/-- What follows the job that holds a slot goes on with another program too. -/
theorem andThen_behindSlot {γ : Type} (queue : Nat) {next : γ → Program η α} {f : α → Program η β}
    (hnext : ∀ c w, ((next c).bind f).run w = andThen f ((next c).run w))
    (o : Outcome η γ × World η) :
    behindSlot queue (fun c => (next c).bind f) o = andThen f (behindSlot queue next o) := by
  obtain ⟨o, w⟩ := o
  cases o with
  | finished c => exact hnext c _
  | panicked text => rfl
  | suspended t => rfl

end Outcome

/-- A program that comes to a step of the host goes on as if it had waited for it. -/
theorem Program.run_await (step : η → Option (β × η)) (next : β → Program η α) (w : World η) :
    (await step next).run w = (Thread.held step next).resume w := by
  rw [Program.run, Thread.resume]

/-- A program that has parked a request goes on as if it had waited for the decision. -/
theorem Program.run_ask (request : ApprovalRequest) (next : Except Fault Unit → Program η α)
    (w : World η) :
    (ask request next).run w
      = (Thread.asking (w.park request).1 (w.park request).2.1 request next).resume
          (w.park request).2.2 := by
  rw [Program.run, Thread.resume]

/-- **A composed program runs its first part, and goes on with the second where that ends.** -/
theorem Program.run_bind (p : Program η α) (f : α → Program η β) (w : World η) :
    (p.bind f).run w = Outcome.andThen f (p.run w) := by
  induction p generalizing w with
  | done a => rfl
  | panic text => rfl
  | call c next ih => exact ih _ f _
  | await step next ih =>
    simp only [Program.bind, Program.run]
    split
    · exact ih _ f _
    · rfl
  | ask request next ih =>
    simp only [Program.bind, Program.run]
    split
    · rfl
    · exact ih _ f _
  | enqueue queue job next _ ih =>
    rcases he : w.enter queue with ⟨_ | place, v⟩
    · rw [Program.bind, Program.run_enqueue_of_free he, Program.run_enqueue_of_free he]
      exact Outcome.andThen_behindSlot queue (fun c v => ih c f v) _
    · simp only [Program.bind, Program.run, he]
      rfl

namespace Thread

/-- **So does a composed thread that is resumed.** -/
theorem resume_bind (t : Thread η α) (f : α → Program η β) (w : World η) :
    (t.bind f).resume w = Outcome.andThen f (t.resume w) := by
  cases t with
  | fresh p => exact p.run_bind f w
  | held step next =>
    simp only [bind, resume]
    split
    · exact Program.run_bind _ f _
    · rfl
  | asking requester deadline request next =>
    simp only [bind, resume]
    split
    · rfl
    · exact Program.run_bind _ f _
  | waiting queue place job next =>
    simp only [bind, resume]
    split
    · exact Outcome.andThen_behindSlot queue (fun c v => (next c).run_bind f v) _
    · rfl
  | holding queue inner next =>
    exact Outcome.andThen_behindSlot queue (fun c v => (next c).run_bind f v) _

/-- What becomes of a thread that is resumed in a first world and then in others, one after
another. -/
def polled (t : Thread η α) (w : World η) (later : List (World η)) : Outcome η α × World η :=
  Outcome.polled (t.resume w) later

/-- A thread ends with a value: it is resumed in a first world and then in others, one after
another, and in the last of them it ends, leaving a world behind. -/
inductive Comes {α : Type} : Thread η α → World η → List (World η) → α → World η → Prop
  | now {t : Thread η α} {w : World η} {a : α} {v : World η}
    (ends : t.resume w = (.finished a, v)) : Comes t w [] a v
  | later {t s : Thread η α} {w u next : World η} {worlds : List (World η)} {a : α} {v : World η}
    (waits : t.resume w = (.suspended s, u)) (rest : Comes s next worlds a v) :
    Comes t w (next :: worlds) a v

/-- **The second part of a composed program takes the polls the first has left.** -/
theorem Comes.polled_bind {t : Thread η α} {w v : World η} {worlds : List (World η)} {a : α}
    (h : t.Comes w worlds a v) (f : α → Program η β) (later : List (World η)) :
    (t.bind f).polled w (worlds ++ later) = (fresh (f a)).polled v later := by
  induction h with
  | now ends =>
    rw [polled, resume_bind, ends]
    rfl
  | later waits rest ih =>
    rw [polled, resume_bind, waits]
    exact ih

/-- So it does inside a slot. -/
theorem Comes.polled_holding_bind {γ : Type} {t : Thread η α} {w v : World η}
    {worlds : List (World η)} {a : α}
    (h : t.Comes w worlds a v) (queue : Nat) (f : α → Program η β) (next : β → Program η γ)
    (later : List (World η)) :
    (holding queue (t.bind f) next).polled w (worlds ++ later)
      = Outcome.polled (Outcome.behindSlot queue next ((f a).run v)) later := by
  induction h with
  | now ends =>
    rw [polled, resume, resume_bind, ends]
    rfl
  | later waits rest ih =>
    rw [polled, resume, resume_bind, waits]
    exact ih

/-- **A composed thread ends if its first part ends, and then the second where that left the
world.** -/
theorem Comes.bind {t : Thread η α} {f : α → Program η β} {w u v : World η}
    {first second : List (World η)} {a : α}
    {b : β} (h : t.Comes w first a u) (hf : (fresh (f a)).Comes u second b v) :
    (t.bind f).Comes w (first ++ second) b v := by
  induction h with
  | now ends =>
    cases hf with
    | now ends' => exact .now (by rw [resume_bind, ends]; exact ends')
    | later waits rest => exact .later (by rw [resume_bind, ends]; exact waits) rest
  | later waits rest ih => exact .later (by rw [resume_bind, waits]; rfl) (ih hf)

/-- What ends when it is first resumed comes to nothing else. -/
theorem Comes.of_finished {t : Thread η α} {w v u : World η} {worlds : List (World η)} {a b : α}
    (h : t.Comes w worlds a v) (ends : t.resume w = (.finished b, u)) : a = b ∧ v = u := by
  cases h with
  | now ends' =>
    obtain ⟨hab, rfl⟩ := Prod.mk.inj (ends'.symm.trans ends)
    exact ⟨Outcome.finished.inj hab, rfl⟩
  | later waits rest =>
    obtain ⟨hab, _⟩ := Prod.mk.inj (waits.symm.trans ends)
    simp at hab

/-- A call is answered at once. -/
theorem Comes.of_perform {c : Call α} {w v : World η} {worlds : List (World η)} {a : α}
    (h : (fresh (.perform c)).Comes w worlds a v) : a = (c.answer w).1 ∧ v = (c.answer w).2 :=
  h.of_finished rfl

/-- What ends with a fault when it is first resumed does not end well. -/
theorem Comes.not_failed {t : Thread η (Except Fault α)} {w v u : World η}
    {worlds : List (World η)} {a : α} {fault : Fault} (h : t.Comes w worlds (.ok a) v) :
    t.resume w ≠ (.finished (.error fault), u) := by
  intro ends
  obtain ⟨heq, _⟩ := h.of_finished ends
  simp at heq

/-- **A composed thread that ends has ended its first part**, and the second where that left
the world. -/
theorem Comes.of_bind {t : Thread η α} {f : α → Program η β} {w v : World η}
    {worlds : List (World η)} {b : β} (h : (t.bind f).Comes w worlds b v) :
    ∃ first a u second, worlds = first ++ second ∧ t.Comes w first a u ∧
      (fresh (f a)).Comes u second b v := by
  -- by induction on the polls of the whole; whether the first part is still under way is
  -- seen in what it comes to itself
  generalize hbind : t.bind f = s at h
  induction h generalizing t with
  | @now s w b v ends =>
    subst hbind
    rw [resume_bind] at ends
    rcases hresume : t.resume w with ⟨o, u⟩
    rw [hresume] at ends
    cases o with
    | finished a => exact ⟨[], a, u, [], rfl, .now hresume, .now ends⟩
    | panicked text => simp [Outcome.andThen] at ends
    | suspended s => simp [Outcome.andThen] at ends
  | @later s s' w u' next worlds b v waits rest ih =>
    subst hbind
    rw [resume_bind] at waits
    rcases hresume : t.resume w with ⟨o, u⟩
    rw [hresume] at waits
    cases o with
    | finished a => exact ⟨[], a, u, next :: worlds, rfl, .now hresume, .later waits rest⟩
    | panicked text => simp [Outcome.andThen] at waits
    | suspended t' =>
      obtain ⟨hsuspended, rfl⟩ := Prod.mk.inj waits
      obtain ⟨first, a, v', second, rfl, hfirst, hsecond⟩ := ih (Outcome.suspended.inj hsuspended)
      exact ⟨next :: first, a, v', second, rfl, .later hresume hfirst, hsecond⟩

/-- So has a composed program. -/
theorem Comes.of_fresh_bind {p : Program η α} {f : α → Program η β} {w v : World η}
    {worlds : List (World η)} {b : β} (h : (fresh (p.bind f)).Comes w worlds b v) :
    ∃ first a u second, worlds = first ++ second ∧ (fresh p).Comes w first a u ∧
      (fresh (f a)).Comes u second b v :=
  @of_bind η α β (fresh p) f w v worlds b h

end Thread

namespace Outcome

/-- What follows at once, without waiting, may as well follow every poll. -/
theorem polled_andThen {f : α → Program η β} (hf : ∀ a w, ∃ b v, (f a).run w = (.finished b, v))
    (o : Outcome η α × World η) (worlds : List (World η)) :
    polled (andThen f o) worlds = andThen f (polled o worlds) := by
  induction worlds generalizing o with
  | nil => rfl
  | cons w worlds ih =>
    have hagain : again (andThen f o) w = andThen f (again o w) := by
      obtain ⟨o, u⟩ := o
      cases o with
      | finished a =>
        obtain ⟨b, v, hrun⟩ := hf a u
        simp only [andThen, again, hrun]
      | panicked text => rfl
      | suspended t => exact t.resume_bind f w
    rw [polled_cons, hagain, ih, polled_cons]

/-- So may the end of a job that holds a slot, if nothing is left to do behind it. -/
theorem polled_behindSlot (queue : Nat) (value : α → β) (o : Outcome η α × World η)
    (worlds : List (World η)) :
    polled (behindSlot queue (fun a => .done (value a)) o) worlds
      = behindSlot queue (fun a => .done (value a)) (polled o worlds) := by
  induction worlds generalizing o with
  | nil => rfl
  | cons w worlds ih =>
    have hagain : again (behindSlot queue (fun a => .done (value a)) o) w
        = behindSlot queue (fun a => .done (value a)) (again o w) := by
      obtain ⟨o, u⟩ := o
      cases o <;> rfl
    rw [polled_cons, hagain, ih, polled_cons]

end Outcome

end WalletGate
