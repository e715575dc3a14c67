import WalletGate.Coordination.Thread

/-!
# Every thread runs out

A thread that is resumed when its wait is over either ends or comes to a later wait.  A
program is a tree of finite depth along every path, so this cannot go on for ever: the
relation "is what a resumed thread may come to" is well founded (`Thread.acc_under`).  The
same holds of several threads of which one at a time is resumed (`wellFounded_oneLess`).

These facts are what lets a crew of threads be run until none of them can go on.
-/

namespace WalletGate

variable {η α β : Type}

/-- The thread `s` is what `t` may come to when it is resumed. -/
def Thread.Under (s t : Thread η α) : Prop :=
  ∃ w v : World η, t.isReady w = true ∧ t.resume w = (.suspended s, v)

/-- A program comes to waits that run out, wherever it is started. -/
def Program.RunsOut (p : Program η α) : Prop :=
  ∀ (w v : World η) (t : Thread η α), p.run w = (.suspended t, v) → Acc Thread.Under t

/-- The outcome of a job is a wait that runs out, if it is a wait. -/
def Outcome.RunsOut (o : Outcome η α) : Prop :=
  ∀ t : Thread η α, o = .suspended t → Acc Thread.Under t

/-- A job inside a slot runs out if the job does and what follows it does. -/
theorem Thread.acc_holding (queue : Nat) {next : β → Program η α} (hnext : ∀ b, (next b).RunsOut)
    {inner : Thread η β} (h : Acc Thread.Under inner) :
    Acc Thread.Under (Thread.holding queue inner next) := by
  induction h with
  | intro inner _ ih =>
    refine Acc.intro _ ?_
    rintro s ⟨w, v, hr, he⟩
    rw [Thread.resume] at he
    rcases hi : inner.resume w with ⟨o, u⟩
    rw [hi] at he
    cases o with
    | finished b => exact hnext b _ _ _ he
    | panicked text => simp [Outcome.behindSlot] at he
    | suspended t =>
      simp only [Outcome.behindSlot, Prod.mk.injEq, Outcome.suspended.injEq] at he
      rw [← he.1]
      exact ih t ⟨w, u, hr, hi⟩

/-- What follows a job that holds a slot runs out. -/
theorem Outcome.runsOut_behindSlot (queue : Nat) {next : β → Program η α}
    (hnext : ∀ b, (next b).RunsOut) {o : Outcome η β} (ho : o.RunsOut) {w v : World η}
    {t : Thread η α}
    (h : Outcome.behindSlot queue next (o, w) = (.suspended t, v)) : Acc Thread.Under t := by
  cases o with
  | finished b => exact hnext b _ _ _ h
  | panicked text => simp [Outcome.behindSlot] at h
  | suspended s =>
    simp only [Outcome.behindSlot, Prod.mk.injEq, Outcome.suspended.injEq] at h
    rw [← h.1]
    exact Thread.acc_holding queue hnext (ho s rfl)

/-- Every program runs out. -/
theorem Program.runsOut (p : Program η α) : p.RunsOut := by
  induction p with
  | done a => intro w v t h; simp [Program.run] at h
  | panic text => intro w v t h; simp [Program.run] at h
  | call c next ih => intro w v t h; exact ih _ _ _ _ h
  | await step next ih =>
    intro w v t h
    rw [Program.run] at h
    split at h
    · exact ih _ _ _ _ h
    · simp only [Prod.mk.injEq, Outcome.suspended.injEq] at h
      rw [← h.1]
      refine Acc.intro _ ?_
      rintro s ⟨w', v', hr, he⟩
      rw [Thread.resume] at he
      split at he
      · exact ih _ _ _ _ he
      · next hn => simp [Thread.isReady, hn] at hr
  | ask request next ih =>
    intro w v t h
    rw [Program.run] at h
    dsimp only at h
    split at h
    · simp only [Prod.mk.injEq, Outcome.suspended.injEq] at h
      rw [← h.1]
      refine Acc.intro _ ?_
      rintro s ⟨w', v', hr, he⟩
      rw [Thread.resume] at he
      split at he
      · next hn => simp [Thread.isReady, hn] at hr
      · exact ih _ _ _ _ he
    · exact ih _ _ _ _ h
  | enqueue queue job next ihj ihn =>
    intro w v t h
    rcases he : w.enter queue with ⟨place, u⟩
    cases place with
    | none =>
      rw [Program.run_enqueue_of_free he] at h
      rcases hj : job.run u with ⟨o, x⟩
      rw [hj] at h
      exact Outcome.runsOut_behindSlot queue ihn (fun s hs => ihj _ _ _ (hs ▸ hj)) h
    | some place =>
      rw [Program.run, he] at h
      simp only [Prod.mk.injEq, Outcome.suspended.injEq] at h
      rw [← h.1]
      refine Acc.intro _ ?_
      rintro s ⟨w', v', hr, he'⟩
      rw [Thread.resume] at he'
      split at he'
      · rcases hj : job.run (w'.goOn queue place) with ⟨o, x⟩
        rw [hj] at he'
        exact Outcome.runsOut_behindSlot queue ihn (fun s hs => ihj _ _ _ (hs ▸ hj)) he'
      · next hn => exact absurd hr hn

/-- Every thread runs out. -/
theorem Thread.acc_under (t : Thread η α) : Acc Thread.Under t := by
  induction t with
  | fresh p =>
    refine Acc.intro _ ?_
    rintro s ⟨w, v, _, he⟩
    exact p.runsOut _ _ _ he
  | held step next =>
    refine Acc.intro _ ?_
    rintro s ⟨w, v, hr, he⟩
    rw [Thread.resume] at he
    split at he
    · exact (next _).runsOut _ _ _ he
    · next hn => simp [Thread.isReady, hn] at hr
  | asking requester deadline request next =>
    refine Acc.intro _ ?_
    rintro s ⟨w, v, hr, he⟩
    rw [Thread.resume] at he
    split at he
    · next hn => simp [Thread.isReady, hn] at hr
    · exact (next _).runsOut _ _ _ he
  | waiting queue place job next =>
    refine Acc.intro _ ?_
    rintro s ⟨w, v, hr, he⟩
    rw [Thread.resume] at he
    split at he
    · rcases hj : job.run (w.goOn queue place) with ⟨o, x⟩
      rw [hj] at he
      exact Outcome.runsOut_behindSlot queue (fun b => (next b).runsOut)
        (fun s hs => job.runsOut _ _ _ (hs ▸ hj)) he
    · next hn => exact absurd hr hn
  | holding queue inner next ih => exact Thread.acc_holding queue (fun b => (next b).runsOut) ih

/-- One place of a list holds less than before, the others the same. -/
inductive OneLess {γ : Type 1} (r : γ → γ → Prop) : List γ → List γ → Prop
  | head {a b : γ} {l : List γ} : r a b → OneLess r (a :: l) (b :: l)
  | tail {a : γ} {l m : List γ} : OneLess r l m → OneLess r (a :: l) (a :: m)

/-- If nothing gets less for ever at one place, nothing does in a list. -/
theorem wellFounded_oneLess {γ : Type 1} {r : γ → γ → Prop} (h : ∀ a, Acc r a) :
    WellFounded (OneLess r) := by
  have cons : ∀ a, Acc r a → ∀ l, Acc (OneLess r) l → Acc (OneLess r) (a :: l) := by
    intro a ha
    induction ha with
    | intro a ha iha =>
      intro l hl
      induction hl with
      | intro l hl ihl =>
        refine Acc.intro _ ?_
        intro m hm
        cases hm with
        | head h => exact iha _ h l (Acc.intro l hl)
        | tail h => exact ihl _ h
  refine ⟨fun l => ?_⟩
  induction l with
  | nil => exact Acc.intro _ fun m hm => by cases hm
  | cons a l ih => exact cons a (h a) l ih

/-- An ended thread is less than any other, and a thread is more than what it may come to. -/
inductive Thread.Less : Option (Thread η α) → Option (Thread η α) → Prop
  | ended {t : Thread η α} : Less none (some t)
  | under {s t : Thread η α} : Thread.Under s t → Less (some s) (some t)

/-- No thread gets less for ever. -/
theorem Thread.acc_less (t : Option (Thread η α)) : Acc Thread.Less t := by
  have ended : Acc Thread.Less (none : Option (Thread η α)) := Acc.intro _ fun s hs => by cases hs
  cases t with
  | none => exact ended
  | some t =>
    induction t.acc_under with
    | intro t _ ih =>
      refine Acc.intro _ ?_
      intro s hs
      cases hs with
      | ended => exact ended
      | under h => exact ih _ h

end WalletGate
