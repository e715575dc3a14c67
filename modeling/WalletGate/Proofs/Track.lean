import WalletGate.Proofs.Schedule

/-!
# Following a thread inside a task

What a task does may be a small part of what surrounds it: a check inside a request inside a
slot.  A **frame** is what surrounds a thread without getting in its way, and `Crew.Leads`
follows the thread from one history to a longer one: the task goes, and the thread with it,
or something else happens and the thread stays as it is.  A task that is given up is
followed no further.

* `Crew.Leads.thread?_eq` — the task is where the thread that is followed is;
* `Crew.world_go_frame` — what the thread does to the world is what the task does to it;
* `Crew.leads_of_follow` — whether a thread is followed to the end of a given history can be
  computed.
-/

namespace WalletGate

variable {η α β γ : Type}

/-- What surrounds a thread without getting in its way. -/
def Thread.IsFrame (frame : Thread η β → Thread η α) : Prop :=
  ∀ s w, s.ended? = none →
    (frame s).move w = (s.move w).map fun m => ⟨m.deed, frame m.thread, m.world⟩

/-- Holding the slot of a queue is a frame. -/
theorem Thread.isFrame_holding (queue : Nat) (next : β → Program η α) :
    IsFrame fun s : Thread η β => holding queue s next := by
  intro s w h
  simp only [move, h]

/-- So is holding it and going on with something before it is given up. -/
theorem Thread.isFrame_holding_bind (queue : Nat) (f : γ → Program η β) (next : β → Program η α) :
    IsFrame fun s : Thread η γ => holding queue (s.bind f) next := by
  intro s w h
  simp only [move, ended?_bind f h, move_bind f w h, Option.map_map]
  rfl

namespace Crew

/-- A thread in a task, followed from one history to a longer one. -/
inductive Leads (c : Crew η α) (i : Nat) (s₀ : Thread η β) (h₀ : List (Act η α)) :
    Thread η β → List (Act η α) → Prop
  | start : Leads c i s₀ h₀ s₀ h₀
  | went {s : Thread η β} {h : List (Act η α)} (before : Leads c i s₀ h₀ s h)
    (hs : s.ended? = none) :
    Leads c i s₀ h₀ (s.after (c.after h).world) (.go i :: h)
  | stayed {s : Thread η β} {h : List (Act η α)} {a : Act η α} (before : Leads c i s₀ h₀ s h)
    (hgo : a ≠ .go i) (hdrop : a ≠ .drop i) : Leads c i s₀ h₀ s (a :: h)

variable {c : Crew η α} {i : Nat} {s₀ s : Thread η β} {h₀ h : List (Act η α)}
  {frame : Thread η β → Thread η α}

/-- A thread that does not move leaves its frame as it is, as long as neither has come to
its end. -/
theorem thread?_go_frame (hframe : Thread.IsFrame frame) (hopen : ∀ s, (frame s).ended? = none)
    (ht : c.thread? i = some (frame s)) (hs : s.ended? = none) :
    (c.go i).thread? i = some (frame (s.after c.world)) := by
  rw [thread?_go_self ht (hopen s), Thread.after, hframe s c.world hs, Thread.after]
  cases s.move c.world <;> rfl

/-- **The task is where the thread is.** -/
theorem Leads.thread?_eq (hframe : Thread.IsFrame frame) (hopen : ∀ s, (frame s).ended? = none)
    (hlead : Leads c i s₀ h₀ s h) (ht : (c.after h₀).thread? i = some (frame s₀)) :
    (c.after h).thread? i = some (frame s) := by
  induction hlead with
  | start => exact ht
  | went _ hs ih => exact thread?_go_frame hframe hopen ih hs
  | stayed _ hgo hdrop ih => exact thread?_perform ih hgo hdrop

/-- What the thread does to the world the task does. -/
theorem world_go_frame (hframe : Thread.IsFrame frame) {m : Move η β}
    (ht : c.thread? i = some (frame s)) (hm : s.move c.world = some m) :
    (c.go i).world = m.world := by
  have hmove : (frame s).move c.world = some ⟨m.deed, frame m.thread, m.world⟩ := by
    rw [hframe s c.world (Thread.ended?_of_move hm), hm]
    rfl
  rw [go_of_move ht hmove, world_put]

/-- A thread that has to wait leaves the world alone. -/
theorem world_go_frame_of_stuck (hframe : Thread.IsFrame frame)
    (hopen : ∀ s, (frame s).ended? = none)
    (ht : c.thread? i = some (frame s)) (hs : s.ended? = none) (hm : s.move c.world = none) :
    (c.go i).world = c.world := by
  have hmove : (frame s).move c.world = none := by
    rw [hframe s c.world hs, hm]
    rfl
  rw [go_of_stuck ht (hopen s) hmove]

/-- What becomes of a thread in a task, act by act; none if it moves on from its end or is
given up. -/
def follow (c : Crew η α) (i : Nat) (s₀ : Thread η β) (h₀ : List (Act η α)) :
    List (Act η α) → Option (Thread η β)
  | [] => some s₀
  | .go j :: later =>
    (c.follow i s₀ h₀ later).bind fun s =>
      if j ≠ i then some s
      else if s.ended?.isSome then none else some (s.after (c.after (later ++ h₀)).world)
  | .drop j :: later => if j ≠ i then c.follow i s₀ h₀ later else none
  | .spawn _ _ :: later => c.follow i s₀ h₀ later
  | .outside _ :: later => c.follow i s₀ h₀ later

/-- Following can be computed. -/
theorem leads_of_follow (later : List (Act η α)) (h : c.follow i s₀ h₀ later = some s) :
    Leads c i s₀ h₀ s (later ++ h₀) := by
  induction later generalizing s with
  | nil => exact Option.some.inj h ▸ .start
  | cons a later ih =>
    cases a with
    | spawn name p => exact (ih h).stayed nofun nofun
    | outside o => exact (ih h).stayed nofun nofun
    | drop j =>
      rw [follow] at h
      split at h
      · next hj => exact (ih h).stayed nofun fun he => hj (Act.drop.inj he)
      · simp at h
    | go j =>
      obtain ⟨t, ht, hs⟩ := Option.bind_eq_some_iff.1 h
      split at hs
      · next hj => exact Option.some.inj hs ▸ (ih ht).stayed (fun he => hj (Act.go.inj he)) nofun
      · next hj =>
        obtain rfl : j = i := Decidable.not_not.1 hj
        split at hs
        · simp at hs
        · next hended => exact Option.some.inj hs ▸ (ih ht).went (by simpa using hended)

/-- A longer history is followed from a shorter one. -/
theorem Leads.suffix (hlead : Leads c i s₀ h₀ s h) : h₀ <:+ h := by
  induction hlead with
  | start => exact List.suffix_refl _
  | went _ _ ih => exact ih.trans (List.suffix_cons _ _)
  | stayed _ _ _ ih => exact ih.trans (List.suffix_cons _ _)

end Crew

end WalletGate
