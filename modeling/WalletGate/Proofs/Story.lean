import WalletGate.Proofs.Course

/-!
# The story of a task

A **story** tells of one task what a history did to it: what it asked the user, what it was
told, whether one of its moves changed the selected client, how it ended, whether it was
given up.  Like the ledger of a queue a story is computed from the acts of a history
(`Crew.story`); nothing in the program keeps it.

* `Crew.story_cons_of_ne` — only what a task does, and giving it up, goes into its story;
* `Crew.live_of_thread?` — a task that is still there has neither ended nor been given up;
* `Story.comes_moved` — a thread that goes along a course has asked and heard what the
  course says;
* `Crew.limit_of_mem_heard` — whatever a task is told, it is told under the limit the desk has.
-/

namespace WalletGate

variable {η α β : Type}

/-- What became of a task. -/
structure Story (α : Type) where
  /-- The requests it parked, earliest first. -/
  asked : List ApprovalRequest
  /-- What it was told, earliest first. -/
  heard : List Reply
  /-- One of its moves changed the selected client. -/
  switched : Bool
  /-- Its end, if it came to its end by itself. -/
  ended : Option (TaskEnd α)
  /-- It was given up. -/
  dropped : Bool

namespace Story

/-- Nothing has happened. -/
def blank : Story α := ⟨[], [], false, none, false⟩

/-- The questions asked. -/
def questions (s : Story α) : List Question := s.asked.map ApprovalRequest.question

/-- The answers heard. -/
def answers (s : Story α) : List (Except Fault Unit) := s.heard.map Reply.answer

/-- The task is still there. -/
structure Live (s : Story α) : Prop where
  ended : s.ended = none
  dropped : s.dropped = false

/-- The task has asked nothing, heard nothing and changed nothing. -/
structure Quiet (s : Story α) : Prop where
  asked : s.asked = []
  heard : s.heard = []
  switched : s.switched = false

theorem live_blank : (blank : Story α).Live := ⟨rfl, rfl⟩

theorem quiet_blank : (blank : Story α).Quiet := ⟨rfl, rfl, rfl⟩

theorem Quiet.answers_eq {s : Story α} (h : s.Quiet) : s.answers = [] := by
  rw [answers, h.heard]
  rfl

theorem Quiet.questions_eq {s : Story α} (h : s.Quiet) : s.questions = [] := by
  rw [questions, h.asked]
  rfl

end Story

/-- What a move parks. -/
def Thread.parks (t : Thread η α) (m : Move η α) : List ApprovalRequest :=
  match t.question?, m.thread.question? with
  | none, some p => [p.request]
  | _, _ => []

namespace Story

/-- A thread makes a move. -/
def moved (t : Thread η β) (w : World η) (m : Move η β) (s : Story α) : Story α :=
  { s with
    asked := s.asked ++ t.parks m
    heard := s.heard ++ (t.reply? w).toList
    switched := s.switched || decide (m.world.registry.selected ≠ w.registry.selected) }

/-- A task goes. -/
def go (t : Thread η α) (w : World η) (s : Story α) : Story α :=
  match t.ended? with
  | some e => { s with ended := some e }
  | none => (t.move w).elim s fun m => s.moved t w m

/-- What an act adds to the story of a task. -/
def note (i : Nat) (a : Act η α) (c : Crew η α) (s : Story α) : Story α :=
  match a with
  | .go j => if j = i then (c.thread? i).elim s fun t => s.go t c.world else s
  | .drop j => if j = i then (c.thread? i).elim s fun _ => { s with dropped := true } else s
  | .spawn _ _ => s
  | .outside _ => s

variable {s : Story α} {t : Thread η α} {w : World η}

theorem go_of_move {m : Move η α} (h : t.move w = some m) : s.go t w = s.moved t w m := by
  simp [go, Thread.ended?_of_move h, h]

theorem go_of_ended {e : TaskEnd α} (h : t.ended? = some e) :
    s.go t w = { s with ended := some e } := by
  simp [go, h]

theorem go_of_stuck (he : t.ended? = none) (hm : t.move w = none) : s.go t w = s := by
  simp [go, he, hm]

/-- **A move along a course** is told as the course says it. -/
theorem comes_moved {t : Thread η β} {m : Move η β} {start c d : Course β}
    {questions : List Question} (hcomes : start.Comes questions s.answers c)
    (hasked : s.questions = questions ++ (t.question?.map fun p => p.request.question).toList)
    (h : Thread.Advances t w m c d) :
    ∃ questions, start.Comes questions (s.moved t w m).answers d ∧
      (s.moved t w m).questions
        = questions ++ (m.thread.question?.map fun p => p.request.question).toList := by
  cases h with
  | other hquestion hsilent _ =>
    have hparks : t.parks m = [] := by
      rw [Thread.parks, hquestion]
      cases t.question? <;> rfl
    refine ⟨questions, ?_, ?_⟩
    · simpa [answers, moved, hsilent] using hcomes
    · rw [hquestion, ← hasked]
      simp [Story.questions, moved, hparks]
  | asked p hbefore hquestion hsilent _ =>
    have hparks : t.parks m = [p.request] := by rw [Thread.parks, hbefore, hquestion]
    refine ⟨questions, ?_, ?_⟩
    · simpa [answers, moved, hsilent] using hcomes
    · have hold : s.questions = questions := by simpa [hbefore] using hasked
      rw [← hold]
      simp [Story.questions, moved, hparks, hquestion]
  | told reply requester hbefore hquestion hsaid hasks _ =>
    have hparks : t.parks m = [] := by rw [Thread.parks, hbefore, hquestion]
    subst hasks
    refine ⟨questions ++ [reply.request.question], ?_, ?_⟩
    · have hanswers : (s.moved t w m).answers = s.answers ++ [reply.answer] := by
        simp [answers, moved, hsaid]
      rw [hanswers]
      exact hcomes.told reply.answer
    · have hold : s.questions = questions ++ [reply.request.question] := by
        simpa [hbefore] using hasked
      rw [← hold]
      simp [Story.questions, moved, hparks, hquestion]

/-- A move that asks nothing, is told nothing and leaves the registry alone adds nothing to
a story. -/
theorem moved_eq_self {t : Thread η β} {m : Move η β} (hquestion : m.thread.question? = none)
    (hsilent : t.reply? w = none) (hregistry : m.world.registry = w.registry) :
    s.moved t w m = s := by
  have hparks : t.parks m = [] := by
    rw [Thread.parks, hquestion]
    cases t.question? <;> rfl
  simp [moved, hparks, hsilent, hregistry]

end Story

/-- The story of a task in a history. -/
def Crew.story (i : Nat) (c : Crew η α) : List (Act η α) → Story α
  | [] => .blank
  | a :: past => (c.story i past).note i a (c.after past)

namespace Crew

variable {c : Crew η α} {past : List (Act η α)} {i : Nat} {t : Thread η α}

/-- **Only what a task does, and giving it up, goes into its story.** -/
theorem story_cons_of_ne {a : Act η α} (hgo : a ≠ .go i) (hdrop : a ≠ .drop i) :
    c.story i (a :: past) = c.story i past := by
  cases a with
  | spawn name p => rfl
  | outside o => rfl
  | go j => simp [story, Story.note, show j ≠ i from fun h => hgo (h ▸ rfl)]
  | drop j => simp [story, Story.note, show j ≠ i from fun h => hdrop (h ▸ rfl)]

theorem story_go_of_ne {j : Nat} (h : j ≠ i) : c.story j (.go i :: past) = c.story j past :=
  story_cons_of_ne (fun heq => h (Act.go.inj heq).symm) nofun

theorem story_drop_of_ne {j : Nat} (h : j ≠ i) : c.story j (.drop i :: past) = c.story j past :=
  story_cons_of_ne nofun fun heq => h (Act.drop.inj heq).symm

theorem story_go (ht : (c.after past).thread? i = some t) :
    c.story i (.go i :: past) = (c.story i past).go t (c.after past).world := by
  simp [story, Story.note, ht]

theorem story_drop (ht : (c.after past).thread? i = some t) :
    c.story i (.drop i :: past) = { c.story i past with dropped := true } := by
  simp [story, Story.note, ht]

/-- Nothing is told of a task that is not there. -/
theorem story_of_gone (ht : (c.after past).thread? i = none) {a : Act η α} :
    c.story i (a :: past) = c.story i past := by
  cases a with
  | spawn name p => rfl
  | outside o => rfl
  | go j => simp [story, Story.note, ht]
  | drop j => simp [story, Story.note, ht]

/-- Tasks are only ever added. -/
theorem length_perform_le (c : Crew η α) (a : Act η α) :
    c.tasks.length ≤ (c.perform a).tasks.length := by
  cases a with
  | spawn name p => simp [perform, spawn]
  | outside o => exact Nat.le_refl _
  | go j => exact Nat.le_of_eq (c.length_go j).symm
  | drop j => exact Nat.le_of_eq (c.length_giveUp j).symm

/-- A task that has been created changes only when it moves or is given up. -/
theorem thread?_perform_of_lt {a : Act η α} (hi : i < c.tasks.length) (hgo : a ≠ .go i)
    (hdrop : a ≠ .drop i) :
    (c.perform a).thread? i = c.thread? i := by
  cases a with
  | spawn name p => rw [perform, spawn, thread?, thread?, List.getElem?_append_left hi]
  | outside o => rfl
  | go j => exact thread?_go_of_ne (fun h : j = i => hgo (congrArg Act.go h)) c
  | drop j => exact thread?_giveUp_of_ne (fun h : j = i => hdrop (congrArg Act.drop h)) c

/-- Nothing has happened to a task that was not created yet. -/
theorem story_of_length_le (h : (c.after past).tasks.length ≤ i) : c.story i past = .blank := by
  induction past with
  | nil => rfl
  | cons a past ih =>
    have hbefore := Nat.le_trans (length_perform_le (c.after past) a) h
    rw [story_of_gone (thread?_of_length_le hbefore)]
    exact ih hbefore

/-- A task that goes and is still there is told of as one that is still there. -/
theorem live_story_go (hlive : ∀ s, (c.after past).thread? i = some s → (c.story i past).Live)
    (ht : (c.after (.go i :: past)).thread? i = some t) : (c.story i (.go i :: past)).Live := by
  rw [after_cons, perform] at ht
  cases hs : (c.after past).thread? i with
  | none => simp [go_of_gone hs, hs] at ht
  | some s =>
    have hbefore := hlive s hs
    rw [story_go hs]
    cases hm : s.move (c.after past).world with
    | some m =>
      rw [Story.go_of_move hm]
      exact ⟨hbefore.ended, hbefore.dropped⟩
    | none =>
      cases he : s.ended? with
      | none => rwa [Story.go_of_stuck he hm]
      | some e => simp [go_of_ended hs he, thread?_put_self hs] at ht

/-- **A task that is still there has neither ended nor been given up.** -/
theorem live_of_thread? (ht : (c.after past).thread? i = some t) : (c.story i past).Live := by
  induction past generalizing t with
  | nil => exact Story.live_blank
  | cons a past ih =>
    by_cases hdrop : a = .drop i
    · subst hdrop
      rw [after_cons, perform, giveUp] at ht
      cases hs : (c.after past).thread? i with
      | none => simp [hs] at ht
      | some s => simp [hs, thread?_put_self hs] at ht
    · by_cases hgo : a = .go i
      · subst hgo
        exact live_story_go (fun s => ih) ht
      · rw [story_cons_of_ne hgo hdrop]
        rcases Nat.lt_or_ge i (c.after past).tasks.length with hi | hi
        · rw [after_cons, thread?_perform_of_lt hi hgo hdrop] at ht
          exact ih ht
        · rw [story_of_length_le hi]
          exact Story.live_blank

end Crew

/-! ### How long a request may wait -/

namespace Desk

variable {d e : Desk}

theorem limit_deliver (requester : Nat) (verdict : Verdict) (d : Desk) :
    (d.deliver requester verdict).limit = d.limit := by
  unfold deliver
  split <;> rfl

theorem limit_settle {id : ApprovalId} {verdict : Verdict} {ns : List Notice}
    (h : d.settle id verdict = .ok (e, ns)) : e.limit = d.limit := by
  unfold settle at h
  split at h
  · simp at h
  · dsimp only at h
    split at h
    · obtain ⟨rfl, _⟩ := Prod.mk.inj (Except.ok.inj h)
      exact limit_deliver _ _ _
    · obtain ⟨rfl, _⟩ := Prod.mk.inj (Except.ok.inj h)
      rfl

theorem limit_rejectAll (reason : String) (d : Desk) :
    (d.rejectAll reason).2.1.limit = d.limit := by
  have told : ∀ (ps : List Parked) (e : Desk),
      (ps.foldl (fun d p => d.deliver p.requester (.rejected reason)) e).limit = e.limit := by
    intro ps
    induction ps with
    | nil => exact fun e => rfl
    | cons p rest ih => exact fun e => (ih _).trans (limit_deliver _ _ e)
  exact told d.parked _

end Desk

/-- Nothing from outside changes how long a request may wait. -/
theorem Outside.limit_apply (o : Outside η) (w : World η) :
    (o.apply w).desk.limit = w.desk.limit := by
  cases o with
  | accept id =>
    rcases w.desk_onDesk (Desk.accept id) with hsame | ⟨d, ns, hact, hd⟩
    · rw [apply, hsame]
    · obtain ⟨_, hsettle⟩ := Desk.settle_of_accept hact
      rw [apply, hd, Desk.limit_settle hsettle]
  | reject id reason =>
    rcases w.desk_onDesk (Desk.reject id reason) with hsame | ⟨d, ns, hact, hd⟩
    · rw [apply, hsame]
    · obtain ⟨_, hsettle⟩ := Desk.settle_of_reject hact
      rw [apply, hd, Desk.limit_settle hsettle]
  | rejectAll reason => exact Desk.limit_rejectAll reason w.desk
  | wait milliseconds => rfl
  | setQueueing queueing => rfl
  | host change => rfl
  | addCustom id config => simp [apply]
  | removeCustom id => simp [apply]
  | switchToBuiltIn network => simp [apply]
  | switchToCustom id => simp [apply]
  | bindOrigin origin id => simp [apply]

/-- Nor does anything a thread does. -/
theorem World.Becomes.limit_eq {w v : World η} (h : w.Becomes v) : v.desk.limit = w.desk.limit := by
  cases h with
  | called c => rw [World.desk_answer]
  | _ => rfl

/-- A thread is told under the limit there is. -/
theorem Thread.limit_of_reply? {t : Thread η α} {w : World η} {reply : Reply}
    (h : t.reply? w = some reply) :
    reply.limit = w.desk.limit := by
  induction t with
  | asking requester deadline request next =>
    obtain ⟨ending, _, rfl⟩ := Option.map_eq_some_iff.1 h
    rfl
  | holding queue inner next ih => exact ih h
  | fresh p => simp [reply?] at h
  | held step next => simp [reply?] at h
  | waiting queue place job next => simp [reply?] at h

namespace Crew

theorem limit_after (c : Crew η α) (past : List (Act η α)) :
    (c.after past).world.desk.limit = c.world.desk.limit := by
  induction past with
  | nil => rfl
  | cons a past ih =>
    have hact : ((c.after past).perform a).world.desk.limit = (c.after past).world.desk.limit :=
      world_perform (R := fun w v : World η => v.desk.limit = w.desk.limit) (fun _ => rfl)
        (fun _ _ _ huv hvw => hvw.trans huv) (fun _ _ hb => hb.limit_eq) (c.after past)
        fun o _ => o.limit_apply _
    exact hact.trans ih

/-- **Whatever a task is told, it is told under the limit the desk has.** -/
theorem limit_of_mem_heard {c : Crew η α} {past : List (Act η α)} {i : Nat} {reply : Reply}
    (h : reply ∈ (c.story i past).heard) : reply.limit = c.world.desk.limit := by
  induction past with
  | nil => simp [story, Story.blank] at h
  | cons a past ih =>
    cases ht : (c.after past).thread? i with
    | none =>
      rw [story_of_gone ht] at h
      exact ih h
    | some t =>
      by_cases hgo : a = .go i
      · subst hgo
        rw [story_go ht] at h
        cases he : t.ended? with
        | some e =>
          rw [Story.go_of_ended he] at h
          exact ih h
        | none =>
          cases hm : t.move (c.after past).world with
          | none =>
            rw [Story.go_of_stuck he hm] at h
            exact ih h
          | some m =>
            rw [Story.go_of_move hm] at h
            rcases List.mem_append.1 h with hold | hnew
            · exact ih hold
            · rw [Thread.limit_of_reply? (Option.mem_toList.1 hnew), limit_after]
      · by_cases hdrop : a = .drop i
        · subst hdrop
          rw [story_drop ht] at h
          exact ih h
        · rw [story_cons_of_ne hgo hdrop] at h
          exact ih h

end Crew

end WalletGate
