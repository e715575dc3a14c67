import WalletGate.Proofs.Move

/-!
# The line in front of a slot

Who has the slot of a queue is spread over a flag, a list of waiters, the signals that were
sent, and the threads that have not yet noticed theirs.  Put together they are a **line** of
jobs, numbered as they came.  The first job in the line has the slot: it runs, or the slot
was handed to it and it has not gone on yet.  The jobs behind it wait, oldest first.

`Line.Of` says that a queue and a line belong together.  A signal's number is never used
twice, and as long as fewer than `UInt64.size` tickets were issued no two tickets are the
same, so a job that gives up takes its own waiter away and no other.

* `Line.Of.enter_free`, `Line.Of.enter_behind` — a job comes;
* `Line.Of.goOn` — only the first job's wait can be over;
* `Line.Of.release` — the slot goes to the job that came first among those that wait;
* `Line.Of.abandon` — whoever gives up, whether behind or with the slot already handed over,
  the others keep their places.
-/

namespace WalletGate

/-- Where a job of a queue stands. -/
inductive Stand where
  /-- It was started and has not ended. -/
  | runs
  /-- It has not been started; this is what it left in the queue. -/
  | waits (w : Waiter)
  deriving DecidableEq, Repr

/-- The waiter of a job that was not started. -/
def Stand.waiter? : Stand → Option Waiter
  | runs => none
  | waits w => some w

/-- The jobs of a queue that have not ended, by number, oldest first. -/
abbrev Line := List (Nat × Stand)

namespace Line

/-- The waiters of the jobs in a line. -/
def waiters (line : Line) : List Waiter :=
  line.filterMap fun j => j.2.waiter?

/-- The jobs in a line are in order, and so are their waiters; so many jobs have come. -/
structure Sound (line : Line) (q : Queue) (came : Nat) : Prop where
  numbers : (line.map Prod.fst).Pairwise (· < ·)
  bounded : ∀ j ∈ line, j.1 < came
  signals : (line.waiters.map Waiter.signal).Pairwise (· < ·)
  issued : ∀ w ∈ line.waiters, w.signal < q.signals
  listening : ∀ w ∈ line.waiters, w.signal ∈ q.listening
  tickets : ∀ w ∈ line.waiters, w.ticket = UInt64.ofNat w.signal

/-- A queue and a line belong together; so many jobs have come. -/
structure Of (line : Line) (q : Queue) (came : Nat) : Prop extends Sound line q came where
  active : q.active = !line.isEmpty
  waiting : waiters line.tail = q.waiting
  /-- Only the first job runs. -/
  behind : ∀ j ∈ line.tail, j.2 ≠ .runs
  /-- A job to which the slot was handed has been sent its signal. -/
  sent : ∀ n w rest, line = (n, .waits w) :: rest → w.signal ∈ q.sent
  nextTicket : q.nextTicket = UInt64.ofNat q.signals

/-- Nobody stands in front of a queue nobody has used. -/
theorem of_idle (came : Nat) : Of [] Queue.idle came where
  numbers := .nil
  bounded := by simp
  signals := .nil
  issued := by simp [waiters]
  listening := by simp [waiters]
  tickets := by simp [waiters]
  active := rfl
  waiting := rfl
  behind := by simp
  sent := by simp
  nextTicket := rfl

theorem mem_waiters {line : Line} {n : Nat} {w : Waiter} (h : (n, .waits w) ∈ line) :
    w ∈ line.waiters :=
  List.mem_filterMap.2 ⟨_, h, rfl⟩

/-- Jobs may leave a line. -/
theorem Sound.sublist {line less : Line} {q p : Queue} {came : Nat} (h : line.Sound q came)
    (hless : less.Sublist line) (hsignals : p.signals = q.signals)
    (hlistening : ∀ w ∈ less.waiters, w.signal ∈ q.listening → w.signal ∈ p.listening) :
    less.Sound p came where
  numbers := h.numbers.sublist (hless.map _)
  bounded j hj := h.bounded j (hless.subset hj)
  signals := h.signals.sublist ((hless.filterMap _).map _)
  issued w hw := by
    have hmem := (hless.filterMap fun j => j.2.waiter?).subset hw
    exact hsignals ▸ h.issued w hmem
  listening w hw := by
    have hmem := (hless.filterMap fun j => j.2.waiter?).subset hw
    exact hlistening w hw (h.listening w hmem)
  tickets w hw := h.tickets w ((hless.filterMap fun j => j.2.waiter?).subset hw)

variable {line : Line} {q : Queue} {came n : Nat} {w : Waiter}

/-- Where fewer than `UInt64.size` tickets were issued, waiters with one ticket have one
signal. -/
theorem Sound.signal_eq_of_ticket (h : line.Sound q came) (hfew : q.signals < UInt64.size)
    {v : Waiter}
    (hv : v ∈ line.waiters) (hw : w ∈ line.waiters) (hticket : v.ticket = w.ticket) :
    v.signal = w.signal := by
  have hvs := h.issued v hv
  have hws := h.issued w hw
  rw [h.tickets v hv, h.tickets w hw] at hticket
  have hnat := congrArg UInt64.toNat hticket
  have hsize : UInt64.size = 18446744073709551616 := rfl
  simp only [UInt64.toNat_ofNat'] at hnat
  omega

/-- The waiters around a waiter have other signals. -/
theorem Sound.signal_ne {pre post : Line} (h : Sound (pre ++ (n, .waits w) :: post) q came) :
    ∀ v ∈ waiters (pre ++ post), v.signal ≠ w.signal := by
  have hsplit : waiters (pre ++ (n, .waits w) :: post) = pre.waiters ++ w :: post.waiters :=
    List.filterMap_append
  have hsignals := h.signals
  rw [hsplit, List.map_append, List.map_cons, List.pairwise_append, List.pairwise_cons] at hsignals
  obtain ⟨_, ⟨hpost, _⟩, hpre⟩ := hsignals
  intro v hv
  rw [waiters, List.filterMap_append] at hv
  rcases List.mem_append.1 hv with hv | hv
  · have hlt := hpre v.signal (List.mem_map_of_mem hv) w.signal List.mem_cons_self
    omega
  · have hlt := hpost v.signal (List.mem_map_of_mem hv)
    omega

/-- Where fewer than `UInt64.size` tickets were issued, the waiters around a waiter have
other tickets. -/
theorem Sound.ticket_ne {pre post : Line} (h : Sound (pre ++ (n, .waits w) :: post) q came)
    (hfew : q.signals < UInt64.size) : ∀ v ∈ waiters (pre ++ post), v.ticket ≠ w.ticket := by
  intro v hv hticket
  have hless : (pre ++ post).Sublist (pre ++ (n, .waits w) :: post) :=
    (List.sublist_cons_self _ post).append_left pre
  have hmem := (hless.filterMap fun j => j.2.waiter?).subset hv
  have hw : w ∈ waiters (pre ++ (n, .waits w) :: post) :=
    mem_waiters (List.mem_append_right pre List.mem_cons_self)
  exact h.signal_ne v hv (h.signal_eq_of_ticket hfew hmem hw hticket)

namespace Of

/-- A job that runs is the first. -/
theorem eq_cons_of_runs (h : line.Of q came) (hn : (n, .runs) ∈ line) :
    line = (n, .runs) :: line.tail := by
  cases line with
  | nil => simp at hn
  | cons j rest =>
    rcases List.mem_cons.1 hn with rfl | hn
    · rfl
    · exact absurd rfl (h.behind _ hn)

/-- A job that waits is the first, or its waiter is in the queue. -/
theorem eq_cons_or_mem_waiting (h : line.Of q came) (hn : (n, .waits w) ∈ line) :
    line = (n, .waits w) :: line.tail ∨ (n, .waits w) ∈ line.tail ∧ w ∈ q.waiting := by
  cases line with
  | nil => simp at hn
  | cons j rest =>
    rcases List.mem_cons.1 hn with rfl | hn
    · exact .inl rfl
    · exact .inr ⟨hn, h.waiting ▸ mem_waiters hn⟩

/-- **The slot is free.**  A job that comes when nobody stands in line is the first. -/
theorem enter_free (h : line.Of q came) (hplace : q.enter.1 = none) :
    line = [] ∧ Of [(came, .runs)] q.enter.2.1 (came + 1) := by
  have hactive : q.active = false := by
    cases hactive : q.active with
    | false => rfl
    | true => simp [Queue.enter, hactive] at hplace
  have hempty : line = [] := by simpa [hactive] using h.active
  refine ⟨hempty, ?_⟩
  have hwaiting : q.waiting = [] := by
    rw [← h.waiting, hempty]
    rfl
  simp only [Queue.enter, hactive, Bool.false_eq_true, if_false]
  exact {
    numbers := List.pairwise_singleton _ _
    bounded := by simp
    signals := .nil
    issued := by simp [waiters, Stand.waiter?]
    listening := by simp [waiters, Stand.waiter?]
    tickets := by simp [waiters, Stand.waiter?]
    active := rfl
    waiting := by simp [Queue.publish, hwaiting, waiters]
    behind := by simp
    sent := by simp
    nextTicket := h.nextTicket }

/-- **The slot is taken.**  A job that comes when somebody stands in line is the last. -/
theorem enter_behind (h : line.Of q came) (hplace : q.enter.1 = some w) :
    Of (line ++ [(came, .waits w)]) q.enter.2.1 (came + 1) := by
  have hactive : q.active = true := by
    cases hactive : q.active with
    | false => simp [Queue.enter, hactive] at hplace
    | true => rfl
  have hsome : line ≠ [] := by
    rintro rfl
    simpa [hactive] using h.active
  obtain ⟨j, rest, rfl⟩ := List.exists_cons_of_ne_nil hsome
  have hw : w = ⟨q.nextTicket, q.signals⟩ := by simpa [Queue.enter, hactive] using hplace.symm
  have hwaiters : waiters (j :: rest ++ [(came, .waits w)]) = waiters (j :: rest) ++ [w] := by
    rw [waiters, List.filterMap_append]
    rfl
  simp only [Queue.enter, hactive, if_true]
  exact {
    numbers := by
      rw [List.map_append, List.pairwise_append]
      refine ⟨h.numbers, List.pairwise_singleton _ _, fun a ha b hb => ?_⟩
      obtain ⟨i, hi, rfl⟩ := List.mem_map.1 ha
      rw [List.map_singleton, List.mem_singleton] at hb
      exact hb ▸ h.bounded i hi
    bounded := by
      intro i hi
      rcases List.mem_append.1 hi with hi | hi
      · exact Nat.lt_succ_of_lt (h.bounded i hi)
      · rw [List.mem_singleton.1 hi]
        exact Nat.lt_succ_self came
    signals := by
      rw [hwaiters, List.map_append, List.pairwise_append]
      refine ⟨h.signals, List.pairwise_singleton _ _, fun a ha b hb => ?_⟩
      obtain ⟨v, hv, rfl⟩ := List.mem_map.1 ha
      rw [List.map_singleton, List.mem_singleton, hw] at hb
      exact hb ▸ h.issued v hv
    issued := by
      intro v hv
      rw [hwaiters] at hv
      rcases List.mem_append.1 hv with hv | hv
      · exact Nat.lt_succ_of_lt (h.issued v hv)
      · rw [List.mem_singleton.1 hv, hw]
        exact Nat.lt_succ_self q.signals
    listening := by
      intro v hv
      rw [hwaiters] at hv
      rcases List.mem_append.1 hv with hv | hv
      · exact List.mem_cons_of_mem _ (h.listening v hv)
      · rw [List.mem_singleton.1 hv, hw]
        exact List.mem_cons_self
    tickets := by
      intro v hv
      rw [hwaiters] at hv
      rcases List.mem_append.1 hv with hv | hv
      · exact h.tickets v hv
      · rw [List.mem_singleton.1 hv, hw]
        exact h.nextTicket
    active := rfl
    waiting := by
      rw [List.cons_append, List.tail_cons, waiters, List.filterMap_append, hw]
      exact congrArg (· ++ [(⟨q.nextTicket, q.signals⟩ : Waiter)]) h.waiting
    behind := by
      intro i hi
      rw [List.cons_append, List.tail_cons] at hi
      rcases List.mem_append.1 hi with hi | hi
      · exact h.behind i hi
      · rw [List.mem_singleton.1 hi]
        exact Stand.noConfusion
    sent := by
      intro m v more heq
      rw [List.cons_append, List.cons.injEq] at heq
      exact h.sent m v rest (heq.1 ▸ rfl)
    nextTicket := by
      change q.nextTicket + 1 = UInt64.ofNat (q.signals + 1)
      rw [h.nextTicket, UInt64.ofNat_add]
      rfl }

/-- **Going on.**  A job whose wait is over is the first in the line, and then it runs. -/
theorem goOn (h : line.Of q came) (hn : (n, .waits w) ∈ line) (hover : q.isOver w = true) :
    ∃ rest, line = (n, .waits w) :: rest ∧ Of ((n, .runs) :: rest) (q.goOn w).1 came := by
  rcases h.eq_cons_or_mem_waiting hn with heq | ⟨_, hw⟩
  · refine ⟨line.tail, heq, ?_⟩
    have hsound : Sound ((n, .waits w) :: line.tail) q came := heq ▸ h.toSound
    have hqueue : (q.goOn w).1 = q.silence w.signal := rfl
    rw [hqueue]
    exact {
      numbers := hsound.numbers
      bounded := by
        intro j hj
        rcases List.mem_cons.1 hj with rfl | hj
        · exact hsound.bounded (n, .waits w) List.mem_cons_self
        · exact hsound.bounded j (List.mem_cons_of_mem _ hj)
      signals := (List.pairwise_cons.1 hsound.signals).2
      issued := fun v hv => hsound.issued v (List.mem_cons_of_mem _ hv)
      listening := by
        intro v hv
        have hfront : Sound ([] ++ (n, .waits w) :: line.tail) q came := hsound
        have hne : v.signal ≠ w.signal := hfront.signal_ne v hv
        exact List.mem_filter.2 ⟨hsound.listening v (List.mem_cons_of_mem _ hv), by simpa using hne⟩
      tickets := fun v hv => hsound.tickets v (List.mem_cons_of_mem _ hv)
      active := by
        have hactive := h.active
        rw [heq] at hactive
        exact hactive
      waiting := h.waiting
      behind := h.behind
      sent := by simp
      nextTicket := h.nextTicket }
  · simp only [Queue.isOver, Bool.not_eq_true', List.any_eq_false, decide_eq_true_eq] at hover
    exact absurd rfl (hover w hw)

/-- The wait of the first job is over. -/
theorem isOver_of_first {rest : Line} (h : line.Of q came) (hfirst : line = (n, .waits w) :: rest) :
    q.isOver w = true := by
  subst hfirst
  have hfront : Sound ([] ++ (n, .waits w) :: rest) q came := h.toSound
  have hwaiting : waiters ([] ++ rest) = q.waiting := h.waiting
  have hsignal := hfront.signal_ne
  rw [hwaiting] at hsignal
  simpa [Queue.isOver] using hsignal

/-- The oldest waiter of a queue whose waiters all listen is the first. -/
theorem oldest?_of_listening {listening : List Nat} {ws : List Waiter}
    (h : ∀ w ∈ ws, w.signal ∈ listening) :
    Queue.oldest? listening ws = ws.head?.map fun w => (w, ws.tail) := by
  cases ws with
  | nil => rfl
  | cons w rest => simp [Queue.oldest?, h w List.mem_cons_self]

/-- **The hand-off.**  When the first job gives the slot up, the next in the line is the
first. -/
theorem release {j : Nat × Stand} {rest : Line} (h : Of (j :: rest) q came) :
    Of rest q.release.1 came := by
  have hless : rest.Sublist (j :: rest) := List.sublist_cons_self j rest
  have hwaiters : waiters rest = q.waiting := h.waiting
  have hlisten : ∀ v ∈ q.waiting, v.signal ∈ q.listening := by
    intro v hv
    rw [← hwaiters] at hv
    exact h.listening v ((hless.filterMap _).subset hv)
  have holdest := oldest?_of_listening hlisten
  cases rest with
  | nil =>
    have hq : q.waiting = [] := hwaiters.symm
    have hrelease : q.release.1 = Queue.publish { q with waiting := [], active := false } := by
      rw [Queue.release, holdest, hq]
      rfl
    rw [hrelease]
    exact {
      h.toSound.sublist hless rfl (fun _ _ hv => hv) with
      active := rfl
      waiting := rfl
      behind := by simp
      sent := by simp
      nextTicket := h.nextTicket }
  | cons i more =>
    obtain ⟨m, _ | w⟩ := i
    · exact absurd rfl (h.behind (m, .runs) List.mem_cons_self)
    have hq : q.waiting = w :: waiters more := hwaiters.symm
    have hrelease : q.release.1
        = Queue.publish { q with waiting := waiters more, sent := w.signal :: q.sent } := by
      rw [Queue.release, holdest, hq]
      rfl
    rw [hrelease]
    exact {
      h.toSound.sublist hless rfl (fun _ _ hv => hv) with
      active := h.active
      waiting := rfl
      behind := fun i hi => h.behind i (List.mem_cons_of_mem _ hi)
      sent := by
        intro k v later heq
        have hv : w = v := by
          injection heq with hfirst
          injection hfirst with _ hplace
          injection hplace
        rw [hv]
        exact List.mem_cons_self
      nextTicket := h.nextTicket }

/-- A signal nobody in the line waits for may be forgotten. -/
theorem silence (h : line.Of q came) {signal : Nat}
    (hnone : ∀ v ∈ line.waiters, v.signal ≠ signal) :
    line.Of (q.silence signal) came := by
  have kept : ∀ v ∈ line.waiters, ∀ signals : List Nat, v.signal ∈ signals →
      v.signal ∈ signals.filter (· != signal) := by
    intro v hv signals hmem
    exact List.mem_filter.2 ⟨hmem, by simpa using hnone v hv⟩
  have hsound : line.Sound (q.silence signal) came :=
    h.toSound.sublist (.refl line) rfl fun v hv => kept v hv q.listening
  exact {
    hsound with
    active := h.active
    waiting := h.waiting
    behind := h.behind
    sent := by
      rintro m v rest rfl
      exact kept v List.mem_cons_self q.sent (h.sent m v rest rfl)
    nextTicket := h.nextTicket }

/-- A job gives up to which the slot was handed: it passes the slot on. -/
theorem abandon_handed {rest : Line} (h : Of ((n, .waits w) :: rest) q came)
    (hfew : q.signals < UInt64.size) : Of rest (q.abandon w).1 came := by
  have hfront : Sound ([] ++ (n, .waits w) :: rest) q came := h.toSound
  have hwaiting : waiters ([] ++ rest) = q.waiting := h.waiting
  have hany : (q.waiting.any fun other => other.ticket = w.ticket) = false := by
    have hticket := hfront.ticket_ne hfew
    rw [hwaiting] at hticket
    simpa using hticket
  have hsent : w.signal ∈ q.sent := h.sent n w rest rfl
  have habandon : (q.abandon w).1 = q.release.1.silence w.signal := by
    simp [Queue.abandon, hany, hsent]
  rw [habandon]
  exact h.release.silence hfront.signal_ne

/-- A job gives up that waits behind the first: the others keep their places. -/
theorem abandon_behind {j : Nat × Stand} {pre post : Line}
    (h : Of (j :: pre ++ (n, .waits w) :: post) q came) (hfew : q.signals < UInt64.size) :
    Of (j :: pre ++ post) (q.abandon w).1 came := by
  have hless : (j :: pre ++ post).Sublist (j :: pre ++ (n, .waits w) :: post) :=
    (List.sublist_cons_self _ post).append_left (j :: pre)
  have hsignal := h.toSound.signal_ne
  have hticket := h.toSound.ticket_ne hfew
  have hwaiting : q.waiting = pre.waiters ++ w :: post.waiters := by
    rw [← h.waiting, List.cons_append, List.tail_cons, waiters, List.filterMap_append]
    rfl
  have hpre : ∀ v ∈ pre.waiters, ¬(decide (v.ticket = w.ticket)) = true := by
    intro v hv
    have hmem : v ∈ waiters (j :: pre ++ post) :=
      ((List.sublist_append_left pre post).cons j |>.filterMap fun j => j.2.waiter?).subset hv
    simpa using hticket v hmem
  have hleft : q.waiting.eraseP (fun other => other.ticket = w.ticket)
      = pre.waiters ++ post.waiters := by
    rw [hwaiting, List.eraseP_append_right _ hpre, List.eraseP_cons_of_pos (by simp)]
  have habandon : (q.abandon w).1
      = (Queue.publish { q with waiting := pre.waiters ++ post.waiters }).silence w.signal := by
    have hany : (q.waiting.any fun other => other.ticket = w.ticket) = true := by
      simp [hwaiting]
    simp [Queue.abandon, hany, hleft]
  have hsound : Sound (j :: pre ++ post)
      (Queue.publish { q with waiting := pre.waiters ++ post.waiters }) came :=
    h.toSound.sublist hless rfl fun _ _ hv => hv
  have hleftOver : Of (j :: pre ++ post)
    (Queue.publish { q with waiting := pre.waiters ++ post.waiters })
      came := {
    hsound with
    active := h.active
    waiting := List.filterMap_append
    behind := by
      intro i hi
      have hsub : (pre ++ post).Sublist (pre ++ (n, .waits w) :: post) :=
        (List.sublist_cons_self _ post).append_left pre
      exact h.behind i (hsub.subset hi)
    sent := by
      intro m v rest heq
      exact h.sent m v _ (by rw [List.cons_append, (List.cons.inj heq).1])
    nextTicket := h.nextTicket }
  rw [habandon]
  exact hleftOver.silence hsignal

/-- **Giving up.**  Whoever gives up while waiting, whether its signal was sent or not,
leaves the line; the others keep their places. -/
theorem abandon (h : line.Of q came) (hn : (n, .waits w) ∈ line) (hfew : q.signals < UInt64.size) :
    ∃ pre post, line = pre ++ (n, .waits w) :: post ∧ Of (pre ++ post) (q.abandon w).1 came := by
  rcases h.eq_cons_or_mem_waiting hn with heq | ⟨hmem, _⟩
  · refine ⟨[], line.tail, heq, ?_⟩
    rw [heq] at h
    exact h.abandon_handed hfew
  · obtain ⟨pre, post, htail⟩ := List.append_of_mem hmem
    obtain ⟨j, rest, rfl⟩ : ∃ j rest, line = j :: rest := by
      cases line with
      | nil => simp at hn
      | cons j rest => exact ⟨j, rest, rfl⟩
    rw [List.tail_cons] at htail
    subst htail
    exact ⟨j :: pre, post, rfl, h.abandon_behind hfew⟩

end Of

end Line

end WalletGate
