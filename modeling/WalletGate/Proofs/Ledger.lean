import WalletGate.Proofs.Line
import WalletGate.Proofs.Schedule
import Mathlib.Logic.Function.Basic

/-!
# The ledger of a queue

A **ledger** follows the jobs of one queue through a history.  Jobs are numbered in the
order in which they come, and every job leaves a trail of entries in the log: it came, it
began, it ended or was dropped.  The ledger also knows which jobs each task is inside of,
innermost first; a task may wait for a job that itself waits for another.

The ledger is computed from what the acts of a history do (`Crew.ledger`); nothing in the
program keeps it.

`Ledger.Orderly` is what a log should look like: whoever reads it from the beginning finds
that every entry fits those before it.  `Ledger.Tells` says that a log and a line belong
together, and each thing that can happen to a line keeps them together:

* `Ledger.Tells.came`, `Ledger.Tells.began`, `Ledger.Tells.ended`, `Ledger.Tells.dropped`.
-/

namespace WalletGate

variable {η α : Type}

/-- What happened to a job. -/
inductive Event where
  /-- It came to the queue for the first time. -/
  | came
  /-- It was started. -/
  | began
  /-- It ended, well or not. -/
  | ended
  /-- The task around it was given up. -/
  | dropped
  deriving DecidableEq, Repr

/-- An entry of the log: what happened to the job with this number. -/
structure Entry where
  job : Nat
  event : Event
  deriving DecidableEq, Repr

/-- The ledger of a queue. -/
structure Ledger where
  /-- How many jobs have come. -/
  came : Nat
  /-- The jobs each task is inside of, innermost first. -/
  stays : Nat → List Nat
  /-- What happened, latest first. -/
  log : List Entry

namespace Ledger

/-- Nobody has come. -/
def empty : Ledger := ⟨0, fun _ => [], []⟩

/-- A job comes in a task. -/
def arrive (i : Nat) (l : Ledger) : Ledger :=
  { came := l.came + 1
    stays := Function.update l.stays i (l.came :: l.stays i)
    log := ⟨l.came, .came⟩ :: l.log }

/-- The innermost job of a task begins. -/
def begin (i : Nat) (l : Ledger) : Ledger :=
  match l.stays i with
  | n :: _ => { l with log := ⟨n, .began⟩ :: l.log }
  | [] => l

/-- The innermost job of a task ends. -/
def finish (i : Nat) (l : Ledger) : Ledger :=
  match l.stays i with
  | n :: ns => { l with stays := Function.update l.stays i ns, log := ⟨n, .ended⟩ :: l.log }
  | [] => l

/-- A task did something to the slot. -/
def record (i : Nat) (d : Deed) (l : Ledger) : Ledger :=
  match d with
  | .came => l.arrive i
  | .cameIn => (l.arrive i).begin i
  | .began => l.begin i
  | .ended => l.finish i

/-- Jobs are dropped one after another. -/
def dropAll (ns : List Nat) (log : List Entry) : List Entry :=
  ns.foldl (fun log n => ⟨n, .dropped⟩ :: log) log

/-- A task is given up with all jobs it is inside of. -/
def giveUp (i : Nat) (l : Ledger) : Ledger :=
  { l with stays := Function.update l.stays i [], log := dropAll (l.stays i) l.log }

@[simp] theorem stays_giveUp_self (i : Nat) (l : Ledger) : (l.giveUp i).stays i = [] := by
  simp [giveUp]

theorem stays_giveUp_of_ne {i j : Nat} (h : j ≠ i) (l : Ledger) :
    (l.giveUp i).stays j = l.stays j := by
  simp [giveUp, h]

/-- A task made a move. -/
def follow (queue i : Nat) (deed : Option (Nat × Deed)) (l : Ledger) : Ledger :=
  match deed with
  | some (key, d) => if key = queue then l.record i d else l
  | none => l

/-- What an act does to the ledger of a queue. -/
def note (queue : Nat) (a : Act η α) (c : Crew η α) (l : Ledger) : Ledger :=
  match a with
  | .go i =>
    match (c.thread? i).bind fun t => t.move c.world with
    | some m => l.follow queue i m.deed
    | none => l
  | .drop i => l.giveUp i
  | .spawn _ _ => l
  | .outside _ => l

/-- The job ended or was dropped. -/
def Gone (n : Nat) (log : List Entry) : Prop :=
  ⟨n, .ended⟩ ∈ log ∨ ⟨n, .dropped⟩ ∈ log

/-- An entry fits the entries before it. -/
def Fits (e : Entry) (earlier : List Entry) : Prop :=
  match e.event with
  | .came => ∀ m, ⟨m, .came⟩ ∈ earlier ↔ m < e.job
  | .began =>
    ⟨e.job, .came⟩ ∈ earlier ∧ ⟨e.job, .began⟩ ∉ earlier ∧ ¬ Gone e.job earlier ∧
      ∀ m < e.job, Gone m earlier
  | .ended => ⟨e.job, .began⟩ ∈ earlier ∧ ¬ Gone e.job earlier
  | .dropped => ⟨e.job, .came⟩ ∈ earlier ∧ ¬ Gone e.job earlier

/-- Every entry of a log fits those before it. -/
def Orderly : List Entry → Prop
  | [] => True
  | e :: earlier => Fits e earlier ∧ Orderly earlier

/-- A log and a line belong together; so many jobs have come. -/
structure Tells (log : List Entry) (line : Line) (total : Nat) : Prop where
  arrivals : ∀ m, ⟨m, .came⟩ ∈ log ↔ m < total
  known : ∀ e ∈ log, e.job < total
  /-- A job that has come is gone or stands in the line. -/
  stands : ∀ m < total, Gone m log ∨ m ∈ line.map Prod.fst
  /-- A job that stands in the line has come and is not gone. -/
  lives : ∀ m ∈ line.map Prod.fst, m < total ∧ ¬ Gone m log
  /-- A job that was started is gone or runs. -/
  starts : ∀ m, ⟨m, .began⟩ ∈ log → Gone m log ∨ (m, .runs) ∈ line
  /-- A job that runs was started. -/
  runs : ∀ m, (m, .runs) ∈ line → ⟨m, .began⟩ ∈ log
  orderly : Orderly log

/-- An orderly log up to an entry is orderly, and the entry fits it. -/
theorem Orderly.split {later earlier : List Entry} {e : Entry}
    (h : Orderly (later ++ e :: earlier)) :
    Fits e earlier ∧ Orderly earlier := by
  induction later with
  | nil => exact h
  | cons _ later ih => exact ih h.2

/-- Whoever is gone stays gone. -/
theorem Gone.later {m : Nat} {earlier : List Entry} (h : Gone m earlier) (later : List Entry) :
    Gone m (later ++ earlier) :=
  h.imp (List.mem_append_right _) (List.mem_append_right _)

/-- A job that ended began. -/
theorem Orderly.began_of_ended {log : List Entry} {m : Nat} (h : Orderly log)
    (hm : ⟨m, .ended⟩ ∈ log) :
    ⟨m, .began⟩ ∈ log := by
  obtain ⟨later, earlier, rfl⟩ := List.append_of_mem hm
  have hfits : Fits ⟨m, .ended⟩ earlier := h.split.1
  exact List.mem_append_right _ (List.mem_cons_of_mem _ hfits.1)

/-- A job that is gone, or began already, does not begin. -/
theorem Orderly.not_began_later {later earlier : List Entry} {m : Nat}
    (h : Orderly (later ++ earlier))
    (hm : Gone m earlier ∨ ⟨m, .began⟩ ∈ earlier) : ⟨m, .began⟩ ∉ later := by
  intro hmem
  obtain ⟨after, between, rfl⟩ := List.append_of_mem hmem
  rw [List.append_assoc, List.cons_append] at h
  obtain ⟨_, hnew, hlive, _⟩ : Fits ⟨m, .began⟩ (between ++ earlier) := h.split.1
  rcases hm with hm | hm
  · exact hlive (hm.later between)
  · exact hnew (List.mem_append_right _ hm)

/-- **First come, first served**, seen from a job that begins: what was before and what
comes after. -/
structure Served (n : Nat) (earlier later : List Entry) : Prop where
  arrived : ⟨n, .came⟩ ∈ earlier
  /-- Those that began before it came before it. -/
  inOrder : ∀ m, ⟨m, .began⟩ ∈ earlier → m < n
  /-- It begins this once. -/
  once : ⟨n, .began⟩ ∉ earlier ∧ ⟨n, .began⟩ ∉ later
  /-- Those that came before it have ended or were dropped. -/
  alone : ∀ m < n, ⟨m, .ended⟩ ∈ earlier ∨ ⟨m, .dropped⟩ ∈ earlier
  /-- Who came before it and has not begun was dropped, and never begins. -/
  nobodyPassed : ∀ m < n, ⟨m, .began⟩ ∉ earlier → ⟨m, .dropped⟩ ∈ earlier ∧ ⟨m, .began⟩ ∉ later

/-- In an orderly log every job that begins is served in its turn. -/
theorem Orderly.served {later earlier : List Entry} {n : Nat}
    (h : Orderly (later ++ ⟨n, .began⟩ :: earlier)) :
    Served n earlier later := by
  obtain ⟨hfits, hearlier⟩ := h.split
  obtain ⟨hcame, hnew, hlive, hbefore⟩ : Fits ⟨n, .began⟩ earlier := hfits
  have hgone : ∀ m < n, Gone m (⟨n, .began⟩ :: earlier) := fun m hm => (hbefore m hm).later [_]
  exact {
    arrived := hcame
    inOrder := by
      intro m hm
      obtain ⟨after, before, rfl⟩ := List.append_of_mem hm
      obtain ⟨_, _, _, hearly⟩ : Fits ⟨m, .began⟩ before := hearlier.split.1
      rcases Nat.lt_trichotomy m n with hlt | rfl | hlt
      · exact hlt
      · exact absurd hm hnew
      · have hpast := (hearly n hlt).later (after ++ [⟨m, .began⟩])
        rw [List.append_assoc] at hpast
        exact absurd hpast hlive
    once := ⟨hnew, h.not_began_later (.inr List.mem_cons_self)⟩
    alone := hbefore
    nobodyPassed := by
      intro m hm hmem
      refine ⟨?_, h.not_began_later (.inl (hgone m hm))⟩
      rcases hbefore m hm with hended | hdropped
      · exact absurd (hearlier.began_of_ended hended) hmem
      · exact hdropped }

@[simp] theorem gone_cons_came (m n : Nat) (log : List Entry) :
    Gone m (⟨n, .came⟩ :: log) ↔ Gone m log := by
  simp [Gone]

@[simp] theorem gone_cons_began (m n : Nat) (log : List Entry) :
    Gone m (⟨n, .began⟩ :: log) ↔ Gone m log := by
  simp [Gone]

@[simp] theorem gone_cons_ended (m n : Nat) (log : List Entry) :
    Gone m (⟨n, .ended⟩ :: log) ↔ m = n ∨ Gone m log := by
  simp [Gone, or_assoc]

@[simp] theorem gone_cons_dropped (m n : Nat) (log : List Entry) :
    Gone m (⟨n, .dropped⟩ :: log) ↔ m = n ∨ Gone m log := by
  simp [Gone, or_left_comm]

/-- Nothing has happened. -/
theorem tells_nil : Tells [] [] 0 where
  arrivals := by simp
  known := by simp
  stands := by simp
  lives := by simp
  starts := by simp
  runs := by simp
  orderly := trivial

namespace Tells

variable {log : List Entry} {line rest : Line} {total n : Nat} {w : Waiter}

/-- A job nobody knows is not gone. -/
theorem not_gone_total (h : Tells log line total) : ¬ Gone total log := by
  rintro (hmem | hmem) <;> exact Nat.lt_irrefl total (h.known _ hmem)

/-- A job comes and stands behind the others. -/
theorem came (h : Tells log line total) (w : Waiter) :
    Tells (⟨total, .came⟩ :: log) (line ++ [(total, .waits w)]) (total + 1) where
  arrivals m := by
    have hm := h.arrivals m
    simp only [List.mem_cons, Entry.mk.injEq, and_true, hm]
    omega
  known e he := by
    rcases List.mem_cons.1 he with rfl | he
    · exact Nat.lt_succ_self total
    · exact Nat.lt_succ_of_lt (h.known e he)
  stands m hm := by
    rw [gone_cons_came, List.map_append, List.mem_append]
    rcases Nat.lt_succ_iff_lt_or_eq.1 hm with hm | rfl
    · exact (h.stands m hm).imp_right .inl
    · exact .inr (.inr List.mem_cons_self)
  lives m hm := by
    rw [gone_cons_came]
    rw [List.map_append, List.mem_append] at hm
    rcases hm with hm | hm
    · exact ⟨Nat.lt_succ_of_lt (h.lives m hm).1, (h.lives m hm).2⟩
    · obtain rfl : m = total := by simpa using hm
      exact ⟨Nat.lt_succ_self m, h.not_gone_total⟩
  starts m hm := by
    rw [gone_cons_came]
    have hm : ⟨m, .began⟩ ∈ log := by simpa using hm
    exact (h.starts m hm).imp_right (List.mem_append_left _)
  runs m hm := by
    have hm : (m, .runs) ∈ line := by simpa using hm
    exact List.mem_cons_of_mem _ (h.runs m hm)
  orderly := ⟨h.arrivals, h.orderly⟩

/-- **A job begins.**  It is the first in the line, so all that came before it are gone. -/
theorem began (h : Tells log ((n, .waits w) :: rest) total)
    (hnumbers : ((n :: rest.map Prod.fst).Pairwise (· < ·))) :
    Tells (⟨n, .began⟩ :: log) ((n, .runs) :: rest) total := by
  have hfirst : ∀ m ∈ rest.map Prod.fst, n < m := (List.pairwise_cons.1 hnumbers).1
  obtain ⟨hlt, hlive⟩ := h.lives n List.mem_cons_self
  have hnew : ⟨n, .began⟩ ∉ log := by
    intro hmem
    rcases h.starts n hmem with hgone | hruns
    · exact hlive hgone
    · have hruns : (n, .runs) ∈ rest := by simpa using hruns
      exact Nat.lt_irrefl n (hfirst n (List.mem_map_of_mem (f := Prod.fst) hruns))
  have hbefore : ∀ m < n, Gone m log := by
    intro m hm
    rcases h.stands m (Nat.lt_trans hm hlt) with hgone | hmem
    · exact hgone
    · rcases List.mem_cons.1 hmem with rfl | hmem
      · exact absurd hm (Nat.lt_irrefl _)
      · exact absurd (hfirst m hmem) (Nat.lt_asymm hm)
  exact {
    arrivals := fun m => by simpa using h.arrivals m
    known := by
      intro e he
      rcases List.mem_cons.1 he with rfl | he
      · exact hlt
      · exact h.known e he
    stands := fun m hm => by simpa using h.stands m hm
    lives := fun m hm => by simpa using h.lives m (by simpa using hm)
    starts := by
      intro m hm
      rw [gone_cons_began]
      rcases List.mem_cons.1 hm with heq | hm
      · obtain rfl : m = n := by simpa using heq
        exact .inr List.mem_cons_self
      · refine (h.starts m hm).imp_right fun hruns => List.mem_cons_of_mem _ ?_
        simpa using hruns
    runs := by
      intro m hm
      rcases List.mem_cons.1 hm with heq | hm
      · obtain rfl : m = n := by simpa using heq
        exact List.mem_cons_self
      · exact List.mem_cons_of_mem _ (h.runs m (List.mem_cons_of_mem _ hm))
    orderly := ⟨⟨(h.arrivals n).2 hlt, hnew, hlive, hbefore⟩, h.orderly⟩ }

/-- A job leaves the line: whatever the entry that says so, the others are left alone. -/
theorem left {pre post : Line} {p : Stand} {e : Entry} (h : Tells log (pre ++ (n, p) :: post) total)
    (hnumbers : ((pre ++ (n, p) :: post).map Prod.fst).Pairwise (· < ·)) (hjob : e.job = n)
    (hevent : e.event = .ended ∨ e.event = .dropped) (hfits : Fits e log) :
    Tells (e :: log) (pre ++ post) total := by
  obtain ⟨job, event⟩ := e
  obtain rfl : job = n := hjob
  have hmem : job ∈ (pre ++ (job, p) :: post).map Prod.fst := by simp
  have hgone : ∀ m, Gone m (⟨job, event⟩ :: log) ↔ m = job ∨ Gone m log := by
    intro m
    rcases hevent with rfl | rfl <;> simp
  have hne : ∀ m ∈ (pre ++ post).map Prod.fst, m ≠ job := by
    rw [List.map_append, List.map_cons, List.pairwise_append, List.pairwise_cons] at hnumbers
    intro m hm
    rw [List.map_append, List.mem_append] at hm
    rcases hm with hm | hm
    · exact Nat.ne_of_lt (hnumbers.2.2 m hm job List.mem_cons_self)
    · exact Nat.ne_of_gt (hnumbers.2.1.1 m hm)
  have hother : ∀ j : Nat × Stand, j ∈ pre ++ post → j ∈ pre ++ (job, p) :: post := by
    intro j hj
    rcases List.mem_append.1 hj with hj | hj
    · exact List.mem_append_left _ hj
    · exact List.mem_append_right _ (List.mem_cons_of_mem _ hj)
  have hthat : ∀ j : Nat × Stand, j ∈ pre ++ (job, p) :: post → j = (job, p) ∨ j ∈ pre ++ post := by
    intro j hj
    simp only [List.mem_append, List.mem_cons] at hj ⊢
    exact or_left_comm.1 hj
  have hold : ∀ f : Entry, f.event = .came ∨ f.event = .began →
      (f ∈ ⟨job, event⟩ :: log ↔ f ∈ log) := by
    rintro ⟨i, f⟩ hf
    rcases hf with rfl | rfl <;> rcases hevent with rfl | rfl <;> simp
  exact {
    arrivals := fun m => (hold ⟨m, .came⟩ (.inl rfl)).trans (h.arrivals m)
    known := by
      intro f hf
      rcases List.mem_cons.1 hf with rfl | hf
      · exact (h.lives job hmem).1
      · exact h.known f hf
    stands := by
      intro m hm
      rw [hgone]
      rcases h.stands m hm with hm | hm
      · exact .inl (.inr hm)
      · obtain ⟨j, hj, rfl⟩ := List.mem_map.1 hm
        rcases hthat j hj with rfl | hj
        · exact .inl (.inl rfl)
        · exact .inr (List.mem_map_of_mem hj)
    lives := by
      intro m hm
      rw [hgone]
      obtain ⟨j, hj, rfl⟩ := List.mem_map.1 hm
      obtain ⟨hlt, hlive⟩ := h.lives j.1 (List.mem_map_of_mem (hother j hj))
      exact ⟨hlt, fun hg => hg.elim (hne j.1 hm) hlive⟩
    starts := by
      intro m hm
      rw [hgone]
      rcases h.starts m ((hold ⟨m, .began⟩ (.inr rfl)).1 hm) with hm | hm
      · exact .inl (.inr hm)
      · rcases hthat _ hm with heq | hm
        · exact .inl (.inl (congrArg Prod.fst heq))
        · exact .inr hm
    runs := fun m hm => (hold ⟨m, .began⟩ (.inr rfl)).2 (h.runs m (hother _ hm))
    orderly := ⟨hfits, h.orderly⟩ }

/-- A job that runs ends. -/
theorem ended (h : Tells log ((n, .runs) :: rest) total)
    (hnumbers : ((n :: rest.map Prod.fst).Pairwise (· < ·))) :
    Tells (⟨n, .ended⟩ :: log) rest total := by
  have hfront : Tells log ([] ++ (n, .runs) :: rest) total := h
  exact hfront.left hnumbers rfl (.inl rfl)
    ⟨h.runs n List.mem_cons_self, (h.lives n List.mem_cons_self).2⟩

/-- A job is dropped, wherever it stands. -/
theorem dropped {pre post : Line} {p : Stand} (h : Tells log (pre ++ (n, p) :: post) total)
    (hnumbers : ((pre ++ (n, p) :: post).map Prod.fst).Pairwise (· < ·)) :
    Tells (⟨n, .dropped⟩ :: log) (pre ++ post) total := by
  obtain ⟨hlt, hlive⟩ := h.lives n (by simp)
  exact h.left hnumbers rfl (.inr rfl) ⟨(h.arrivals n).2 hlt, hlive⟩

end Tells

end Ledger

/-- The ledger of a queue behind a history. -/
def Crew.ledger (queue : Nat) (c : Crew η α) : List (Act η α) → Ledger
  | [] => .empty
  | a :: past => (c.ledger queue past).note queue a (c.after past)

end WalletGate
