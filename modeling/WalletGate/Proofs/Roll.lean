import WalletGate.Proofs.Prompt
import Mathlib.Data.List.Sort

/-!
# The roll of a queue: which tasks came, and which were served

The ledger of a queue numbers jobs.  Where every task comes to the queue at most once its
tasks can be named instead: `Crew.roll` lists them in the order in which they came,
`Crew.served` in the order in which their jobs began.  A job's number is its task's place on
the roll (`Ledger.Rolls`), so what is known of numbers is known of tasks:

* `Crew.served_sublist` — tasks are served in the order in which they came;
* `Crew.places_eq_nil_of_mem_served` — when one has been served, all that came before it
  have left the queue;
* `Crew.not_runs_of_starts` — when one starts, nobody else holds the slot.
-/

namespace WalletGate

variable {η α : Type}

/-! ### Who came and who was served -/

namespace Crew

/-- What the next move of a task does to the slot of a queue, if anything. -/
def deed? (queue i : Nat) (c : Crew η α) : Option Deed :=
  ((c.thread? i).bind fun t => t.move c.world).bind fun m =>
    m.deed.bind fun d => if d.1 = queue then some d.2 else none

/-- The task that comes to a queue in an act, if one does. -/
def arriving (queue : Nat) (a : Act η α) (c : Crew η α) : List Nat :=
  match a with
  | .go i => if c.deed? queue i = some .came ∨ c.deed? queue i = some .cameIn then [i] else []
  | _ => []

/-- The task whose job starts in an act, if one does. -/
def starting (queue : Nat) (a : Act η α) (c : Crew η α) : List Nat :=
  match a with
  | .go i => if c.deed? queue i = some .began ∨ c.deed? queue i = some .cameIn then [i] else []
  | _ => []

/-- The tasks that came to a queue in a history, in the order in which they came. -/
def roll (queue : Nat) (c : Crew η α) : List (Act η α) → List Nat
  | [] => []
  | a :: past => c.roll queue past ++ (c.after past).arriving queue a

/-- The tasks whose jobs started in a history, in the order in which they started. -/
def served (queue : Nat) (c : Crew η α) : List (Act η α) → List Nat
  | [] => []
  | a :: past => c.served queue past ++ (c.after past).starting queue a

variable {queue i : Nat} {c : Crew η α}

theorem deed?_of_move {t : Thread η α} {m : Move η α} (ht : c.thread? i = some t)
    (hm : t.move c.world = some m) :
    c.deed? queue i = m.deed.bind fun d => if d.1 = queue then some d.2 else none := by
  simp [deed?, ht, hm]

/-- What a deed says of the move it belongs to. -/
theorem of_deed? {d : Deed} (h : c.deed? queue i = some d) :
    ∃ t m, c.thread? i = some t ∧ t.move c.world = some m ∧ m.deed = some (queue, d) := by
  obtain ⟨m, hmove, hdeed⟩ := Option.bind_eq_some_iff.1 h
  obtain ⟨t, ht, hm⟩ := Option.bind_eq_some_iff.1 hmove
  obtain ⟨⟨key, e⟩, he, hkey⟩ := Option.bind_eq_some_iff.1 hdeed
  obtain ⟨rfl, rfl⟩ : key = queue ∧ e = d := by simpa using hkey
  exact ⟨t, m, ht, hm, he⟩

/-- A job starts in a task exactly if it begins, or comes and finds the slot free. -/
theorem starts_iff_deed? :
    c.Starts queue i ↔ c.deed? queue i = some .began ∨ c.deed? queue i = some .cameIn := by
  constructor
  · rintro ⟨t, m, d, ht, hm, hdeed, rfl | rfl⟩ <;> simp [deed?_of_move ht hm, hdeed]
  · rintro (h | h) <;>
      obtain ⟨t, m, ht, hm, hdeed⟩ := of_deed? h <;>
      exact ⟨t, m, _, ht, hm, hdeed, by simp⟩

end Crew

/-! ### Numbers and tasks -/

namespace Ledger

/-- The ledger of a queue keeps account of an act of a task by what its move does to the
slot. -/
theorem note_go (queue i : Nat) (c : Crew η α) (l : Ledger) :
    l.note queue (.go i : Act η α) c = (c.deed? queue i).elim l (l.record i) := by
  rw [note, Crew.deed?]
  rcases (c.thread? i).bind fun t => t.move c.world with _ | ⟨_ | ⟨key, d⟩, t, w⟩
  · rfl
  · rfl
  · simp only [follow, Option.bind_some]
    split <;> rfl

/-- The jobs that began, earliest first. -/
def begun (log : List Entry) : List Nat :=
  (log.filterMap fun e => if e.event = .began then some e.job else none).reverse

@[simp] theorem begun_cons_began (n : Nat) (log : List Entry) :
    begun (⟨n, .began⟩ :: log) = begun log ++ [n] := by
  simp [begun]

theorem begun_cons_of_ne {e : Entry} (h : e.event ≠ .began) (log : List Entry) :
    begun (e :: log) = begun log := by
  simp [begun, h]

theorem mem_begun {n : Nat} {log : List Entry} : n ∈ begun log ↔ ⟨n, .began⟩ ∈ log := by
  simp only [begun, List.mem_reverse, List.mem_filterMap, Option.ite_none_right_eq_some,
    Option.some.injEq]
  constructor
  · rintro ⟨⟨job, event⟩, hmem, rfl, rfl⟩
    exact hmem
  · exact fun hmem => ⟨_, hmem, rfl, rfl⟩

theorem begun_dropAll (ns : List Nat) (log : List Entry) : begun (dropAll ns log) = begun log := by
  induction ns generalizing log with
  | nil => rfl
  | cons n ns ih => exact (ih _).trans (begun_cons_of_ne (by simp) log)

/-- **Jobs begin in the order of their numbers.** -/
theorem Orderly.pairwise_begun {log : List Entry} (h : Orderly log) :
    (begun log).Pairwise (· < ·) := by
  induction log with
  | nil => exact .nil
  | cons e log ih =>
    obtain ⟨job, event⟩ := e
    by_cases hevent : event = .began
    · subst hevent
      rw [begun_cons_began, List.pairwise_append]
      refine ⟨ih h.2, List.pairwise_singleton _ _, fun m hm n hn => ?_⟩
      have hserved : Served job log [] := Orderly.served h
      rw [List.mem_singleton.1 hn]
      exact hserved.inOrder m (mem_begun.1 hm)
    · rw [begun_cons_of_ne hevent]
      exact ih h.2

/-- A job's number is the place of its task on the roll. -/
structure Rolls (l : Ledger) (roll served : List Nat) : Prop where
  came : l.came = roll.length
  stays : ∀ i, ∀ n ∈ l.stays i, roll[n]? = some i
  served : served.map some = (begun l.log).map (roll[·]?)

namespace Rolls

variable {l : Ledger} {A S : List Nat} {i : Nat}

theorem empty : Rolls .empty [] [] where
  came := rfl
  stays i n hn := by simp [Ledger.empty] at hn
  served := rfl

/-- Jobs that began came before. -/
theorem extend (h : l.Rolls A S) (more : List Nat) :
    S.map some = (begun l.log).map ((A ++ more)[·]?) := by
  refine h.served.trans (List.map_congr_left fun n hn => ?_)
  have hmem : A[n]? ∈ S.map some := h.served ▸ List.mem_map_of_mem hn
  obtain ⟨j, _, hj⟩ := List.mem_map.1 hmem
  rw [List.getElem?_append_left (List.getElem?_eq_some_iff.1 hj.symm).1]

/-- A task comes. -/
theorem arrive (h : l.Rolls A S) (i : Nat) : (l.arrive i).Rolls (A ++ [i]) S where
  came := by simp [Ledger.arrive, h.came]
  stays j n hn := by
    have hold : ∀ m ∈ l.stays j, (A ++ [i])[m]? = some j := fun m hm => by
      have hj := h.stays j m hm
      rw [List.getElem?_append_left (List.getElem?_eq_some_iff.1 hj).1, hj]
    by_cases hji : j = i
    · subst hji
      have hn : n = l.came ∨ n ∈ l.stays j := by simpa [Ledger.arrive] using hn
      rcases hn with rfl | hn
      · simp [h.came]
      · exact hold n hn
    · exact hold n (by simpa [Ledger.arrive, hji] using hn)
  served := by
    rw [Ledger.arrive, begun_cons_of_ne (by simp)]
    exact h.extend [i]

/-- The innermost job of a task begins. -/
theorem begin (h : l.Rolls A S) (hsome : l.stays i ≠ []) : (l.begin i).Rolls A (S ++ [i]) := by
  obtain ⟨n, ns, hstays⟩ := List.exists_cons_of_ne_nil hsome
  have hn : A[n]? = some i := h.stays i n (hstays ▸ List.mem_cons_self)
  have hbegin : l.begin i = { l with log := ⟨n, .began⟩ :: l.log } := by simp [Ledger.begin, hstays]
  rw [hbegin]
  exact { came := h.came, stays := h.stays, served := by simp [h.served, hn] }

/-- The innermost job of a task ends. -/
theorem finish (h : l.Rolls A S) (i : Nat) : (l.finish i).Rolls A S := by
  unfold Ledger.finish
  split
  · next n ns hstays =>
    refine ⟨h.came, fun j m hm => ?_, by rw [begun_cons_of_ne (by simp)]; exact h.served⟩
    by_cases hji : j = i
    · subst hji
      exact h.stays j m (hstays ▸ List.mem_cons_of_mem n (by simpa using hm))
    · exact h.stays j m (by simpa [hji] using hm)
  · exact h

/-- A task is given up. -/
theorem giveUp (h : l.Rolls A S) (i : Nat) : (l.giveUp i).Rolls A S where
  came := h.came
  stays j n hn := by
    by_cases hji : j = i
    · subst hji
      simp at hn
    · exact h.stays j n (by rwa [stays_giveUp_of_ne hji] at hn)
  served := by
    rw [Ledger.giveUp, begun_dropAll]
    exact h.served

/-- **One act** keeps numbers and tasks together. -/
theorem note {queue : Nat} {c : Crew η α} {line : Line} (h : l.Rolls A S)
    (hline : Standing queue c l line) (a : Act η α) :
    (l.note queue a c).Rolls (A ++ c.arriving queue a) (S ++ c.starting queue a) := by
  cases a with
  | spawn name p => simpa [Ledger.note, Crew.arriving, Crew.starting] using h
  | outside o => simpa [Ledger.note, Crew.arriving, Crew.starting] using h
  | drop i => simpa [Ledger.note, Crew.arriving, Crew.starting] using h.giveUp i
  | go i =>
    rw [note_go, Crew.arriving, Crew.starting]
    cases hdeed : c.deed? queue i with
    | none => simpa using h
    | some d =>
      cases d with
      | came => simpa [record] using h.arrive i
      | ended => simpa [record] using h.finish i
      | cameIn =>
        have hbegin := (h.arrive i).begin (i := i) (by simp [Ledger.arrive])
        simpa [record] using hbegin
      | began =>
        obtain ⟨t, m, ht, hm, hd⟩ := Crew.of_deed? hdeed
        have hpass := Thread.passes_of_move hm queue
        rw [hd] at hpass
        have hsome : l.stays i ≠ [] := by
          intro hnone
          have hlength := hline.lengths i
          rw [hnone, Crew.placesOf_of_thread? ht] at hlength
          generalize hbefore : t.places queue = before at hpass
          generalize m.thread.places queue = behind at hpass
          generalize m.world.queues queue = q at hpass
          cases hpass with
          | elsewhere hnone => exact hnone _ rfl
          | began _ => simp [hbefore] at hlength
        simpa [record] using h.begin hsome

end Rolls

end Ledger

/-! ### Who came before whom -/

namespace Crew

variable {queue : Nat} {w : World η} {past : List (Act η α)}

/-- **All histories** keep numbers and tasks together. -/
theorem rolls (hidle : w.queues queue = Queue.idle)
    (hfew : (((ofWorld w).after past).world.queues queue).signals < UInt64.size) :
    ((ofWorld w).ledger queue past).Rolls ((ofWorld w).roll queue past)
      ((ofWorld w).served queue past) := by
  induction past with
  | nil => exact .empty
  | cons a past ih =>
    have hbefore :=
      Nat.lt_of_le_of_lt (signals_le_of_suffix queue (ofWorld w) (List.suffix_cons a past)) hfew
    obtain ⟨line, hline⟩ := standing hidle past hbefore
    exact (ih hbefore).note hline a

/-- **Tasks are served in the order in which they came.** -/
theorem served_sublist (hidle : w.queues queue = Queue.idle)
    (hfew : (((ofWorld w).after past).world.queues queue).signals < UInt64.size) :
    ((ofWorld w).served queue past).Sublist ((ofWorld w).roll queue past) := by
  have hrolls := rolls hidle hfew
  obtain ⟨line, hline⟩ := standing hidle past hfew
  generalize (ofWorld w).roll queue past = A at hrolls ⊢
  generalize (ofWorld w).served queue past = S at hrolls ⊢
  generalize (ofWorld w).ledger queue past = l at hrolls hline
  have hordered := hline.told.orderly.pairwise_begun
  have hsubset : Ledger.begun l.log ⊆ List.range A.length := by
    intro n hn
    have hmem : A[n]? ∈ S.map some := hrolls.served ▸ List.mem_map_of_mem hn
    obtain ⟨i, _, hi⟩ := List.mem_map.1 hmem
    exact List.mem_range.2 (List.getElem?_eq_some_iff.1 hi.symm).1
  have hnumbers : (Ledger.begun l.log).Sublist (List.range A.length) :=
    List.sublist_of_subperm_of_pairwise
      (List.subperm_of_subset (hordered.imp Nat.ne_of_lt) hsubset) hordered List.pairwise_lt_range
  have htasks : (S.map some).Sublist (A.map some) := by
    have hrange : (List.range A.length).map (A[·]?) = A.map some := by
      refine List.ext_getElem? fun n => ?_
      rcases Nat.lt_or_ge n A.length with hn | hn <;> simp [hn]
    rw [hrolls.served, ← hrange]
    exact hnumbers.map _
  simpa [List.filterMap_map] using htasks.filterMap id

/-- **Who has been served came after all that are still there.**  When the job of a task has
started, the tasks that came before it have left the queue. -/
theorem places_eq_nil_of_mem_served (hidle : w.queues queue = Queue.idle)
    (hfew : (((ofWorld w).after past).world.queues queue).signals < UInt64.size)
    (hnodup : ((ofWorld w).roll queue past).Nodup) {earlier later : List Nat} {i : Nat}
    (hsplit : (ofWorld w).roll queue past = earlier ++ i :: later)
    (hi : i ∈ (ofWorld w).served queue past) :
    ∀ j ∈ earlier, ((ofWorld w).after past).placesOf queue j = [] := by
  have hrolls := rolls hidle hfew
  obtain ⟨line, hline⟩ := standing hidle past hfew
  generalize (ofWorld w).roll queue past = A at hrolls hnodup hsplit
  generalize (ofWorld w).served queue past = S at hrolls hi
  generalize (ofWorld w).ledger queue past = l at hrolls hline
  subst hsplit
  have hplace : (earlier ++ i :: later)[earlier.length]? = some i := by simp
  -- the job of the task has the number of its place, and all before it are gone
  have hbegan : ⟨earlier.length, .began⟩ ∈ l.log := by
    have hmem : some i ∈ (Ledger.begun l.log).map ((earlier ++ i :: later)[·]?) :=
      hrolls.served ▸ List.mem_map_of_mem hi
    obtain ⟨n, hn, hni⟩ := List.mem_map.1 hmem
    have hlt := (List.getElem?_eq_some_iff.1 hni).1
    obtain rfl := (List.getElem?_inj hlt hnodup).1 (hni.trans hplace.symm)
    exact Ledger.mem_begun.1 hn
  intro j hj
  obtain ⟨m, hm, hmj⟩ := List.getElem_of_mem hj
  have hgone : Ledger.Gone m l.log := by
    obtain ⟨after, before, hlog⟩ := List.append_of_mem hbegan
    have hserved := Ledger.Orderly.served (hlog ▸ hline.told.orderly)
    rw [hlog]
    exact Ledger.Gone.later (Ledger.Gone.later (hserved.alone m hm) [_]) after
  by_contra hsome
  obtain ⟨p, hp⟩ := List.exists_mem_of_ne_nil _ hsome
  obtain ⟨t, ht, _⟩ := exists_thread?_of_mem hp
  have hstays : l.stays j ≠ [] := fun hnone => hsome (by
    have hlength := hline.lengths j
    rw [hnone] at hlength
    exact List.length_eq_zero_iff.1 hlength.symm)
  obtain ⟨n, ns, hn⟩ := List.exists_cons_of_ne_nil hstays
  have hnj := hrolls.stays j n (hn ▸ List.mem_cons_self)
  have hmj : (earlier ++ i :: later)[m]? = some j := by
    rw [List.getElem?_append_left hm, List.getElem?_eq_getElem hm, hmj]
  obtain rfl := (List.getElem?_inj (List.getElem?_eq_some_iff.1 hnj).1 hnodup).1
    (hnj.trans hmj.symm)
  obtain ⟨q, qs, hplaces⟩ := List.exists_cons_of_ne_nil hsome
  have hmem : (n, q) ∈ line := hline.mem_line (lt_of_thread? ht) (by simp [hn, hplaces])
  exact (hline.told.lives n (List.mem_map_of_mem hmem)).2 hgone

/-- **When a job starts nobody holds the slot.** -/
theorem not_runs_of_starts (hidle : w.queues queue = Queue.idle)
    (hfew : (((ofWorld w).after past).world.queues queue).signals < UInt64.size) {i : Nat}
    (hstarts : ((ofWorld w).after past).Starts queue i) (j : Nat) :
    .runs ∉ ((ofWorld w).after past).placesOf queue j := by
  obtain ⟨line, hline⟩ := standing hidle past hfew
  have hnone := hline.running_eq_zero_of_starts hstarts
  intro hruns
  obtain ⟨t, ht, _⟩ := exists_thread?_of_mem hruns
  have hmem : Stand.runs ∈ ((ofWorld w).after past).places queue :=
    List.mem_flatMap.2 ⟨j, List.mem_range.2 (lt_of_thread? ht), hruns⟩
  exact absurd hnone (Nat.ne_of_gt (List.count_pos_iff.2 hmem))

end Crew

end WalletGate
