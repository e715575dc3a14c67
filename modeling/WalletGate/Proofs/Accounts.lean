import Mathlib.Data.List.Nodup
import WalletGate.Proofs.Fate

/-!
# The desk keeps its books by the fates of requests

What is parked is what waits, no two parked requests have one id, and every parked request
has somebody who waits for the decision on it.  Whoever waits has a request that still
waits, was decided on or was lost, and the desk owes him just that: nothing yet, the
verdict, or the word that the request went away (`Accounts`).

Three things happen at the desk, and each keeps the books: a request comes
(`Accounts.comes`), a requester leaves (`Accounts.leaves`), the user decides on some of what
is parked (`Accounts.tells`).

* `Accounts.look` — whoever waits finds at the desk what the fate of its request says;
* `Accounts.deals` — the books are right behind every act;
* `Crew.accounts` — the books are right in every history.
-/

namespace WalletGate

variable {η α : Type}

/-! ### Fates behind one act -/

/-- What a request does at the desk: it comes, or its requester looks or leaves. -/
def Affair.IsOf (p : Parked) (affair : Affair) : Prop :=
  affair = .comes p ∨ affair = .looks p ∨ affair = .leaves p

/-- A rival is another request with the same id. -/
theorem Affair.exists_of_isRival {p : Parked} {affair : Affair} (h : affair.isRival p = true) :
    ∃ q, affair.IsOf q ∧ q ≠ p ∧ q.request.id = p.request.id := by
  cases affair with
  | comes q => exact ⟨q, .inl rfl, by simpa [isRival] using h⟩
  | looks q => exact ⟨q, .inr (.inl rfl), by simpa [isRival] using h⟩
  | leaves q => exact ⟨q, .inr (.inr rfl), by simpa [isRival] using h⟩
  | _ => simp [isRival] at h

namespace Fate

variable {w : World η} {p q : Parked} {affair : Affair} {fate : Option Fate} {deadline : Option Nat}

/-- Nothing is told of a request that is not parked before it comes. -/
theorem isSome_next : (next w p affair fate).isSome ↔ fate.isSome ∨ affair = .comes p := by
  rcases fate with _ | fate
  · by_cases h : affair = .comes p <;> simp [next, h]
  · cases fate <;> simp [next]

/-- Who waits behind an act waited before it, or has just come. -/
theorem waits_of_next (h : next w p affair fate = some (.waits deadline))
    (hcomes : affair ≠ .comes p) :
    ∃ deadline, fate = some (.waits deadline) := by
  rcases fate with _ | f
  · simp [next, hcomes] at h
  · cases f with
    | waits l => exact ⟨l, rfl⟩
    | _ => simp [next] at h

theorem next_waits :
    next w p affair (some (.waits deadline)) = some (ofWaiting w.clock p deadline affair) := rfl

theorem next_nothing : next w p .nothing fate = fate := by
  rcases fate with _ | (_ | _ | _ | _ | _) <;> rfl

/-- A request that waits is lost when another one with its id comes, looks or leaves, and
otherwise waits on. -/
theorem ofWaiting_of_other {now : Nat} (haffair : affair.IsOf q) (hne : p ≠ q) :
    ofWaiting now p deadline affair = if q.request.id = p.request.id then .lost
      else .waits deadline := by
  have hne' := Ne.symm hne
  by_cases hid : q.request.id = p.request.id <;>
    rcases haffair with rfl | rfl | rfl <;> simp [ofWaiting, Affair.isRival, hne', hid]

/-- Behind what another request does at the desk, those wait that waited and have another id. -/
theorem next_eq_waits_of_other (haffair : affair.IsOf q) (hne : p ≠ q) :
    next w p affair fate = some (.waits deadline) ↔
      fate = some (.waits deadline) ∧ p.request.id ≠ q.request.id := by
  rcases fate with _ | f
  · have hcomes : affair ≠ .comes p := by rcases haffair with rfl | rfl | rfl <;> simp [Ne.symm hne]
    simp [next, hcomes]
  · cases f with
    | waits l =>
      rw [next_waits, ofWaiting_of_other haffair hne]
      by_cases hid : p.request.id = q.request.id <;> simp [hid, eq_comm]
    | _ => simp [next]

/-- The requester of a request that waits looks at the desk. -/
theorem ofWaiting_looks (now : Nat) :
    ofWaiting now p deadline (.looks p) = if isOver deadline now then .timedOut
      else .waits deadline := by
  simp [ofWaiting, Affair.isRival]

/-- The requester of a request that waits is given up. -/
theorem ofWaiting_leaves (now : Nat) : ofWaiting now p deadline (.leaves p) = .dropped := by
  simp [ofWaiting, Affair.isRival]

/-- A request is lost behind an act if it was lost before, or waited and the act is a
rival's. -/
theorem next_eq_lost_iff : next w p affair fate = some .lost ↔
    fate = some .lost ∨ (∃ deadline, fate = some (.waits deadline)) ∧ affair.isRival p := by
  rcases fate with _ | f
  · simp [next]
  · cases f with
    | waits deadline =>
      rw [next_waits]
      unfold ofWaiting
      by_cases hrival : affair.isRival p
      · simp [hrival]
      · cases affair <;> simp [hrival] <;> split <;> simp
    | _ => simp [next]

/-- The wait of a request is over behind an act if the user decides on it, its requester is
resumed after the deadline or is given up, or the act is a rival's. -/
theorem not_waits_next_iff : (¬ ∃ l, next w p affair (some (.waits deadline)) = some (.waits l)) ↔
    (∃ verdict, affair = .decides p.request.id verdict) ∨ (∃ reason, affair = .rejectsAll reason) ∨
    (affair = .looks p ∧ isOver deadline w.clock) ∨ affair = .leaves p ∨ affair.isRival p := by
  rw [next_waits]
  unfold ofWaiting
  by_cases hrival : affair.isRival p
  · simp [hrival]
  · rw [if_neg hrival]
    cases affair with
    | looks q => by_cases hover : q = p ∧ isOver deadline w.clock <;> simp [hrival, hover]
    | leaves q => by_cases hq : q = p <;> simp [hrival, hq]
    | decides id verdict => by_cases hid : id = p.request.id <;> simp [hrival, hid]
    | _ => simp [hrival]

end Fate

/-! ### The books -/

/-- What the desk owes somebody who waits, by the fate of the request. -/
inductive Desk.Owes (d : Desk) (x : Wait) : Fate → Prop
  /-- Nothing yet. -/
  | nothing (silent : d.verdicts.lookup x.entry.requester = none) : Owes d x (.waits x.deadline)
  | verdict (v : Verdict) (said : d.verdicts.lookup x.entry.requester = some v) :
    Owes d x (.decided v)
  /-- The word that the request went away. -/
  | word (silent : d.verdicts.lookup x.entry.requester = none) : Owes d x .lost

/-- The books of a desk: who waits there for what, and what has become of every request. -/
structure Accounts (d : Desk) (asks : Nat → Option Wait) (fate : Parked → Option Fate) : Prop where
  numbered : d.announced.length = d.requesters
  given : ∀ v ∈ d.verdicts, v.1 < d.requesters
  known : ∀ p, (fate p).isSome ↔ d.announced.reverse[p.requester]? = some p.request
  parked : ∀ p, p ∈ d.parked ↔ ∃ deadline, fate p = some (.waits deadline)
  apart : (d.parked.map fun p => p.request.id).Nodup
  alone : ∀ i j x y, asks i = some x → asks j = some y → x.entry = y.entry → i = j
  owned : ∀ p ∈ d.parked, ∃ i x, asks i = some x ∧ x.entry = p
  listens : ∀ i x, asks i = some x → x.entry.requester ∈ d.listening
  owes : ∀ i x, asks i = some x → ∃ f, fate x.entry = some f ∧ d.Owes x f

/-- Who is found in a map with one entry changed. -/
theorem Registry.update_eq_some_iff {α β : Type} [DecidableEq α] {f : α → Option β} {a b : α}
    {new : Option β} {x : β} :
    update f a new b = some x ↔ b = a ∧ new = some x ∨ b ≠ a ∧ f b = some x := by
  by_cases hb : b = a <;> simp [update, hb]

namespace Desk

variable {d e : Desk} {x : Wait} {f : Fate}

/-- What another request does at the desk: whoever waits is owed the same as before, or the
word. -/
theorem Owes.of_other {w : World η} {affair : Affair} {p : Parked} {fate : Option Fate}
    (h : ∃ f, fate = some f ∧ d.Owes x f) (haffair : affair.IsOf p) (hne : x.entry ≠ p)
    (hlookup : e.verdicts.lookup x.entry.requester = d.verdicts.lookup x.entry.requester) :
    ∃ f, Fate.next w x.entry affair fate = some f ∧ e.Owes x f := by
  obtain ⟨f, rfl, howes⟩ := h
  cases howes with
  | nothing silent =>
    rw [Fate.next_waits, Fate.ofWaiting_of_other haffair hne]
    split
    · exact ⟨_, rfl, .word (hlookup.trans silent)⟩
    · exact ⟨_, rfl, .nothing (hlookup.trans silent)⟩
  | verdict v said => exact ⟨_, rfl, .verdict v (hlookup.trans said)⟩
  | word silent => exact ⟨_, rfl, .word (hlookup.trans silent)⟩

/-- Verdicts for one requester are taken away; those for another stay. -/
theorem lookup_filter_of_ne {vs : List (Nat × Verdict)} {r s : Nat} (h : s ≠ r) :
    (vs.filter fun v => v.1 != r).lookup s = vs.lookup s := by
  induction vs with
  | nil => rfl
  | cons v vs ih =>
    obtain ⟨k, v⟩ := v
    by_cases hk : k = r
    · have hs : (s == r) = false := beq_false_of_ne h
      simp [hk, List.lookup_cons, hs, ih]
    · by_cases hs : s = k <;> simp [hk, List.lookup_cons, hs, ih]

end Desk

namespace Accounts

variable {w : World η} {d e : Desk} {asks : Nat → Option Wait}
    {fate : Parked → Option Fate} {i : Nat}
  {p q : Parked} {x y : Wait}

/-- Nothing has happened. -/
theorem start (limit : Option Nat) : Accounts (Desk.empty limit) (fun _ => none) fun _ => none := by
  constructor <;> simp [Desk.empty]

/-- A requester has one request. -/
theorem eq_of_requester (h : Accounts d asks fate) (hp : (fate p).isSome) (hq : (fate q).isSome)
    (heq : p.requester = q.requester) : p = q := by
  have hrequest : some p.request = some q.request := by
    rw [← (h.known p).1 hp, ← (h.known q).1 hq, heq]
  cases p
  cases q
  simp_all

/-- Two parked requests have different ids. -/
theorem eq_of_id (h : Accounts d asks fate) (hp : p ∈ d.parked) (hq : q ∈ d.parked)
    (heq : p.request.id = q.request.id) : p = q :=
  List.inj_on_of_nodup_map h.apart hp hq heq

theorem isSome_of_parked (h : Accounts d asks fate) (hp : p ∈ d.parked) : (fate p).isSome := by
  obtain ⟨deadline, hfate⟩ := (h.parked p).1 hp
  simp [hfate]

theorem isSome_of_asks (h : Accounts d asks fate) (hx : asks i = some x) :
    (fate x.entry).isSome := by
  obtain ⟨f, hfate, _⟩ := h.owes i x hx
  simp [hfate]

/-- Two who wait have different numbers. -/
theorem requester_ne (h : Accounts d asks fate) {j : Nat} (hx : asks i = some x)
    (hy : asks j = some y) (hne : j ≠ i) : y.entry.requester ≠ x.entry.requester := fun heq =>
  hne (h.alone j i y x hy hx (h.eq_of_requester (h.isSome_of_asks hy) (h.isSome_of_asks hx) heq))

/-- **Whoever waits finds at the desk what the fate of its request says.** -/
theorem look (h : Accounts d asks fate) (hx : asks i = some x) (now : Nat) :
    (fate x.entry = some (.waits x.deadline) ∧ d.look x.entry.requester x.deadline now
      = if Fate.isOver x.deadline now then some .timedOut else none) ∨
    (∃ v, fate x.entry = some (.decided v) ∧
      d.look x.entry.requester x.deadline now = some (.decided v)) ∨
    (fate x.entry = some .lost ∧ d.look x.entry.requester x.deadline now = some .dropped) := by
  obtain ⟨f, hfate, howes⟩ := h.owes i x hx
  cases howes with
  | nothing silent =>
    have hparked : d.parked.any (fun p => p.requester = x.entry.requester) = true :=
      List.any_eq_true.2 ⟨x.entry, (h.parked _).2 ⟨_, hfate⟩, by simp⟩
    refine .inl ⟨hfate, ?_⟩
    simp only [Desk.look, silent, if_pos hparked, Fate.isOver]
    cases x.deadline with
    | none => rfl
    | some t => simp
  | verdict v said => exact .inr (.inl ⟨v, hfate, by simp only [Desk.look, said]⟩)
  | word silent =>
    have hparked : ¬ d.parked.any (fun p => p.requester = x.entry.requester) = true := by
      intro hany
      obtain ⟨p, hp, heq⟩ := List.any_eq_true.1 hany
      obtain rfl := h.eq_of_requester (h.isSome_of_parked hp) (h.isSome_of_asks hx)
        (by simpa using heq)
      obtain ⟨deadline, hwaits⟩ := (h.parked _).1 hp
      simp [hfate] at hwaits
    refine .inr (.inr ⟨hfate, ?_⟩)
    simp only [Desk.look, silent, if_neg hparked]

/-- The fates may be told in other words. -/
theorem congr (h : Accounts d asks fate) {fate' : Parked → Option Fate}
    (heq : ∀ p, fate' p = fate p) :
    Accounts d asks fate' :=
  (funext heq : fate' = fate) ▸ h

/-- Every parked request has still somebody who waits, if only he has changed who waits for
another one. -/
theorem owned_update (h : Accounts d asks fate) {new : Option Wait} (hq : q ∈ d.parked)
    (hother : ∀ x, asks i = some x → x.entry ≠ q) :
    ∃ j y, Registry.update asks i new j = some y ∧ y.entry = q := by
  obtain ⟨j, y, hy, hentry⟩ := h.owned q hq
  have hj : j ≠ i := by
    rintro rfl
    exact hother y hy hentry
  exact ⟨j, y, Registry.update_eq_some_iff.2 (.inr ⟨hj, hy⟩), hentry⟩

/-! ### A request comes -/

/-- The number that is given out next is nobody's. -/
theorem fate_next_number (h : Accounts d asks fate) (request : ApprovalRequest) :
    fate ⟨request, d.requesters⟩ = none := by
  refine Option.not_isSome_iff_eq_none.1 fun hsome => ?_
  have hget := (h.known _).1 hsome
  simp [← h.numbered] at hget

theorem entry_ne_next (h : Accounts d asks fate) (hx : asks i = some x)
    (request : ApprovalRequest) :
    x.entry ≠ ⟨request, d.requesters⟩ := by
  intro heq
  have hsome := h.isSome_of_asks hx
  simp [heq, h.fate_next_number] at hsome

/-- One more announcement makes one more request known. -/
theorem known_announced (h : Accounts d asks fate) (request : ApprovalRequest) :
    (d.announced.reverse ++ [request])[q.requester]? = some q.request ↔
      (fate q).isSome ∨ q = ⟨request, d.requesters⟩ := by
  have hlength : d.announced.reverse.length = d.requesters := by simp [h.numbered]
  obtain ⟨asked, number⟩ := q
  rw [h.known]
  rcases Nat.lt_trichotomy number d.requesters with hlt | rfl | hgt
  · rw [List.getElem?_append_left (hlength ▸ hlt)]
    simp [Nat.ne_of_lt hlt]
  · rw [← hlength, List.getElem?_concat_length, List.getElem?_eq_none (Nat.le_refl _)]
    simp only [Option.some.injEq, reduceCtorEq, false_or, Parked.mk.injEq, and_true]
    exact eq_comm
  · rw [List.getElem?_eq_none (by rw [List.length_append, hlength]; exact hgt),
      List.getElem?_eq_none (by rw [hlength]; exact Nat.le_of_lt hgt)]
    simp [Nat.ne_of_gt hgt]

/-- **A request comes.** -/
theorem comes (h : Accounts w.desk asks fate) (hi : asks i = none) (request : ApprovalRequest) :
    Accounts (w.desk.park request).2.1
      (Registry.update asks i (some ⟨⟨request, w.desk.requesters⟩, w.desk.limit.map (w.clock + ·)⟩))
      fun q => Fate.next w q (.comes ⟨request, w.desk.requesters⟩) (fate q) where
  numbered := by simp [Desk.park, h.numbered]
  given v hv := Nat.lt_succ_of_lt (h.given v hv)
  known q := by
    rw [Fate.isSome_next, Desk.park, List.reverse_cons, h.known_announced request,
      Affair.comes.injEq]
    exact or_congr_right eq_comm
  parked q := by
    rw [Desk.park, List.mem_append, List.mem_singleton]
    by_cases hq : q = ⟨request, w.desk.requesters⟩
    · simp [hq, h.fate_next_number, Fate.next]
    · simp only [Fate.next_eq_waits_of_other (.inl rfl) hq, exists_and_right, ← h.parked]
      simp [hq, Desk.remove]
  apart := by
    rw [Desk.park, List.map_append]
    refine List.nodup_append'.2 ⟨h.apart.sublist (List.filter_sublist.map _), by simp, ?_⟩
    simp [Desk.remove, List.disjoint_singleton]
  alone j k y z hy hz heq := by
    rcases Registry.update_eq_some_iff.1 hy with ⟨hj, hy⟩ | ⟨_, hy⟩ <;>
      rcases Registry.update_eq_some_iff.1 hz with ⟨hk, hz⟩ | ⟨_, hz⟩
    · exact hj.trans hk.symm
    · exact absurd (heq.symm.trans (by rw [← Option.some.inj hy])) (h.entry_ne_next hz request)
    · exact absurd (heq.trans (by rw [← Option.some.inj hz])) (h.entry_ne_next hy request)
    · exact h.alone j k y z hy hz heq
  owned q hq := by
    rcases List.mem_append.1 hq with hq | hq
    · exact h.owned_update (List.mem_filter.1 hq).1 fun x hx => by simp [hi] at hx
    · exact ⟨i, _, Registry.update_eq_some_iff.2 (.inl ⟨rfl, rfl⟩), (List.mem_singleton.1 hq).symm⟩
  listens j y hy := by
    rcases Registry.update_eq_some_iff.1 hy with ⟨_, hnew⟩ | ⟨_, hy⟩
    · exact Option.some.inj hnew ▸ List.mem_cons_self
    · exact List.mem_cons_of_mem _ (h.listens j y hy)
  owes j y hy := by
    rcases Registry.update_eq_some_iff.1 hy with ⟨_, hnew⟩ | ⟨_, hy⟩
    · -- nobody has said anything to a number that is given out just now
      obtain rfl := Option.some.inj hnew
      refine ⟨.waits (w.desk.limit.map (w.clock + ·)), by
        simp [Fate.next, h.fate_next_number], .nothing ?_⟩
      refine List.lookup_eq_none_iff.2 fun v hv => ?_
      exact bne_iff_ne.2 (Nat.ne_of_gt (h.given v hv))
    · exact Desk.Owes.of_other (h.owes j y hy) (.inl rfl) (h.entry_ne_next hy request) rfl

/-! ### A requester leaves -/

/-- **A requester leaves.**  Its own wait is over by then. -/
theorem leaves (h : Accounts w.desk asks fate) (hi : asks i = some x) {affair : Affair}
    (haffair : affair = .looks x.entry ∨ affair = .leaves x.entry)
    (hover : ∀ deadline, Fate.next w x.entry affair (fate x.entry) ≠ some (.waits deadline)) :
    Accounts (w.desk.leave x.entry.requester x.entry.request.id).1 (Registry.update asks i none)
      fun q => Fate.next w q affair (fate q) := by
  have hasks : ∀ {j y}, Registry.update asks i none j = some y → j ≠ i ∧ asks j = some y :=
    fun hy =>
    (Registry.update_eq_some_iff.1 hy).resolve_left fun hnone => by simp at hnone
  have hcomes : ∀ q, affair ≠ .comes q := by rcases haffair with rfl | rfl <;> simp
  exact {
    numbered := h.numbered
    given := fun v hv => h.given v (List.mem_filter.1 hv).1
    known := by
      intro q
      rw [Fate.isSome_next, h.known]
      simp [hcomes q, Desk.leave, Desk.remove]
    parked := by
      intro q
      by_cases hq : q = x.entry
      · subst hq
        refine iff_of_false (fun hmem => Desk.ne_of_mem_leave hmem rfl) ?_
        rintro ⟨deadline, hwaits⟩
        exact hover deadline hwaits
      · simp only [Fate.next_eq_waits_of_other (.inr haffair) hq, exists_and_right, ← h.parked]
        simp [Desk.leave, Desk.remove]
    apart := h.apart.sublist (List.filter_sublist.map _)
    alone := fun j k y z hy hz => h.alone j k y z (hasks hy).2 (hasks hz).2
    owned := by
      intro q hq
      refine h.owned_update (List.mem_filter.1 hq).1 fun y hy => ?_
      obtain rfl : x = y := Option.some.inj (hi.symm.trans hy)
      exact (Desk.ne_of_mem_leave hq).symm
    listens := by
      intro j y hy
      obtain ⟨hj, hy⟩ := hasks hy
      exact List.mem_filter.2 ⟨h.listens j y hy, bne_iff_ne.2 (h.requester_ne hi hy hj)⟩
    owes := by
      intro j y hy
      obtain ⟨hj, hy⟩ := hasks hy
      refine Desk.Owes.of_other (h.owes j y hy) (.inr haffair)
        (fun heq => hj (h.alone j i y x hy hi heq)) ?_
      exact Desk.lookup_filter_of_ne (h.requester_ne hi hy hj) }

end Accounts

/-! ### The user decides -/

namespace Desk

variable {d : Desk} {told : List Parked} {v : Verdict}

/-- The requesters of these entries are told, and the entries go. -/
def tell (told : List Parked) (v : Verdict) (d : Desk) : Desk :=
  { d with
    parked := d.parked.filter fun p => p ∉ told
    verdicts := told.map (fun p => (p.requester, v)) ++ d.verdicts }

theorem lookup_tell_of_mem {p : Parked} (hp : p ∈ told) :
    (d.tell told v).verdicts.lookup p.requester = some v := by
  rw [tell]
  induction told with
  | nil => simp at hp
  | cons q told ih =>
    rw [List.map_cons, List.cons_append, List.lookup_cons]
    by_cases hq : p.requester = q.requester
    · rw [beq_iff_eq.2 hq]
    · have hp : p ∈ told := (List.mem_cons.1 hp).resolve_left fun heq => hq (heq ▸ rfl)
      rw [beq_false_of_ne hq]
      exact ih hp

theorem lookup_tell_of_forall_ne {r : Nat} (hr : ∀ p ∈ told, p.requester ≠ r) :
    (d.tell told v).verdicts.lookup r = d.verdicts.lookup r := by
  have hnone : (told.map fun p => (p.requester, v)).lookup r = none := by
    refine List.lookup_eq_none_iff.2 fun x hx => ?_
    obtain ⟨p, hp, rfl⟩ := List.mem_map.1 hx
    exact bne_iff_ne.2 (Ne.symm (hr p hp))
  rw [tell, List.lookup_append, hnone, Option.none_or]

/-- Verdicts are delivered to those who listen. -/
theorem foldl_deliver_eq {ps : List Parked} {e : Desk}
    (hlisten : ∀ p ∈ ps, p.requester ∈ e.listening) :
    ps.foldl (fun d p => d.deliver p.requester v) e
      = { e with verdicts := ps.reverse.map (fun p => (p.requester, v)) ++ e.verdicts } := by
  induction ps generalizing e with
  | nil => rfl
  | cons p ps ih =>
    have hp : e.deliver p.requester v = { e with verdicts := (p.requester, v) :: e.verdicts } := by
      simp [deliver, hlisten p List.mem_cons_self]
    have hrest := @ih (e.deliver p.requester v) fun q hq => by
      simpa [hp] using hlisten q (List.mem_cons_of_mem p hq)
    rw [List.foldl_cons, hrest, hp]
    simp

end Desk

namespace Accounts

variable {w : World η} {e : Desk} {asks asks' : Nat → Option Wait} {fate : Parked → Option Fate}
    {affair : Affair}

theorem listening_of_parked (h : Accounts w.desk asks fate) {p : Parked} (hp : p ∈ w.desk.parked) :
    p.requester ∈ w.desk.listening := by
  obtain ⟨i, x, hx, rfl⟩ := h.owned p hp
  exact h.listens i x hx

/-- Somebody who waits is told if his own entry is told, and only then. -/
theorem owes_tell (h : Accounts w.desk asks fate) {told : List Parked} {v : Verdict}
    {i : Nat} {x : Wait} (htold : ∀ p ∈ told, p ∈ w.desk.parked) (hx : asks i = some x)
    (hfate : ∀ p ∈ w.desk.parked, ∀ deadline,
      Fate.ofWaiting w.clock p deadline affair = if p ∈ told then .decided v else .waits deadline) :
    ∃ f, Fate.next w x.entry affair (fate x.entry) = some f ∧ (w.desk.tell told v).Owes x f := by
  have hsilent : x.entry ∉ told →
      (w.desk.tell told v).verdicts.lookup x.entry.requester
        = w.desk.verdicts.lookup x.entry.requester := by
    refine fun hmem => Desk.lookup_tell_of_forall_ne fun p hp heq => hmem ?_
    exact h.eq_of_requester (h.isSome_of_parked (htold p hp)) (h.isSome_of_asks hx) heq ▸ hp
  obtain ⟨f, hbefore, howes⟩ := h.owes i x hx
  have hsettled : (∀ l, f ≠ .waits l) → x.entry ∉ told := by
    intro hover hmem
    obtain ⟨l, hwaits⟩ := (h.parked _).1 (htold _ hmem)
    exact hover l (Option.some.inj (hbefore.symm.trans hwaits))
  rw [hbefore]
  cases howes with
  | nothing silent =>
    rw [Fate.next_waits, hfate _ ((h.parked _).2 ⟨_, hbefore⟩)]
    by_cases hmem : x.entry ∈ told
    · exact ⟨.decided v, by rw [if_pos hmem], .verdict v (Desk.lookup_tell_of_mem hmem)⟩
    · exact ⟨.waits x.deadline, by rw [if_neg hmem], .nothing ((hsilent hmem).trans silent)⟩
  | verdict u said =>
    exact ⟨.decided u, rfl, .verdict u ((hsilent (hsettled (by simp))).trans said)⟩
  | word silent => exact ⟨.lost, rfl, .word ((hsilent (hsettled (by simp))).trans silent)⟩

/-- **The user decides** on some of what is parked. -/
theorem tells (h : Accounts w.desk asks fate) {told : List Parked} {v : Verdict}
    (htold : ∀ p ∈ told, p ∈ w.desk.parked) (hcomes : ∀ p, affair ≠ .comes p)
    (hfate : ∀ p ∈ w.desk.parked, ∀ deadline,
      Fate.ofWaiting w.clock p deadline affair = if p ∈ told then .decided v else .waits deadline) :
    Accounts (w.desk.tell told v) asks fun p => Fate.next w p affair (fate p) where
  numbered := h.numbered
  given x hx := by
    rcases List.mem_append.1 hx with hx | hx
    · obtain ⟨p, hp, rfl⟩ := List.mem_map.1 hx
      obtain ⟨hlt, _⟩ :=
        List.getElem?_eq_some_iff.1 ((h.known p).1 (h.isSome_of_parked (htold p hp)))
      rw [List.length_reverse, h.numbered] at hlt
      exact hlt
    · exact h.given x hx
  known p := by
    rw [Fate.isSome_next, h.known]
    simp [hcomes p, Desk.tell]
  parked p := by
    have hparked : p ∈ (w.desk.tell told v).parked ↔ p ∈ w.desk.parked ∧ p ∉ told := by
      simp [Desk.tell]
    rw [hparked]
    by_cases hp : p ∈ w.desk.parked
    · obtain ⟨deadline, hwaits⟩ := (h.parked p).1 hp
      rw [hwaits, Fate.next_waits, hfate p hp]
      by_cases hmem : p ∈ told <;> simp [hp, hmem]
    · refine iff_of_false (fun hboth => hp hboth.1) ?_
      rintro ⟨deadline, hwaits⟩
      exact hp ((h.parked p).2 (Fate.waits_of_next hwaits (hcomes p)))
  apart := h.apart.sublist (List.filter_sublist.map _)
  alone := h.alone
  owned p hp := h.owned p (List.mem_filter.1 hp).1
  listens := h.listens
  owes i x hx := h.owes_tell htold hx hfate

/-- **The user decides on an id.** -/
theorem decides (h : Accounts w.desk asks fate) (id : ApprovalId) (v : Verdict) (n : Notice) :
    Accounts (w.onDesk (Desk.answer id v n)).2.desk asks fun p => Fate.next w p (.decides id v)
      (fate p) := by
  cases hfind : w.desk.find? id with
  | none =>
    have hnobody : ∀ p ∈ w.desk.parked, p.request.id ≠ id := by
      simpa [Desk.find?] using hfind
    have hdesk : (w.onDesk (Desk.answer id v n)).2.desk = w.desk.tell [] v := by
      simp [World.onDesk, Desk.answer, Desk.settle, hfind, Except.map, Desk.tell]
    rw [hdesk]
    refine h.tells (by simp) (by simp) fun p hp deadline => ?_
    simp [Fate.ofWaiting, Affair.isRival, Ne.symm (hnobody p hp)]
  | some p =>
    have hp : p ∈ w.desk.parked := Desk.mem_parked_of_find? hfind
    have hid : p.request.id = id := by simpa using List.find?_some hfind
    have hsame : ∀ q ∈ w.desk.parked, q.request.id = id ↔ q = p := fun q hq =>
      ⟨fun heq => h.eq_of_id hq hp (heq.trans hid.symm), fun heq => heq ▸ hid⟩
    have hdesk : (w.onDesk (Desk.answer id v n)).2.desk = w.desk.tell [p] v := by
      have hlisten := h.listening_of_parked hp
      have hparked : (w.desk.parked.filter fun q => q.request.id != id)
          = w.desk.parked.filter fun q => q ∉ [p] := by
        refine List.filter_congr fun q hq => ?_
        by_cases hq' : q = p
        · simp [hq', hid]
        · simp [hq', mt (hsame q hq).1 hq']
      simp [World.onDesk, Desk.answer, Desk.settle, hfind, Except.map, Desk.tell, Desk.remove,
        Desk.deliver, hlisten,
        hparked, World.noteAll]
    rw [hdesk]
    refine h.tells (by simpa using hp) (by simp) fun q hq deadline => ?_
    by_cases hq' : q = p
    · simp [Fate.ofWaiting, Affair.isRival, hq', hid]
    · have hother : ¬ id = q.request.id := fun heq => hq' ((hsame q hq).1 heq.symm)
      simp [Fate.ofWaiting, Affair.isRival, hq', hother]

/-- **The user rejects everything.** -/
theorem rejectsAll (h : Accounts w.desk asks fate) (reason : String) :
    Accounts (w.desk.rejectAll reason).2.1 asks fun p => Fate.next w p (.rejectsAll reason)
      (fate p) := by
  have hdesk : (w.desk.rejectAll reason).2.1
      = w.desk.tell w.desk.parked.reverse (.rejected reason) := by
    rw [Desk.rejectAll]
    have htold :=
      @Desk.foldl_deliver_eq (.rejected reason) w.desk.parked { w.desk with parked := [] }
      fun p hp => h.listening_of_parked hp
    dsimp only
    rw [htold, Desk.tell]
    simp
  rw [hdesk]
  refine h.tells (fun p hp => List.mem_reverse.1 hp) (by simp) fun p hp deadline => ?_
  simp [Fate.ofWaiting, Affair.isRival, hp]

/-! ### Every act -/

/-- Somebody who looks and goes on waiting changes no fate. -/
theorem next_looks_of_still (h : Accounts w.desk asks fate) {i : Nat} {x : Wait}
    (hx : asks i = some x) (hfound : w.look x.entry.requester x.deadline = none) (p : Parked) :
    Fate.next w p (.looks x.entry) (fate p) = fate p := by
  obtain ⟨hwaits, hlook⟩ | ⟨v, _, hlook⟩ | ⟨_, hlook⟩ := h.look hx w.clock
  · have hstill : ¬ Fate.isOver x.deadline w.clock = true := by
      intro hover
      rw [if_pos hover] at hlook
      simp [World.look, hlook] at hfound
    by_cases hp : p = x.entry
    · rw [hp, hwaits, Fate.next_waits, Fate.ofWaiting_looks, if_neg hstill]
    · cases hother : fate p with
      | none => simp [Fate.next]
      | some f =>
        cases f with
        | waits l =>
          -- another request that waits is parked too, so it has another id
          have hid : x.entry.request.id ≠ p.request.id := fun heq =>
            hp (h.eq_of_id ((h.parked _).2 ⟨l, hother⟩) ((h.parked _).2 ⟨_, hwaits⟩) heq.symm)
          rw [Fate.next_waits, Fate.ofWaiting_of_other (.inr (.inl rfl)) hp, if_neg hid]
        | _ => rfl
  · simp [World.look, hlook] at hfound
  · simp [World.look, hlook] at hfound

/-- Somebody who looks and finds how his wait ends has a request that waits no more. -/
theorem next_looks_of_ends (h : Accounts w.desk asks fate) {i : Nat} {x : Wait}
    {ending : Desk.Ending}
    (hx : asks i = some x) (hfound : w.look x.entry.requester x.deadline = some ending)
    (deadline : Option Nat) :
    Fate.next w x.entry (.looks x.entry) (fate x.entry) ≠ some (.waits deadline) := by
  obtain ⟨hwaits, hlook⟩ | ⟨v, hdecided, _⟩ | ⟨hlost, _⟩ := h.look hx w.clock
  · have hover : Fate.isOver x.deadline w.clock = true := by
      by_contra hstill
      rw [if_neg hstill] at hlook
      simp [World.look, hlook] at hfound
    rw [hwaits, Fate.next_waits, Fate.ofWaiting_looks, if_pos hover]
    simp
  · simp [hdecided, Fate.next]
  · simp [hlost, Fate.next]

/-- Somebody who is given up has a request that waits no more. -/
theorem next_leaves (h : Accounts w.desk asks fate) {i : Nat} {x : Wait} (hx : asks i = some x)
    (deadline : Option Nat) :
    Fate.next w x.entry (.leaves x.entry) (fate x.entry) ≠ some (.waits deadline) := by
  obtain ⟨f, hfate, howes⟩ := h.owes i x hx
  rw [hfate]
  cases howes with
  | nothing silent => simp [Fate.next_waits, Fate.ofWaiting_leaves]
  | verdict v said => simp [Fate.next]
  | word silent => simp [Fate.next]

/-- **The books are right behind every act.** -/
theorem deals (h : Accounts w.desk asks fate) (hdeals : Deals w asks affair e asks') :
    Accounts e asks' fun p => Fate.next w p affair (fate p) := by
  cases hdeals with
  | nothing => exact h.congr fun p => Fate.next_nothing
  | comes request before => exact h.comes before request
  | waits before found => exact h.congr (h.next_looks_of_still before found)
  | ends before found => exact h.leaves before (.inl rfl) (h.next_looks_of_ends before found)
  | leaves before => exact h.leaves before (.inr rfl) (h.next_leaves before)
  | decides id v n => exact h.decides id v n
  | rejectsAll reason => exact h.rejectsAll reason

end Accounts

/-- **All histories.**  At a desk nobody had used the books are right. -/
theorem Crew.accounts {w : World η} {limit : Option Nat} (hdesk : w.desk = Desk.empty limit)
    (past : List (Act η α)) :
    Accounts ((ofWorld w).after past).world.desk ((ofWorld w).after past).asks
      fun p => (ofWorld w : Crew η α).fate p past := by
  induction past with
  | nil =>
    have hstart : (ofWorld w : Crew η α).world.desk = Desk.empty limit := hdesk
    rw [after_nil, hstart]
    exact .start limit
  | cons a past ih => exact ih.deals (deals_perform _ a)

end WalletGate
