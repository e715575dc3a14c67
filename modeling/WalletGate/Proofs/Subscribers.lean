import Mathlib.Data.List.Forall2
import Mathlib.Data.List.ReduceOption
import WalletGate.Proofs.Decision

/-!
# What a subscriber sees

Every request that is parked is announced, whatever becomes of it, and a subscriber reads
the announcements made since it came, one after another and whenever it likes.  The desk
keeps the last sixty-four.  A subscriber that is behind by more than that is told how many
it missed, and goes on with the oldest that is kept.

So it passes every request parked since it came, each once and in the order in which they
were parked, and of each it either gets it or is told that it missed one
(`Subscriber.Faithful`).  It gets them all if it never lets more than sixty-four pile up
before it reads, and only then.

* `Crew.announced_after` — what was announced in a history is what was parked in it;
* `Subscriber.Faithful.read` — one reading;
* `Crew.faithful_subscriber` — all readings, with anything happening in between;
* `Crew.subscriber_sees_iff` — what is delivered to a subscriber, and when nothing is missed.
-/

namespace WalletGate

variable {η α : Type}

/-! ### What is announced -/

namespace Desk

@[simp] theorem announced_deliver (requester : Nat) (verdict : Verdict) (d : Desk) :
    (d.deliver requester verdict).announced = d.announced := by
  unfold deliver
  split <;> rfl

/-- Who decides on an id announces nothing. -/
theorem announced_settle {id : ApprovalId} {verdict : Verdict} {d e : Desk} {ns : List Notice}
    (h : d.settle id verdict = .ok (e, ns)) : e.announced = d.announced := by
  unfold settle at h
  split at h
  · cases h
  · dsimp only at h
    split at h
    · cases h
      exact announced_deliver _ _ _
    · cases h
      rfl

/-- Nor does who rejects everything. -/
theorem announced_rejectAll (reason : String) (d : Desk) :
    (d.rejectAll reason).2.1.announced = d.announced := by
  have hall : ∀ (ps : List Parked) (e : Desk),
      (ps.foldl (fun d p => d.deliver p.requester (.rejected reason)) e).announced
        = e.announced := by
    intro ps
    induction ps with
    | nil => exact fun _ => rfl
    | cons p ps ih =>
      intro e
      rw [List.foldl_cons, ih, announced_deliver]
  exact hall d.parked { d with parked := [] }

end Desk

/-- The request that is parked, if one is. -/
def Affair.request? : Affair → Option ApprovalRequest
  | comes p => some p.request
  | _ => none

/-- **An act announces the request that is parked with it**, and nothing else. -/
theorem Deals.announced_eq {w : World η} {asks asks' : Nat → Option Wait}
    {affair : Affair} {d : Desk} (h : Deals w asks affair d asks') :
    d.announced = affair.request?.toList ++ w.desk.announced := by
  cases h with
  | nothing => rfl
  | comes request before => rfl
  | waits before found => rfl
  | ends before found => rfl
  | leaves before => rfl
  | decides id verdict n =>
    change (w.onDesk (Desk.answer id verdict n)).2.desk.announced = w.desk.announced
    unfold World.onDesk Desk.answer
    cases hsettle : w.desk.settle id verdict with
    | error fault => rfl
    | ok x => exact Desk.announced_settle hsettle
  | rejectsAll reason => exact Desk.announced_rejectAll reason w.desk

namespace Crew

/-- The requests that are parked in a history, latest first. -/
def parkings (c : Crew η α) : List (Act η α) → List ApprovalRequest
  | [] => []
  | a :: past => ((c.after past).affair a).request?.toList ++ c.parkings past

/-- **What was announced in a history is what was parked in it.** -/
theorem announced_after (c : Crew η α) (past : List (Act η α)) :
    (c.after past).world.desk.announced = c.parkings past ++ c.world.desk.announced := by
  induction past with
  | nil => rfl
  | cons a past ih =>
    rw [after_cons, (deals_perform (c.after past) a).announced_eq, ih, parkings, List.append_assoc]

end Crew

/-! ### One subscriber -/

namespace Desk.Delivery

/-- The request that is delivered, if it is one. -/
def request? : Delivery → Option ApprovalRequest
  | request r => some r
  | _ => none

/-- The announcements that are passed with it: the one that is delivered, or those that were
missed. -/
def passed : Delivery → List (Option ApprovalRequest)
  | request r => [some r]
  | nothing => []
  | lagged missed => List.replicate missed none

end Desk.Delivery

/-- A subscriber: the number of the announcement it reads next, and what it got so far,
latest first. -/
structure Subscriber where
  next : Nat
  got : List Desk.Delivery

namespace Subscriber

/-- Somebody subscribes: what was announced before is not for him. -/
def ofDesk (d : Desk) : Subscriber := ⟨d.announced.length, []⟩

/-- It reads once. -/
def read (d : Desk) (s : Subscriber) : Subscriber :=
  ⟨(d.receive s.next).2, (d.receive s.next).1 :: s.got⟩

/-- How many announcements it has not read. -/
def unread (d : Desk) (s : Subscriber) : Nat := d.announced.length - s.next

/-- The requests that were delivered to it, earliest first. -/
def delivered (s : Subscriber) : List ApprovalRequest :=
  s.got.reverse.filterMap Desk.Delivery.request?

/-- The announcements it has passed, earliest first, those that it missed without their
request. -/
def passed (s : Subscriber) : List (Option ApprovalRequest) :=
  s.got.reverse.flatMap Desk.Delivery.passed

/-- It gets what it passes and does not miss. -/
theorem delivered_eq (s : Subscriber) : s.delivered = s.passed.reduceOption := by
  rw [delivered, passed, List.reduceOption]
  induction s.got.reverse with
  | nil => rfl
  | cons d ds ih =>
    rw [List.flatMap_cons, List.filterMap_append, ← ih]
    cases d <;> simp [List.filterMap_cons, Desk.Delivery.request?, Desk.Delivery.passed]

@[simp] theorem passed_read (d : Desk) (s : Subscriber) :
    (s.read d).passed = s.passed ++ (d.receive s.next).1.passed := by
  simp [passed, read]

/-- This is passed where this was announced: the request, or it was missed. -/
def Shows (o : Option ApprovalRequest) (r : ApprovalRequest) : Prop := o = none ∨ o = some r

/-- A subscriber has passed the requests parked since it came, one after another; so many
were announced before. -/
structure Faithful (s : Subscriber) (before : Nat) (parked : List ApprovalRequest) : Prop where
  next : s.next = before + s.passed.length
  bounded : s.passed.length ≤ parked.length
  shows : List.Forall₂ Shows s.passed (parked.take s.passed.length)

variable {s : Subscriber} {d : Desk} {before : Nat} {old parked : List ApprovalRequest}

/-- Whoever has just come has passed nothing. -/
theorem faithful_ofDesk (d : Desk) : (ofDesk d).Faithful d.announced.length [] :=
  ⟨rfl, Nat.le_refl _, .nil⟩

/-- More may be parked behind what was passed. -/
theorem Faithful.append (h : s.Faithful before parked) (more : List ApprovalRequest) :
    s.Faithful before (parked ++ more) where
  next := h.next
  bounded := Nat.le_trans h.bounded (by simp)
  shows := by
    rw [List.take_append_of_le_length h.bounded]
    exact h.shows

/-- The announcement that a subscriber reads next is that of the request behind those it has
passed. -/
theorem Faithful.announced_next (h : s.Faithful old.length parked)
    (hd : d.announced = parked.reverse ++ old) :
    d.announced.reverse[s.next]? = parked[s.passed.length]? := by
  rw [hd, List.reverse_append, List.reverse_reverse, h.next, List.getElem?_append_right (by simp)]
  simp

/-- Any requests may have been missed. -/
theorem shows_replicate_none (rs : List ApprovalRequest) :
    List.Forall₂ Shows (List.replicate rs.length none) rs := by
  induction rs with
  | nil => exact .nil
  | cons r rs ih => exact .cons (.inl rfl) ih

/-- More is passed, and what is passed shows the requests that come next. -/
theorem Faithful.onward (h : s.Faithful before parked) {s' : Subscriber}
    {more : List (Option ApprovalRequest)}
    (hpassed : s'.passed = s.passed ++ more) (hnext : s'.next = s.next + more.length)
    (hshows : List.Forall₂ Shows more ((parked.drop s.passed.length).take more.length)) :
    s'.Faithful before parked where
  next := by
    rw [hnext, h.next, hpassed, List.length_append, Nat.add_assoc]
  bounded := by
    have hbounded := h.bounded
    have hmore := hshows.length_eq
    rw [List.length_take, List.length_drop] at hmore
    rw [hpassed, List.length_append]
    omega
  shows := by
    rw [hpassed, List.length_append, List.take_add]
    exact List.rel_append h.shows hshows

/-- **One reading.** -/
theorem Faithful.read (h : s.Faithful old.length parked)
    (hd : d.announced = parked.reverse ++ old) :
    (s.read d).Faithful old.length parked := by
  have hannounced := h.announced_next hd
  by_cases hlag : s.next + Desk.capacity < d.announced.length
  · -- the missed ones are those up to the oldest that is kept
    have hreceive : d.receive s.next =
        (.lagged (d.announced.length - Desk.capacity - s.next), d.announced.length
          - Desk.capacity) := if_pos hlag
    generalize hmissed : d.announced.length - Desk.capacity - s.next = missed at hreceive
    have hpassed : (s.read d).passed = s.passed ++ List.replicate missed none := by
      rw [passed_read, hreceive]
      rfl
    refine h.onward hpassed ?_ ?_
    · rw [Subscriber.read, hreceive, List.length_replicate]
      dsimp only
      omega
    · have htotal : d.announced.length = old.length + parked.length := by
        rw [hd, List.length_append, List.length_reverse, Nat.add_comm]
      have hnext := h.next
      have hlength : ((parked.drop s.passed.length).take missed).length = missed := by
        rw [List.length_take, List.length_drop]
        omega
      have hnone := shows_replicate_none ((parked.drop s.passed.length).take missed)
      rw [hlength] at hnone
      rwa [List.length_replicate]
  · cases hr : parked[s.passed.length]? with
    | none =>
      have hreceive : d.receive s.next = (.nothing, s.next) := by
        rw [Desk.receive, if_neg hlag, hannounced, hr]
      have hpassed : (s.read d).passed = s.passed ++ [] := by
        rw [passed_read, hreceive]
        rfl
      refine h.onward hpassed ?_ .nil
      rw [Subscriber.read, hreceive]
      rfl
    | some r =>
      have hreceive : d.receive s.next = (.request r, s.next + 1) := by
        rw [Desk.receive, if_neg hlag, hannounced, hr]
      have hpassed : (s.read d).passed = s.passed ++ [some r] := by
        rw [passed_read, hreceive]
        rfl
      refine h.onward hpassed ?_ ?_
      · rw [Subscriber.read, hreceive]
        rfl
      · rw [List.length_singleton, List.take_one, List.head?_drop, hr]
        exact .cons (.inr rfl) .nil

/-- Something is missed with a reading, if more is unread than the desk keeps. -/
theorem none_mem_passed_receive_iff {next : Nat} :
    none ∈ (d.receive next).1.passed ↔ next + Desk.capacity < d.announced.length := by
  unfold Desk.receive
  dsimp only
  split
  · next hlag =>
    rw [Desk.Delivery.passed, List.mem_replicate, and_iff_left rfl]
    omega
  · next hfits =>
    split <;> simp [Desk.Delivery.passed, hfits]

/-- A subscriber that finds nothing has passed all that was parked. -/
theorem Faithful.length_eq (h : s.Faithful old.length parked)
    (hd : d.announced = parked.reverse ++ old)
    (hnothing : (d.receive s.next).1 = .nothing) : s.passed.length = parked.length := by
  rw [Desk.receive] at hnothing
  split at hnothing
  · cases hnothing
  · split at hnothing
    · cases hnothing
    · next hnone =>
      rw [h.announced_next hd, List.getElem?_eq_none_iff] at hnone
      exact Nat.le_antisymm h.bounded hnone

/-- What is delivered are some of the requests that were parked, in their order. -/
theorem Faithful.sublist (h : s.Faithful before parked) : s.delivered.Sublist parked := by
  have hall : ∀ (os : List (Option ApprovalRequest)) (rs : List ApprovalRequest),
    List.Forall₂ Shows os rs →
      os.reduceOption.Sublist rs := by
    intro os rs hshows
    induction hshows with
    | nil => exact .slnil
    | @cons o r os rs ho _ ih =>
      rcases ho with rfl | rfl
      · rw [List.reduceOption_cons_of_none]
        exact ih.cons r
      · rw [List.reduceOption_cons_of_some]
        exact ih.cons_cons r
  rw [delivered_eq]
  exact (hall _ _ h.shows).trans (List.take_sublist _ _)

/-- **Who missed nothing got everything it passed.** -/
theorem Faithful.delivered_eq_iff (h : s.Faithful before parked)
    (hall : s.passed.length = parked.length) :
    s.delivered = parked ↔ none ∉ s.passed := by
  have hlength := h.sublist.length_le
  constructor
  · intro heq hnone
    have hless : s.delivered.length < s.passed.length := by
      rw [delivered_eq]
      exact List.reduceOption_length_lt_iff.2 hnone
    rw [heq] at hless
    omega
  · intro hnone
    refine h.sublist.eq_of_length ?_
    rw [← hall, delivered_eq, List.reduceOption_length_eq_iff]
    intro o ho
    cases o with
    | none => exact absurd ho hnone
    | some r => rfl

end Subscriber

/-! ### A subscriber and everybody else -/

/-- What happens while somebody is subscribed: an act, or the subscriber reads. -/
inductive Scene (η α : Type) : Type 1 where
  | act (a : Act η α)
  | read

/-- The act that happens, if one does. -/
def Scene.act? : Scene η α → Option (Act η α)
  | act a => some a
  | read => none

namespace Crew

/-- The history that somebody sees who is subscribed. -/
def acts (run : List (Scene η α)) : List (Act η α) := run.filterMap Scene.act?

/-- Somebody who subscribed to the desk of this crew, behind a run; the run is a list with
the latest first. -/
def subscriber (c : Crew η α) : List (Scene η α) → Subscriber
  | [] => .ofDesk c.world.desk
  | .act _ :: past => c.subscriber past
  | .read :: past => (c.subscriber past).read (c.after (acts past)).world.desk

/-- The requests parked since somebody subscribed, earliest first. -/
def parkedSince (c : Crew η α) (run : List (Scene η α)) : List ApprovalRequest :=
  (c.parkings (acts run)).reverse

/-- How many announcements a subscriber has not read behind a run. -/
def unread (c : Crew η α) (run : List (Scene η α)) : Nat :=
  (c.subscriber run).unread (c.after (acts run)).world.desk

/-- What is announced behind a run. -/
theorem announced_run (c : Crew η α) (run : List (Scene η α)) :
    (c.after (acts run)).world.desk.announced = (c.parkedSince run).reverse
      ++ c.world.desk.announced := by
  rw [c.announced_after, parkedSince, List.reverse_reverse]

/-- **All runs.**  A subscriber passes what was parked since it came. -/
theorem faithful_subscriber (c : Crew η α) (run : List (Scene η α)) :
    (c.subscriber run).Faithful c.world.desk.announced.length (c.parkedSince run) := by
  induction run with
  | nil => exact Subscriber.faithful_ofDesk c.world.desk
  | cons scene past ih =>
    cases scene with
    | act a =>
      have hparked : c.parkedSince (.act a :: past) =
          c.parkedSince past ++ ((c.after (acts past)).affair a).request?.toList.reverse := by
        rw [parkedSince, parkedSince, ← List.reverse_append]
        rfl
      rw [hparked]
      exact ih.append _
    | read => exact ih.read (c.announced_run past)

/-- Whoever missed something has let too much pile up before it read. -/
theorem none_mem_passed_iff (c : Crew η α) (run : List (Scene η α)) :
    none ∈ (c.subscriber run).passed ↔
      ∃ later past, run = later ++ .read :: past ∧ Desk.capacity < c.unread past := by
  induction run with
  | nil => simp [subscriber, Subscriber.ofDesk, Subscriber.passed]
  | cons scene past ih =>
    have hearlier :
      (∃ later earlier, past = later ++ .read :: earlier ∧ Desk.capacity < c.unread earlier) →
        ∃ later earlier, scene :: past = later ++ .read :: earlier ∧
        Desk.capacity < c.unread earlier := by
      rintro ⟨later, earlier, rfl, hunread⟩
      exact ⟨scene :: later, earlier, rfl, hunread⟩
    cases scene with
    | act a =>
      refine ih.trans ⟨hearlier, ?_⟩
      rintro ⟨later, earlier, heq, hunread⟩
      cases later with
      | nil => cases heq
      | cons scene later => exact ⟨later, earlier, (List.cons.inj heq).2, hunread⟩
    | read =>
      have hlag :
        none ∈ ((c.after (acts past)).world.desk.receive (c.subscriber past).next).1.passed ↔
          Desk.capacity < c.unread past := by
        rw [Subscriber.none_mem_passed_receive_iff, unread, Subscriber.unread]
        omega
      rw [subscriber, Subscriber.passed_read, List.mem_append, ih, hlag]
      constructor
      · rintro (hmissed | hunread)
        · exact hearlier hmissed
        · exact ⟨[], past, rfl, hunread⟩
      · rintro ⟨later, earlier, heq, hunread⟩
        cases later with
        | nil => exact .inr ((List.cons.inj heq).2 ▸ hunread)
        | cons scene later => exact .inl ⟨later, earlier, (List.cons.inj heq).2, hunread⟩

/-- **What a subscriber sees.**  Whatever happens while somebody is subscribed, and whenever
it reads: what it gets are requests parked since it came, each once and in the order in
which they were parked; and it passes all of them one after another, each of them shown or
missed.  When it has read to the end, it got all of them exactly if it never let more pile
up before it read than the desk keeps. -/
theorem subscriber_sees_iff (c : Crew η α) (run : List (Scene η α)) :
    (c.subscriber run).delivered.Sublist (c.parkedSince run) ∧
    List.Forall₂ Subscriber.Shows (c.subscriber run).passed
      ((c.parkedSince run).take (c.subscriber run).passed.length) ∧
    (((c.after (acts run)).world.desk.receive (c.subscriber run).next).1 = .nothing →
      (c.subscriber run).passed.length = (c.parkedSince run).length ∧
      ((c.subscriber run).delivered = c.parkedSince run ↔
        ∀ later past, run = later ++ .read :: past → c.unread past ≤ Desk.capacity)) := by
  have hfaithful := c.faithful_subscriber run
  refine ⟨hfaithful.sublist, hfaithful.shows, fun hend => ?_⟩
  have hall := hfaithful.length_eq (c.announced_run run) hend
  refine ⟨hall, ?_⟩
  rw [hfaithful.delivered_eq_iff hall, c.none_mem_passed_iff]
  simp only [not_exists, not_and, Nat.not_lt]

/-- So many sites ask, one after another, each with an id of its own. -/
def parade : Nat → List (Scene Unit (Except Fault Unit))
  | 0 => []
  | n + 1 =>
    .act (.go n) :: .act (.spawn "asker" (asker (siteRequest n "https://a.example"))) :: parade n

/-- Two sites ask; the subscriber reads, the user accepts both requests, and the subscriber
reads again. -/
def lateGlance : List (Scene Unit (Except Fault Unit)) :=
  .read :: .act (.outside (.accept (.fresh 1))) :: .act (.outside (.accept (.fresh 0)))
    :: .read :: parade 2

/-- It gets both requests, the one that is decided as well as the other. -/
theorem subscriber_sees_lateGlance :
    ((ofWorld (.start ())).subscriber lateGlance).delivered =
      [siteRequest 0 "https://a.example", siteRequest 1 "https://a.example"] := by
  obtain ⟨_, _, hend⟩ :=
    (ofWorld (.start ()) : Crew Unit (Except Fault Unit)).subscriber_sees_iff lateGlance
  refine (hend rfl).2.2 fun later past heq => ?_
  -- what is read is read at one of the two places
  obtain _ | ⟨_, _ | ⟨_, _ | ⟨_, _ | ⟨_, later⟩⟩⟩⟩ := later
  · obtain rfl := (List.cons.inj heq).2
    decide
  · cases heq
  · cases heq
  · obtain ⟨-, -, -, rfl⟩ : _ ∧ _ ∧ _ ∧ parade 2 = past := by simpa [lateGlance] using heq
    decide
  · obtain ⟨-, -, -, -, htail⟩ : _ ∧ _ ∧ _ ∧ _ ∧ parade 2 = later ++ .read :: past := by
      simpa [lateGlance] using heq
    have hread : Scene.read ∈ parade 2 := by
      rw [htail]
      simp
    simp [parade] at hread

/-- Sixty-five sites ask before the subscriber reads, and then it reads to the end. -/
def lateReader : List (Scene Unit (Except Fault Unit)) :=
  List.replicate 65 .read ++ parade 65

/-- **A subscriber may miss a request.**  It is told that it missed one, gets the other
sixty-four, and there is nothing more to read; the first request it never gets. -/
theorem oldest_request_missed :
    ((ofWorld (.start ())).subscriber lateReader).got.getLast? = some (.lagged 1) ∧
    (((ofWorld (.start ())).after (acts lateReader)).world.desk.receive
      ((ofWorld (.start ())).subscriber lateReader).next).1 = .nothing ∧
    (ofWorld (.start ())).parkedSince lateReader =
      siteRequest 0 "https://a.example" :: ((ofWorld (.start ())).subscriber lateReader).delivered ∧
    ((ofWorld (.start ())).subscriber lateReader).delivered
      ≠ (ofWorld (.start ())).parkedSince lateReader := by
  decide +kernel

end Crew

end WalletGate
