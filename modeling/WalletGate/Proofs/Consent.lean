import WalletGate.Proofs.Schedule

/-!
# Consent: where an acceptance comes from

A requester that is told yes was told so by the user, and about the very request it had
parked.  Requester numbers are never used twice (`Desk.Sound`), so the entry a requester
waits on holds its own request and no other; and a verdict that says yes is written only
when the user accepts the entry.

* `Desk.Awaits` — what a requester that waits may count on, `yes` standing for the user's
  acceptance;
* `World.Becomes.awaits`, `Outside.awaits` — nothing that happens takes it away;
* `World.accepted_of_conclude` — a wait that ends well ends with a verdict that says yes.
-/

namespace WalletGate

variable {η : Type}

namespace Desk

/-- Every requester number on the desk was given out. -/
structure Sound (d : Desk) : Prop where
  parked : ∀ p ∈ d.parked, p.requester < d.requesters
  verdicts : ∀ v ∈ d.verdicts, v.1 < d.requesters

/-- A requester waits for the decision on a request; a verdict that says yes needs `yes`. -/
structure Awaits (d : Desk) (requester : Nat) (request : ApprovalRequest) (yes : Prop) : Prop where
  given : requester < d.requesters
  parked : ∀ p ∈ d.parked, p.requester = requester → p.request = request
  accepted : (requester, .accepted) ∈ d.verdicts → yes

/-- A desk with less on it. -/
structure Less (e d : Desk) : Prop where
  requesters : e.requesters = d.requesters
  parked : ∀ p ∈ e.parked, p ∈ d.parked
  verdicts : ∀ v ∈ e.verdicts, v ∈ d.verdicts

theorem sound_empty (limit : Option Nat) : (empty limit).Sound where
  parked := by simp [empty]
  verdicts := by simp [empty]

variable {d e : Desk} {requester : Nat} {request : ApprovalRequest} {yes : Prop}

theorem Sound.less (h : d.Sound) (hless : e.Less d) : e.Sound where
  parked p hp := hless.requesters ▸ h.parked p (hless.parked p hp)
  verdicts v hv := hless.requesters ▸ h.verdicts v (hless.verdicts v hv)

theorem Awaits.less (h : d.Awaits requester request yes) (hless : e.Less d) :
    e.Awaits requester request yes where
  given := hless.requesters ▸ h.given
  parked p hp := h.parked p (hless.parked p hp)
  accepted hv := h.accepted (hless.verdicts _ hv)

/-- What holds under one condition holds under a weaker one. -/
theorem Awaits.imp (h : d.Awaits requester request yes) {more : Prop} (himp : yes → more) :
    d.Awaits requester request more where
  given := h.given
  parked := h.parked
  accepted hv := himp (h.accepted hv)

theorem less_remove (id : ApprovalId) (d : Desk) : (d.remove id).Less d where
  requesters := rfl
  parked _ hp := (List.mem_filter.1 hp).1
  verdicts _ hv := hv

theorem less_leave (requester : Nat) (id : ApprovalId) (d : Desk) :
    (d.leave requester id).1.Less d where
  requesters := rfl
  parked _ hp := (List.mem_filter.1 hp).1
  verdicts _ hv := (List.mem_filter.1 hv).1

/-- What is found under an id is parked. -/
theorem mem_parked_of_find? {id : ApprovalId} {p : Parked} (h : d.find? id = some p) :
    p ∈ d.parked :=
  List.mem_of_find?_eq_some h

/-! ### Parking -/

theorem Sound.park (h : d.Sound) (request : ApprovalRequest) : (d.park request).2.1.Sound where
  parked p hp := by
    rcases List.mem_append.1 hp with hp | hp
    · exact Nat.lt_succ_of_lt (h.parked p ((less_remove request.id d).parked p hp))
    · obtain rfl := List.mem_singleton.1 hp
      exact Nat.lt_succ_self d.requesters
  verdicts v hv := Nat.lt_succ_of_lt (h.verdicts v hv)

/-- Others may park requests. -/
theorem Awaits.park (h : d.Awaits requester request yes) (other : ApprovalRequest) :
    (d.park other).2.1.Awaits requester request yes where
  given := Nat.lt_succ_of_lt h.given
  parked p hp hreq := by
    rcases List.mem_append.1 hp with hp | hp
    · exact h.parked p ((less_remove other.id d).parked p hp) hreq
    · obtain rfl := List.mem_singleton.1 hp
      exact absurd hreq (Nat.ne_of_gt h.given)
  accepted := h.accepted

/-- **A wait begins.**  The requester's number is new, so nobody has said anything to it. -/
theorem Sound.awaits_park (h : d.Sound) (request : ApprovalRequest) :
    (d.park request).2.1.Awaits (d.park request).1 request False where
  given := Nat.lt_succ_self d.requesters
  parked p hp hreq := by
    rcases List.mem_append.1 hp with hp | hp
    · have hlt := h.parked p ((less_remove request.id d).parked p hp)
      exact absurd hreq (Nat.ne_of_lt hlt)
    · obtain rfl := List.mem_singleton.1 hp
      rfl
  accepted hv := Nat.lt_irrefl d.requesters (h.verdicts _ hv)

/-! ### Deciding -/

theorem Sound.deliver (h : d.Sound) {requester : Nat} (hr : requester < d.requesters)
    (v : Verdict) :
    (d.deliver requester v).Sound := by
  unfold Desk.deliver
  split
  · exact {
      parked := h.parked
      verdicts := by
        intro x hx
        rcases List.mem_cons.1 hx with rfl | hx
        · exact hr
        · exact h.verdicts x hx }
  · exact h

/-- A verdict is delivered: one that says yes to this requester needs `yes`. -/
theorem Awaits.deliver (h : d.Awaits requester request yes) (other : Nat) (v : Verdict)
    (hyes : other = requester → v = .accepted → yes) :
    (d.deliver other v).Awaits requester request yes := by
  unfold Desk.deliver
  split
  · exact {
      given := h.given
      parked := h.parked
      accepted := by
        intro hv
        rcases List.mem_cons.1 hv with heq | hv
        · obtain ⟨hto, hv⟩ := Prod.mk.inj heq
          exact hyes hto.symm hv.symm
        · exact h.accepted hv }
  · exact h

theorem Sound.settle {id : ApprovalId} {v : Verdict} {e : Desk} {ns : List Notice} (h : d.Sound)
    (hsettle : d.settle id v = .ok (e, ns)) : e.Sound := by
  unfold Desk.settle at hsettle
  split at hsettle
  · simp at hsettle
  · next p hfind =>
    have hremove := h.less (less_remove id d)
    dsimp only at hsettle
    split at hsettle
    · obtain ⟨rfl, _⟩ := Prod.mk.inj (Except.ok.inj hsettle)
      exact hremove.deliver (h.parked p (mem_parked_of_find? hfind)) v
    · obtain ⟨rfl, _⟩ := Prod.mk.inj (Except.ok.inj hsettle)
      exact hremove

/-- A decision is made on the entry parked under an id: a yes is a yes to the request parked
there. -/
theorem Awaits.settle {id : ApprovalId} {v : Verdict} {e : Desk} {ns : List Notice}
    (h : d.Awaits requester request yes) (hsettle : d.settle id v = .ok (e, ns))
    (hyes : v = .accepted → d.find? id = some ⟨request, requester⟩ → yes) :
    e.Awaits requester request yes := by
  unfold Desk.settle at hsettle
  split at hsettle
  · simp at hsettle
  · next p hfind =>
    have hremove := h.less (less_remove id d)
    dsimp only at hsettle
    split at hsettle
    · obtain ⟨rfl, _⟩ := Prod.mk.inj (Except.ok.inj hsettle)
      refine hremove.deliver p.requester v fun hto hv => hyes hv ?_
      have hrequest := h.parked p (mem_parked_of_find? hfind) hto
      rw [hfind, ← hrequest, ← hto]
    · obtain ⟨rfl, _⟩ := Prod.mk.inj (Except.ok.inj hsettle)
      exact hremove

/-- A verdict is delivered to one requester after another. -/
private theorem foldl_deliver {P : Desk → Prop} {v : Verdict} {ps : List Parked}
    (hstep : ∀ e, ∀ p ∈ ps, P e → P (e.deliver p.requester v)) {e : Desk} (h : P e) :
    P (ps.foldl (fun d p => d.deliver p.requester v) e) := by
  induction ps generalizing e with
  | nil => exact h
  | cons p ps ih =>
    exact ih (fun e q hq => hstep e q (List.mem_cons_of_mem p hq)) (hstep e p List.mem_cons_self h)

@[simp] theorem requesters_deliver (n : Nat) (v : Verdict) (d : Desk) :
    (d.deliver n v).requesters = d.requesters := by
  unfold Desk.deliver
  split <;> rfl

/-- A desk from which every entry was taken. -/
theorem less_cleared (d : Desk) : ({ d with parked := [] } : Desk).Less d where
  requesters := rfl
  parked := by simp
  verdicts _ hv := hv

theorem Sound.rejectAll (h : d.Sound) (reason : String) : (d.rejectAll reason).2.1.Sound := by
  have hstep : ∀ e : Desk, ∀ p ∈ d.parked, (e.Sound ∧ e.requesters = d.requesters) →
      (e.deliver p.requester (.rejected reason)).Sound ∧
        (e.deliver p.requester (.rejected reason)).requesters = d.requesters := by
    intro e p hp he
    exact ⟨he.1.deliver (he.2 ▸ h.parked p hp) _, (requesters_deliver _ _ e).trans he.2⟩
  exact (foldl_deliver (P := fun e => e.Sound ∧ e.requesters = d.requesters) hstep
    ⟨h.less d.less_cleared, rfl⟩).1

theorem Awaits.rejectAll (h : d.Awaits requester request yes) (reason : String) :
    (d.rejectAll reason).2.1.Awaits requester request yes := by
  have hstep : ∀ e : Desk, ∀ p ∈ d.parked, e.Awaits requester request yes →
      (e.deliver p.requester (.rejected reason)).Awaits requester request yes := by
    intro e p _ he
    exact he.deliver p.requester (.rejected reason) fun _ hv => by simp at hv
  exact foldl_deliver (P := fun e => e.Awaits requester request yes) hstep (h.less d.less_cleared)

/-- Accepting is settling. -/
theorem settle_of_accept {id : ApprovalId} {e : Desk} {ns : List Notice}
    (h : d.accept id = .ok (e, ns)) :
    ∃ ns', d.settle id .accepted = .ok (e, ns') := by
  unfold Desk.accept at h
  cases hs : d.settle id .accepted with
  | error fault => simp [hs, Except.map] at h
  | ok x =>
    obtain ⟨e', ns'⟩ := x
    simp only [hs, Except.map, Except.ok.injEq, Prod.mk.injEq] at h
    exact ⟨ns', by rw [h.1]⟩

/-- Rejecting is settling. -/
theorem settle_of_reject {id : ApprovalId} {reason : String} {e : Desk} {ns : List Notice}
    (h : d.reject id reason = .ok (e, ns)) :
    ∃ ns', d.settle id (.rejected reason) = .ok (e, ns') := by
  unfold Desk.reject at h
  cases hs : d.settle id (.rejected reason) with
  | error fault => simp [hs, Except.map] at h
  | ok x =>
    obtain ⟨e', ns'⟩ := x
    simp only [hs, Except.map, Except.ok.injEq, Prod.mk.injEq] at h
    exact ⟨ns', by rw [h.1]⟩

end Desk

/-! ### The desk in the world -/

namespace World

@[simp] theorem desk_note (n : Notice) (w : World η) : (w.note n).desk = w.desk := rfl

/-- What is done with the registry leaves the desk alone. -/
@[simp] theorem desk_onRegistry (act : Registry → Except Fault (Registry × Notice)) (w : World η) :
    (w.onRegistry act).2.desk = w.desk := by
  unfold onRegistry
  split <;> rfl

@[simp] theorem desk_answer {β : Type} (c : Call β) (w : World η) :
    (c.answer w).2.desk = w.desk := by
  cases c <;> simp [Call.answer, draft]

/-- What cannot be done at the desk changes nothing. -/
theorem desk_onDesk (act : Desk → Except Fault (Desk × List Notice)) (w : World η) :
    (w.onDesk act).2.desk = w.desk ∨
      ∃ d ns, act w.desk = .ok (d, ns) ∧ (w.onDesk act).2.desk = d := by
  unfold onDesk
  split
  · next d ns h => exact .inr ⟨d, ns, h, rfl⟩
  · exact .inl rfl

/-- What a task does to the desk: nothing, or it parks a request, or it takes something away. -/
theorem Becomes.desk_cases {w v : World η} (h : w.Becomes v) :
    (∃ request, v.desk = (w.desk.park request).2.1) ∨ v.desk.Less w.desk := by
  have same : ∀ d : Desk, d.Less d := fun d => ⟨rfl, fun _ hp => hp, fun _ hv => hv⟩
  cases h with
  | same => exact .inr (same _)
  | called c => exact .inr (by rw [desk_answer]; exact same _)
  | hosted host => exact .inr (same _)
  | parked request => exact .inl ⟨request, rfl⟩
  | concluded requester request ending => exact .inr (Desk.less_leave requester request.id w.desk)
  | left requester id => exact .inr (Desk.less_leave requester id w.desk)
  | entered queue => exact .inr (same _)
  | wentOn queue place => exact .inr (same _)
  | released queue => exact .inr (same _)
  | abandoned queue place => exact .inr (same _)

theorem Becomes.sound {w v : World η} (h : w.Becomes v) (hd : w.desk.Sound) : v.desk.Sound := by
  rcases h.desk_cases with ⟨request, hv⟩ | hless
  · exact hv ▸ hd.park request
  · exact hd.less hless

/-- Whatever a task does, those who wait go on waiting. -/
theorem Becomes.awaits {w v : World η} {requester : Nat} {request : ApprovalRequest} {yes : Prop}
    (h : w.Becomes v) (hd : w.desk.Awaits requester request yes) :
    v.desk.Awaits requester request yes := by
  rcases h.desk_cases with ⟨other, hv⟩ | hless
  · exact hv ▸ hd.park other
  · exact hd.less hless

/-- **A wait that ends well.**  The requester found a verdict that says yes. -/
theorem accepted_of_conclude {w : World η} {requester : Nat} {deadline : Option Nat}
    {request : ApprovalRequest} {ending : Desk.Ending}
    (hlook : w.look requester deadline = some ending)
    (hok : (w.conclude requester request ending).1 = .ok ()) :
    (requester, .accepted) ∈ w.desk.verdicts := by
  have hending : ending = .decided .accepted := by
    rcases ending with (_ | reason) | _ | _
    · rfl
    all_goals simp [conclude, Desk.conclude] at hok
  subst hending
  unfold look Desk.look at hlook
  split at hlook
  · next verdict hv =>
    obtain rfl : verdict = .accepted := by simpa using hlook
    obtain ⟨before, after, hverdicts, _⟩ := List.lookup_eq_some_iff.1 hv
    simp [hverdicts]
  · split at hlook
    · split at hlook
      · split at hlook <;> simp at hlook
      · simp at hlook
    · simp at hlook

end World

namespace Outside

variable {w : World η} {requester : Nat} {request : ApprovalRequest} {yes : Prop}

theorem sound (o : Outside η) (h : w.desk.Sound) : (o.apply w).desk.Sound := by
  cases o with
  | accept id =>
    rcases w.desk_onDesk (Desk.accept id) with hsame | ⟨d, ns, hact, hd⟩
    · exact hsame.symm ▸ h
    · obtain ⟨ns', hsettle⟩ := Desk.settle_of_accept hact
      exact hd.symm ▸ h.settle hsettle
  | reject id reason =>
    rcases w.desk_onDesk (Desk.reject id reason) with hsame | ⟨d, ns, hact, hd⟩
    · exact hsame.symm ▸ h
    · obtain ⟨ns', hsettle⟩ := Desk.settle_of_reject hact
      exact hd.symm ▸ h.settle hsettle
  | rejectAll reason => exact h.rejectAll reason
  | wait milliseconds => exact h
  | setQueueing queueing => exact h
  | host change => exact h
  | addCustom id config => simpa [apply] using h
  | removeCustom id => simpa [apply] using h
  | switchToBuiltIn network => simpa [apply] using h
  | switchToCustom id => simpa [apply] using h
  | bindOrigin origin id => simpa [apply] using h

/-- Whatever comes from outside, those who wait go on waiting; the user may say yes. -/
theorem awaits (o : Outside η) (h : w.desk.Awaits requester request yes)
    (hyes : ∀ id, o = .accept id → w.desk.find? id = some ⟨request, requester⟩ → yes) :
    (o.apply w).desk.Awaits requester request yes := by
  cases o with
  | accept id =>
    rcases w.desk_onDesk (Desk.accept id) with hsame | ⟨d, ns, hact, hd⟩
    · exact hsame.symm ▸ h
    · obtain ⟨ns', hsettle⟩ := Desk.settle_of_accept hact
      exact hd.symm ▸ h.settle hsettle fun _ hfind => hyes id rfl hfind
  | reject id reason =>
    rcases w.desk_onDesk (Desk.reject id reason) with hsame | ⟨d, ns, hact, hd⟩
    · exact hsame.symm ▸ h
    · obtain ⟨ns', hsettle⟩ := Desk.settle_of_reject hact
      exact hd.symm ▸ h.settle hsettle fun hv _ => by simp at hv
  | rejectAll reason => exact h.rejectAll reason
  | wait milliseconds => exact h
  | setQueueing queueing => exact h
  | host change => exact h
  | addCustom id config => simpa [apply] using h
  | removeCustom id => simpa [apply] using h
  | switchToBuiltIn network => simpa [apply] using h
  | switchToCustom id => simpa [apply] using h
  | bindOrigin origin id => simpa [apply] using h

end Outside

/-- Requester numbers are never used twice, whatever happens. -/
theorem Crew.sound_after {α : Type} {c : Crew η α} (h : c.world.desk.Sound)
    (past : List (Act η α)) :
    (c.after past).world.desk.Sound := by
  induction past with
  | nil => exact h
  | cons a past ih =>
    exact Crew.world_perform (R := fun w v : World η => w.desk.Sound → v.desk.Sound)
      (fun _ hw => hw)
      (fun _ _ _ hu hv hw => hv (hu hw)) (fun _ _ hb => hb.sound) (c.after past)
      (fun o _ => o.sound) ih

/-- **Those who wait go on waiting**, whatever happens; the user may say yes. -/
theorem Crew.awaits_perform {α : Type} {c : Crew η α} {a : Act η α} {requester : Nat}
    {request : ApprovalRequest} {yes : Prop} (h : c.world.desk.Awaits requester request yes)
    (hyes : ∀ id, a = .outside (.accept id) →
      c.world.desk.find? id = some ⟨request, requester⟩ → yes) :
    (c.perform a).world.desk.Awaits requester request yes :=
  world_perform
    (R := fun w v : World η => w.desk.Awaits requester request yes →
      v.desk.Awaits requester request yes)
    (fun _ hw => hw) (fun _ _ _ hu hv hw => hv (hu hw)) (fun _ _ hb => hb.awaits) c
    (fun o ho hd => o.awaits hd fun id hid => hyes id (by rw [ho, hid])) h

end WalletGate
