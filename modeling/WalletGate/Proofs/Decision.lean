import WalletGate.Proofs.Accounts

/-!
# Decisions and those who wait for them

A decision is made on an id, and reaches whoever waits with the request parked under it.  As
long as no two requests have one id, that is all there is to it: every requester is told
what became of its own request, and nobody loses his entry to anybody else.  With one id
used twice an entry may go though nobody decided on it and its requester still waits:
another request of that id takes its place, or takes it away when its own wait ends.

* `Crew.fate_eq_lost_iff` — a request is lost exactly if a rival interfered while it was parked;
* `Crew.told_of_go` — whoever waits and is resumed goes on waiting or is told the fate of
  its request;
* `Crew.decisions_arrive` — with ids used once, every decision reaches its own requester and
  no request is lost;
* `Crew.entry_goes_iff` — with any ids, when an entry goes and when its requester is told
  that it did.
-/

namespace WalletGate

variable {η α : Type}

/-! ### What the user sees and does -/

namespace ApprovalRequest

theorem precedes_total (r s : ApprovalRequest) : (r.precedes s || s.precedes r) = true := by
  obtain ⟨⟨ri⟩, _, _, _, ⟨ra, rb⟩⟩ := r
  obtain ⟨⟨si⟩, _, _, _, ⟨sa, sb⟩⟩ := s
  simp [precedes, Instant.before]
  omega

theorem precedes_trans (r s t : ApprovalRequest) (hrs : r.precedes s = true)
    (hst : s.precedes t = true) :
    r.precedes t = true := by
  obtain ⟨⟨ri⟩, _, _, _, ⟨ra, rb⟩⟩ := r
  obtain ⟨⟨si⟩, _, _, _, ⟨sa, sb⟩⟩ := s
  obtain ⟨⟨ti⟩, _, _, _, ⟨ta, tb⟩⟩ := t
  simp [precedes, Instant.before] at hrs hst ⊢
  omega

/-- Who precedes was not raised later. -/
theorem not_before_of_precedes {r s : ApprovalRequest} (h : r.precedes s = true) :
    s.requestedAt.before r.requestedAt = false := by
  obtain ⟨⟨ri⟩, _, _, _, ⟨ra, rb⟩⟩ := r
  obtain ⟨⟨si⟩, _, _, _, ⟨sa, sb⟩⟩ := s
  simp [precedes, Instant.before] at h ⊢
  omega

end ApprovalRequest

/-- A decision on what is parked goes through. -/
theorem Desk.exists_settle {d : Desk} {id : ApprovalId} {p : Parked} (hfind : d.find? id = some p)
    (verdict : Verdict) :
    ∃ e ns, d.settle id verdict = .ok (e, ns) := by
  unfold settle
  rw [hfind]
  dsimp only
  split
  · exact ⟨_, _, rfl⟩
  · exact ⟨_, _, rfl⟩

namespace World

variable {w : World η} {id : ApprovalId} {verdict : Verdict} {n : Notice}

/-- An answer goes through exactly if something is parked under the id. -/
theorem answer_ok_iff :
    (w.onDesk (Desk.answer id verdict n)).1 = .ok () ↔ ∃ p ∈ w.desk.parked, p.request.id = id := by
  cases hfind : w.desk.find? id with
  | none =>
    have hnobody : ∀ p ∈ w.desk.parked, p.request.id ≠ id := by simpa [Desk.find?] using hfind
    refine iff_of_false (by simp [onDesk, Desk.answer, Desk.settle, hfind, Except.map]) ?_
    rintro ⟨p, hp, hid⟩
    exact hnobody p hp hid
  | some p =>
    refine iff_of_true ?_ ⟨p, Desk.mem_parked_of_find? hfind, by simpa using List.find?_some hfind⟩
    obtain ⟨e, ns, hsettle⟩ := Desk.exists_settle hfind verdict
    simp [onDesk, Desk.answer, hsettle, Except.map]

/-- What cannot be done at the desk changes nothing. -/
theorem onDesk_of_error {act : Desk → Except Fault (Desk × List Notice)} {fault : Fault}
    (h : (w.onDesk act).1 = .error fault) : (w.onDesk act).2 = w := by
  unfold onDesk at h ⊢
  split
  · next hdone => simp [hdone] at h
  · rfl

/-- The desk is in order, where this has become of every request. -/
structure DeskInOrder (w : World η) (fate : Parked → Option Fate) : Prop where
  /-- Every request that was announced has a fate, and no other has. -/
  known : ∀ p, (fate p).isSome ↔ w.desk.announced.reverse[p.requester]? = some p.request
  /-- What is parked is what waits. -/
  parked : ∀ p, p ∈ w.desk.parked ↔ ∃ deadline, fate p = some (.waits deadline)
  /-- What is parked is listed, and nothing else is. -/
  listed : ∀ r, r ∈ w.desk.pending ↔ ∃ p ∈ w.desk.parked, p.request = r
  /-- Nothing is listed twice. -/
  once : w.desk.pending.length = w.desk.parked.length ∧ w.desk.pending.Nodup
  /-- What was raised first is listed first. -/
  sorted : w.desk.pending.Pairwise fun r s => s.requestedAt.before r.requestedAt = false
  /-- The user can accept what is parked. -/
  accept : ∀ id, (w.onDesk (Desk.accept id)).1 = .ok () ↔ ∃ p ∈ w.desk.parked, p.request.id = id
  /-- The user can reject what is parked. -/
  reject : ∀ id reason, (w.onDesk (Desk.reject id reason)).1 = .ok () ↔ ∃ p ∈ w.desk.parked,
    p.request.id = id
  /-- A decision that is refused changes nothing. -/
  refused : ∀ id reason fault,
    ((w.onDesk (Desk.accept id)).1 = .error fault → (w.onDesk (Desk.accept id)).2 = w) ∧
    ((w.onDesk (Desk.reject id reason)).1 = .error fault → (w.onDesk (Desk.reject id reason)).2 = w)
  /-- To reject everything is to reject what is parked. -/
  rejectAll : ∀ reason, (w.rejectAll reason).1 = w.desk.parked.length ∧
    (w.rejectAll reason).2.desk.parked = []

end World

/-- **Where the books are right the desk is in order.** -/
theorem Accounts.inOrder {w : World η} {asks : Nat → Option Wait} {fate : Parked → Option Fate}
    (h : Accounts w.desk asks fate) : w.DeskInOrder fate where
  known := h.known
  parked := h.parked
  listed r := by simp [Desk.pending, List.mem_mergeSort]
  once := by
    have hrequests : (w.desk.parked.map Parked.request).Nodup := by
      have hids : ((w.desk.parked.map Parked.request).map ApprovalRequest.id).Nodup := by
        simpa [Function.comp_def] using h.apart
      exact hids.of_map _
    exact ⟨by simp [Desk.pending], (List.mergeSort_perm _ _).nodup_iff.2 hrequests⟩
  sorted := by
    have hsorted :=
      List.pairwise_mergeSort ApprovalRequest.precedes_trans ApprovalRequest.precedes_total
      (w.desk.parked.map Parked.request)
    exact hsorted.imp ApprovalRequest.not_before_of_precedes
  accept id := by
    rw [Desk.accept_eq_answer]
    exact World.answer_ok_iff
  reject id reason := by
    rw [Desk.reject_eq_answer]
    exact World.answer_ok_iff
  refused id reason fault := ⟨World.onDesk_of_error, World.onDesk_of_error⟩
  rejectAll reason := ⟨rfl, Desk.parked_rejectAll reason w.desk⟩

/-- Whoever does something at the desk is known there. -/
theorem Accounts.isSome_of_isOf {w : World η} {e : Desk} {asks asks' : Nat → Option Wait}
    {fate : Parked → Option Fate} {affair : Affair} {p : Parked} (h : Accounts w.desk asks fate)
    (hdeals : Deals w asks affair e asks') (hof : affair.IsOf p) :
    (Fate.next w p affair (fate p)).isSome := by
  refine Fate.isSome_next.2 ?_
  rcases hof with rfl | rfl | rfl
  · exact .inr rfl
  · cases hdeals with
    | waits before found => exact .inl (h.isSome_of_asks before)
    | ends before found => exact .inl (h.isSome_of_asks before)
  · cases hdeals with
    | leaves before => exact .inl (h.isSome_of_asks before)

/-! ### Who is told what -/

/-- What a requester is told, by the fate of its request. -/
structure Fate.Tells (fate : Option Fate) (answer : Except Fault Unit) : Prop where
  settled : (∃ verdict, fate = some (.decided verdict)) ∨ fate = some .timedOut ∨ fate = some .lost
  accepted : answer = .ok () ↔ fate = some (.decided .accepted)
  rejected : ∀ reason, answer = .error (.approvalDeclined reason) ↔
    fate = some (.decided (.rejected reason))
  timedOut : (∃ text, answer = .error (.timeout text)) ↔ fate = some .timedOut
  lost : (∃ text, answer = .error (.approval text)) ↔ fate = some .lost

namespace Fate.Tells

variable {fate : Option Fate} {answer : Except Fault Unit}

theorem of_decided (w : World η) (requester : Nat) (request : ApprovalRequest) (verdict : Verdict) :
    Tells (some (.decided verdict)) (w.conclude requester request (.decided verdict)).1 := by
  cases verdict <;> constructor <;> simp [World.conclude, Desk.conclude, eq_comm]

theorem of_timedOut (w : World η) (requester : Nat) (request : ApprovalRequest) :
    Tells (some .timedOut) (w.conclude requester request .timedOut).1 := by
  constructor <;> simp [World.conclude, Desk.conclude]

theorem of_lost (w : World η) (requester : Nat) (request : ApprovalRequest) :
    Tells (some .lost) (w.conclude requester request .dropped).1 := by
  constructor <;> simp [World.conclude, Desk.conclude]

end Fate.Tells

namespace Crew

variable {w : World η} {limit : Option Nat} {past : List (Act η α)} {p : Parked}

/-- **Whoever waits and is resumed** goes on waiting, or is told the fate of its request. -/
theorem told_of_go (hdesk : w.desk = Desk.empty limit) {i : Nat} {t : Thread η α} {x : Wait}
    (ht : ((ofWorld w).after past).thread? i = some t) (hx : t.wait? = some x) :
    ((ofWorld w).fate x.entry (.go i :: past) = some (.waits x.deadline) ∧
      (ofWorld w).after (.go i :: past) = (ofWorld w).after past) ∨
    ∃ answer, ((ofWorld w).after (.go i :: past)).thread? i = some (t.told answer) ∧
      Fate.Tells ((ofWorld w).fate x.entry (.go i :: past)) answer := by
  have hasks : ((ofWorld w).after past).asks i = some x := (asks_of_thread? ht).trans hx
  have hgo := go_of_asks ht hx
  have hput : ∀ s v, (((ofWorld w).after past).put i (some s) v).thread? i = some s :=
    fun s v => thread?_put_self ht _ v
  rw [after_cons, perform, fate, affair_go_of_wait ht hx]
  obtain ⟨hfate, hlook⟩ | ⟨v, hfate, hlook⟩ | ⟨hfate, hlook⟩ := (accounts hdesk past).look hasks _
  · rw [hfate, Fate.next_waits, Fate.ofWaiting_looks]
    split at hlook
    · next hover =>
      rw [World.look, hlook] at hgo
      rw [if_pos hover, hgo]
      exact .inr ⟨_, hput _ _, .of_timedOut _ _ _⟩
    · next hstill =>
      rw [World.look, hlook] at hgo
      rw [if_neg hstill, hgo]
      exact .inl ⟨rfl, rfl⟩
  · rw [World.look, hlook] at hgo
    rw [hfate, hgo]
    exact .inr ⟨_, hput _ _, .of_decided _ _ _ v⟩
  · rw [World.look, hlook] at hgo
    rw [hfate, hgo]
    exact .inr ⟨_, hput _ _, .of_lost _ _ _⟩

/-! ### Fates in the long run -/

/-- What is known of a request stays known. -/
theorem isSome_fate_append (c : Crew η α) (later : List (Act η α)) (h : (c.fate p past).isSome) :
    (c.fate p (later ++ past)).isSome := by
  induction later with
  | nil => exact h
  | cons a later ih => exact Fate.isSome_next.2 (.inl ih)

/-- **A request is lost** exactly if a rival interfered while it was parked. -/
theorem fate_eq_lost_iff (hdesk : w.desk = Desk.empty limit) :
    (ofWorld w).fate p past = some .lost ↔
      ∃ later a earlier, past = later ++ a :: earlier ∧
      p ∈ ((ofWorld w).after earlier).world.desk.parked ∧
        (((ofWorld w).after earlier).affair a).isRival p := by
  induction past with
  | nil => simp [fate]
  | cons a past ih =>
    rw [fate, Fate.next_eq_lost_iff, ih, ← (accounts hdesk past).parked p]
    constructor
    · rintro (⟨later, b, earlier, rfl, hparked, hrival⟩ | ⟨hparked, hrival⟩)
      · exact ⟨a :: later, b, earlier, rfl, hparked, hrival⟩
      · exact ⟨[], a, past, rfl, hparked, hrival⟩
    · rintro ⟨later, b, earlier, hpast, hparked, hrival⟩
      cases later with
      | nil =>
        obtain ⟨rfl, rfl⟩ := List.cons.inj hpast
        exact .inr ⟨hparked, hrival⟩
      | cons c later =>
        obtain ⟨rfl, rfl⟩ := List.cons.inj hpast
        exact .inl ⟨later, b, earlier, rfl, hparked, hrival⟩

/-- Nobody loses his own request by looking for the decision on it. -/
theorem lost_go_iff {c : Crew η α} {i : Nat} {t : Thread η α} {x : Wait}
    (ht : (c.after past).thread? i = some t) (hx : t.wait? = some x) :
    c.fate x.entry (.go i :: past) = some .lost ↔ c.fate x.entry past = some .lost := by
  rw [fate, affair_go_of_wait ht hx, Fate.next_eq_lost_iff]
  simp [Affair.isRival]

/-- Whoever does something at the desk is known there. -/
theorem isSome_fate_of_isOf (hdesk : w.desk = Desk.empty limit) {a : Act η α}
    (hof : (((ofWorld w).after past).affair a).IsOf p) : ((ofWorld w).fate p (a :: past)).isSome :=
  (accounts hdesk past).isSome_of_isOf (deals_perform _ a) hof

/-- **Where every id is used once no request is lost.** -/
theorem fate_ne_lost (hdesk : w.desk = Desk.empty limit)
    (hids : (((ofWorld w).after past).world.desk.announced.map ApprovalRequest.id).Nodup) :
    (ofWorld w).fate p past ≠ some .lost := by
  intro hlost
  have hknown := (accounts hdesk past).known
  have hp := (hknown p).1 (by simp [hlost])
  obtain ⟨later, a, earlier, rfl, _, hrival⟩ := (fate_eq_lost_iff hdesk).1 hlost
  obtain ⟨q, hof, hne, hid⟩ := Affair.exists_of_isRival hrival
  have hq := (hknown q).1 (isSome_fate_append _ later (isSome_fate_of_isOf hdesk hof))
  -- two announcements of one id are one
  have hnumber : q.requester = p.requester := by
    have hnodup := List.nodup_reverse.2 hids
    rw [← List.map_reverse] at hnodup
    refine (List.getElem?_inj ?_ hnodup).1 ?_
    · simpa using (List.getElem?_eq_some_iff.1 hq).1
    · rw [List.getElem?_map, List.getElem?_map, hp, hq, Option.map_some, Option.map_some, hid]
  obtain ⟨request, requester⟩ := q
  obtain rfl : requester = p.requester := hnumber
  obtain rfl : request = p.request := Option.some.inj (hq.symm.trans hp)
  exact hne rfl

/-! ### The two main results -/

/-- **Every decision reaches its own requester.**  In every history of a wallet whose desk
nobody had used, in which no two requests had one id: the desk is in order, no request is
lost, and whoever waits and is resumed either goes on waiting or is told the fate of its
request. -/
theorem decisions_arrive (hdesk : w.desk = Desk.empty limit)
    (hids : (((ofWorld w).after past).world.desk.announced.map ApprovalRequest.id).Nodup) :
    ((ofWorld w).after past).world.DeskInOrder (fun p => (ofWorld w : Crew η α).fate p past) ∧
    (∀ p, (ofWorld w).fate p past ≠ some .lost) ∧
    ∀ i t x, ((ofWorld w).after past).thread? i = some t → t.wait? = some x →
      ((ofWorld w).fate x.entry (.go i :: past) = some (.waits x.deadline) ∧
        (ofWorld w).after (.go i :: past) = (ofWorld w).after past) ∨
      ∃ answer, ((ofWorld w).after (.go i :: past)).thread? i = some (t.told answer) ∧
        Fate.Tells ((ofWorld w).fate x.entry (.go i :: past)) answer ∧
        ∀ text, answer ≠ .error (.approval text) := by
  refine ⟨(accounts hdesk past).inOrder, fun p => fate_ne_lost hdesk hids, fun i t x ht hx => ?_⟩
  refine (told_of_go hdesk ht hx).imp_right ?_
  rintro ⟨answer, hthread, htells⟩
  refine ⟨answer, hthread, htells, fun text htext => ?_⟩
  exact fate_ne_lost hdesk hids ((lost_go_iff ht hx).1 (htells.lost.1 ⟨text, htext⟩))

/-- A request to go from mainnet to sepolia on behalf of a site. -/
def siteRequest (serial : Nat) (site : String) : ApprovalRequest :=
  .switchChain (.fresh serial) ⟨0, 0⟩ ⟨site⟩ BuiltIn.mainnet.chainId BuiltIn.sepolia.chainId
    BuiltIn.sepolia.clientId

/-- A task that asks the user and ends with the answer. -/
def asker (request : ApprovalRequest) : Program Unit (Except Fault Unit) := .ask request .done

/-- A wallet in which a request may wait a second. -/
def hastyWorld : World Unit := { World.start () with desk := Desk.empty (some 1000) }

/-- Two sites ask; when a second has passed the user accepts what the second one asked for. -/
def lateYes : List (Act Unit (Except Fault Unit)) :=
  [.outside (.accept (.fresh 1)), .outside (.wait 1000), .go 1, .go 0,
    .spawn "second" (asker (siteRequest 1 "https://b.example")),
    .spawn "first" (asker (siteRequest 0 "https://a.example"))]

/-- The first site is told that time is up, the second one that the user accepted. -/
theorem decisions_arrive_lateYes :
    (∃ text, ((ofWorld hastyWorld).after (.go 0 :: lateYes)).thread? 0
      = some (.fresh (.done (.error (.timeout text))))) ∧
    ((ofWorld hastyWorld).after (.go 1 :: lateYes)).thread? 1 = some (.fresh (.done (.ok ()))) := by
  obtain ⟨_, _, hanswers⟩ :=
    @decisions_arrive Unit (Except Fault Unit) hastyWorld (some 1000) lateYes rfl (by decide)
  constructor
  · obtain ⟨hwaits, _⟩ | ⟨answer, hthread, htells, _⟩ := hanswers 0 _ _ rfl rfl
    · exact nomatch hwaits
    · obtain ⟨text, rfl⟩ := htells.timedOut.2 rfl
      exact ⟨text, hthread⟩
  · obtain ⟨hwaits, _⟩ | ⟨answer, hthread, htells, _⟩ := hanswers 1 _ _ rfl rfl
    · exact nomatch hwaits
    · obtain rfl := htells.accepted.2 rfl
      exact hthread

/-- **When an entry goes, and who is told.**  In every history of a wallet whose desk nobody
had used, whatever ids the requests have: what is parked goes with an act exactly if the
user decides on it, its requester is resumed after the deadline or is given up, or a rival
interferes — another request with its id comes, or somebody who waits with such a request is
resumed or given up.  And whoever waits and is resumed goes on waiting or is told the fate
of its request; that the request went away it is told exactly if a rival interfered. -/
theorem entry_goes_iff (hdesk : w.desk = Desk.empty limit) :
    ((ofWorld w).after past).world.DeskInOrder (fun p => (ofWorld w : Crew η α).fate p past) ∧
    (∀ p deadline a, (ofWorld w).fate p past = some (.waits deadline) →
      (p ∉ ((ofWorld w).after (a :: past)).world.desk.parked ↔
        (∃ verdict, ((ofWorld w).after past).affair a = .decides p.request.id verdict) ∨
        (∃ reason, ((ofWorld w).after past).affair a = .rejectsAll reason) ∨
        (((ofWorld w).after past).affair a = .looks p ∧
          Fate.isOver deadline ((ofWorld w).after past).world.clock) ∨
        ((ofWorld w).after past).affair a = .leaves p ∨
        (((ofWorld w).after past).affair a).isRival p)) ∧
    ∀ i t x, ((ofWorld w).after past).thread? i = some t → t.wait? = some x →
      ((ofWorld w).fate x.entry (.go i :: past) = some (.waits x.deadline) ∧
        (ofWorld w).after (.go i :: past) = (ofWorld w).after past) ∨
      ∃ answer, ((ofWorld w).after (.go i :: past)).thread? i = some (t.told answer) ∧
        Fate.Tells ((ofWorld w).fate x.entry (.go i :: past)) answer ∧
        ((∃ text, answer = .error (.approval text)) ↔
          ∃ later a earlier, past = later ++ a :: earlier ∧
            x.entry ∈ ((ofWorld w).after earlier).world.desk.parked ∧
            (((ofWorld w).after earlier).affair a).isRival x.entry) := by
  refine ⟨(accounts hdesk past).inOrder, fun p deadline a hwaits => ?_, fun i t x ht hx => ?_⟩
  · rw [(accounts hdesk (a :: past)).parked p, fate, hwaits]
    exact Fate.not_waits_next_iff
  · refine (told_of_go hdesk ht hx).imp_right ?_
    rintro ⟨answer, hthread, htells⟩
    refine ⟨answer, hthread, htells, ?_⟩
    rw [htells.lost, lost_go_iff ht hx, fate_eq_lost_iff hdesk]

/-- Two requests with ids of their own: the user accepts the first one, and then the second
one is parked. -/
def strangers : List (Act Unit (Except Fault Unit)) :=
  [.go 1, .spawn "second" (asker (siteRequest 1 "https://b.example")),
    .outside (.accept (.fresh 0)), .go 0,
    .spawn "first" (asker (siteRequest 0 "https://a.example"))]

/-- The first requester is resumed and told that the user accepted; the entry of the second
one stays. -/
theorem entry_goes_iff_strangers :
    ⟨siteRequest 1 "https://b.example", 1⟩
      ∈ ((ofWorld (.start ())).after (.go 0 :: strangers)).world.desk.parked ∧
    ((ofWorld (.start ())).after (.go 0 :: strangers)).thread? 0
      = some (.fresh (.done (.ok ()))) := by
  obtain ⟨_, hgoes, hanswers⟩ :=
    @entry_goes_iff Unit (Except Fault Unit) (.start ()) none strangers rfl
  constructor
  · by_contra hgone
    obtain ⟨_, hdecides⟩ | ⟨_, hrejects⟩ | ⟨hlooks, _⟩ | hleaves | hrival :=
      (hgoes ⟨siteRequest 1 "https://b.example", 1⟩ none (.go 0) rfl).1 hgone
    · exact nomatch hdecides
    · exact nomatch hrejects
    · exact absurd hlooks (by decide)
    · exact nomatch hleaves
    · exact absurd hrival (by decide)
  · obtain ⟨hwaits, _⟩ | ⟨answer, hthread, htells, _⟩ := hanswers 0 _ _ rfl rfl
    · exact nomatch hwaits
    · obtain rfl := htells.accepted.2 rfl
      exact hthread

/-- Two requests with one id: the user accepts the first one, and then the second one is
parked. -/
def twins : List (Act Unit (Except Fault Unit)) :=
  [.go 1, .spawn "second" (asker (siteRequest 0 "https://b.example")),
    .outside (.accept (.fresh 0)), .go 0,
    .spawn "first" (asker (siteRequest 0 "https://a.example"))]

/-- **An entry may go with somebody else's.**  The first requester is resumed, and takes
away what the second one parked; nobody can decide on that any more, and the second
requester ends with an error. -/
theorem entry_taken_away :
    ((ofWorld (.start ())).after twins).world.desk.parked
      = [⟨siteRequest 0 "https://b.example", 1⟩] ∧
    ((ofWorld (.start ())).after twins).affair (.go 0)
      = .looks ⟨siteRequest 0 "https://a.example", 0⟩ ∧
    ((ofWorld (.start ())).after (.go 0 :: twins)).world.desk.parked = [] ∧
    (∃ fault,
      (((ofWorld (.start ())).after (.go 0 :: twins)).world.onDesk (Desk.accept (.fresh 0))).1
      = .error fault) ∧
    ∃ text, ((ofWorld (.start ())).after (.go 1 :: .go 0 :: twins)).thread? 1
      = some (.fresh (.done (.error (.approval text)))) :=
  ⟨rfl, rfl, rfl, ⟨_, rfl⟩, _, rfl⟩

end Crew

end WalletGate
