import Mathlib.Data.List.Chain
import Mathlib.Data.List.Nodup
import WalletGate.Proofs.Conduct

/-!
# The contract of the pipeline

Handlers write into a request and a response they share, one inside the other: a handler
writes before it hands on, those behind it write, and it may write again when it has got
them back.  What the pipeline answers does not depend on who wrote what, or how deep.  Of
each part of the response the last thing written counts, unless the outermost handler ends
with a fault; then nothing counts but the fault.  The id is nobody's to change.

Nor does it depend on how often or how deep the handlers hand on that each of them is
entered by the one before it, and by nobody else.

All this is kept by one conduct, if the handlers behind it keep it, and so by a list of
them.  It is read off the journal of the pipeline, which tells of every run what has
happened so far.

* `Leaves`, `Conduct.Goes.leaves` — what counts of the writes of a conduct and the handlers
  behind it;
* `Conduct.Goes.chain` — which incident may come right behind which;
* `Conduct.Goes.entries_prefix` — who is entered if nobody hands on twice;
* `Pipeline.handle_contract` — the contract, for every list of conducts and every run.
-/

namespace WalletGate

variable {η : Type} {k : Nat} {behind : Request → Response → Option Turn → List Incident → Prop}

namespace Incident

/-- The request that is put in place of the present one. -/
def request? : Incident → Option Request
  | wrote (.request request) => some request
  | _ => none

/-- The result that is written. -/
def result? : Incident → Option (Option Json)
  | wrote (.result value) => some value
  | _ => none

/-- The error that is written. -/
def error? : Incident → Option (Option RpcError)
  | wrote (.error value) => some value
  | _ => none

/-- The end of the outermost handler. -/
def end? : Incident → Option (Except Fault Unit)
  | left 0 outcome => some outcome
  | _ => none

/-- The handler that is entered. -/
def entry? : Incident → Option Nat
  | entered k _ => some k
  | _ => none

/-- The handler that hands on. -/
def handover? : Incident → Option Nat
  | handedOn k => some k
  | _ => none

/-- If a handler comes to its end, then one that has this number or a greater one. -/
def EndsFrom (k : Nat) : Incident → Prop
  | left j _ => k ≤ j
  | _ => True

/-- Who comes to an end does not depend on where something is written. -/
theorem endsFrom_aside {d : Incident} : d.aside.EndsFrom k ↔ d.EndsFrom k := by
  cases d <;> exact .rfl

theorem EndsFrom.of_succ {d : Incident} (h : d.EndsFrom (k + 1)) : d.EndsFrom k := by
  cases d with
  | left j outcome => exact Nat.le_of_succ_le h
  | _ => trivial

/-- An incident may come right behind another: if a handler is entered there is one before
it, which has just handed on. -/
def Yields (a b : Incident) : Prop :=
  ∀ k request, b = entered k request → ∃ j, k = j + 1 ∧ a = handedOn j

/-- Which incidents may follow each other does not depend on where something is written. -/
theorem Yields.aside {a b : Incident} (h : a.Yields b) : a.aside.Yields b.aside := by
  intro k request hb
  have hentered : b = entered k request := by
    cases b with
    | entered => exact hb
    | handedOn => cases hb
    | wrote => cases hb
    | tried => cases hb
    | left => cases hb
  obtain ⟨j, hk, rfl⟩ := h k request hentered
  exact ⟨j, hk, rfl⟩

end Incident

/-- The last thing that was written; if nothing was, what there was before. -/
def lastWritten {α : Type} (written? : Incident → Option α) (before : α)
    (log : List Incident) : α :=
  (log.filterMap written?).getLastD before

/-- How the outermost handler ended; well, if there is none. -/
def outermost (log : List Incident) : Except Fault Unit := lastWritten Incident.end? (.ok ()) log

/-- The handlers that were entered. -/
def entries (log : List Incident) : List Nat := log.filterMap Incident.entry?

/-- The handlers that handed on, each as often as it did. -/
def handovers (log : List Incident) : List Nat := log.filterMap Incident.handover?

/-- The handlers entered in two stretches, one behind the other. -/
theorem entries_append (first second : List Incident) :
    entries (first ++ second) = entries first ++ entries second :=
  List.filterMap_append

/-- The handlers that handed on in two stretches. -/
theorem handovers_append (first second : List Incident) :
    handovers (first ++ second) = handovers first ++ handovers second :=
  List.filterMap_append

/-- Who is entered does not depend on where something is written. -/
theorem entries_aside (log : List Incident) : entries (log.map Incident.aside) = entries log := by
  unfold entries
  rw [List.filterMap_map]
  refine List.filterMap_congr fun d _ => ?_
  cases d <;> rfl

/-- Nor does who hands on. -/
theorem handovers_aside (log : List Incident) :
    handovers (log.map Incident.aside) = handovers log := by
  unfold handovers
  rw [List.filterMap_map]
  refine List.filterMap_congr fun d _ => ?_
  cases d <;> rfl

/-- Where a handler comes to its end nobody is entered. -/
theorem entries_leaving (k : Nat) (r : Option Turn) : entries (Incident.leaving k r) = [] := by
  cases r <;> rfl

/-- The last thing written in two stretches is the last one of the second, if there is one. -/
theorem lastWritten_append {α : Type} (written? : Incident → Option α) (before : α)
    (first second : List Incident) :
    lastWritten written? before (first ++ second)
      = lastWritten written? (lastWritten written? before first) second := by
  unfold lastWritten
  rw [List.filterMap_append]
  cases h : second.filterMap written? with
  | nil => rw [List.append_nil, List.getLastD_nil]
  | cons a rest => simp [List.getLastD_eq_getLast?]

/-- What is left of a request and a response when this has happened. -/
structure Leaves (q : Request) (s : Response) (log : List Incident) (q' : Request) (s' : Response) :
    Prop where
  id : s'.id = s.id
  request : q' = lastWritten Incident.request? q log
  result : s'.result = lastWritten Incident.result? s.result log
  error : s'.error = lastWritten Incident.error? s.error log

/-- Where nothing is written everything is left. -/
theorem Leaves.of_quiet {log : List Incident}
    (h : ∀ d ∈ log, d.request? = none ∧ d.result? = none ∧ d.error? = none)
    (q : Request) (s : Response) : Leaves q s log q s := by
  have hrequest : log.filterMap Incident.request? = [] :=
    List.filterMap_eq_nil_iff.2 fun d hd => (h d hd).1
  have hresult : log.filterMap Incident.result? = [] :=
    List.filterMap_eq_nil_iff.2 fun d hd => (h d hd).2.1
  have herror : log.filterMap Incident.error? = [] :=
    List.filterMap_eq_nil_iff.2 fun d hd => (h d hd).2.2
  refine ⟨rfl, ?_, ?_, ?_⟩ <;> unfold lastWritten
  · rw [hrequest, List.getLastD_nil]
  · rw [hresult, List.getLastD_nil]
  · rw [herror, List.getLastD_nil]

/-- A write leaves what it makes of a request and a response. -/
theorem Leaves.of_wrote (w : Write) (q : Request) (s : Response) :
    Leaves q s [.wrote w] (w.onRequest q) (w.onResponse s) := by
  cases w with
  | request => exact ⟨rfl, rfl, rfl, rfl⟩
  | result => exact ⟨rfl, rfl, rfl, rfl⟩
  | error => exact ⟨rfl, rfl, rfl, rfl⟩
  | version => exact ⟨rfl, rfl, rfl, rfl⟩

/-- What is left behind one stretch is what the next one finds. -/
theorem Leaves.append {q q' q'' : Request} {s s' s'' : Response} {first second : List Incident}
    (h : Leaves q s first q' s') (h' : Leaves q' s' second q'' s'') :
    Leaves q s (first ++ second) q'' s'' := by
  refine ⟨h'.id.trans h.id, ?_, ?_, ?_⟩ <;> rw [lastWritten_append]
  · rw [h'.request, h.request]
  · rw [h'.result, h.result]
  · rw [h'.error, h.error]

/-- What is written into a request and a response that a handler made for itself leaves the
shared ones. -/
theorem Leaves.of_aside (log : List Incident) (q : Request) (s : Response) :
    Leaves q s (log.map Incident.aside) q s := by
  refine .of_quiet ?_ q s
  intro d hd
  obtain ⟨e, -, rfl⟩ := List.mem_map.1 hd
  cases e with
  | entered => exact ⟨rfl, rfl, rfl⟩
  | handedOn => exact ⟨rfl, rfl, rfl⟩
  | wrote => exact ⟨rfl, rfl, rfl⟩
  | tried => exact ⟨rfl, rfl, rfl⟩
  | left => exact ⟨rfl, rfl, rfl⟩

/-- To hand on leaves everything. -/
theorem Leaves.of_handedOn (q : Request) (s : Response) : Leaves q s [.handedOn k] q s :=
  ⟨rfl, rfl, rfl, rfl⟩

/-- To come to an end leaves everything. -/
theorem Leaves.of_leaving (r : Option Turn) (q : Request) (s : Response) :
    Leaves q s (Incident.leaving k r) q s := by
  cases r <;> exact ⟨rfl, rfl, rfl, rfl⟩

namespace Conduct.Goes

variable {c : Conduct η} {q : Request} {s : Response} {r : Option Turn} {log : List Incident}

/-- **A conduct that came to its end leaves what was written last**, by itself or by the
handlers behind it. -/
theorem leaves (hbehind : ∀ q s turn log, behind q s (some turn) log →
      Leaves q s log turn.request turn.response)
    (h : c.Goes k behind q s r log) :
    ∀ turn, r = some turn → Leaves q s log turn.request turn.response := by
  induction h with
  | pause => exact fun turn hturn => nomatch hturn
  | done outcome q s =>
    rintro turn ⟨⟩
    exact .of_quiet (by simp) q s
  | run _ _ _ ih => exact ih
  | look _ ih => exact ih
  | write _ ih => exact fun turn hturn => (Leaves.of_wrote _ _ _).append (ih turn hturn)
  | handOn middle hmiddle _ ih =>
    intro turn hturn
    exact (Leaves.of_handedOn _ _).append ((hbehind _ _ middle _ hmiddle).append (ih turn hturn))
  | handOnPause => exact fun turn hturn => nomatch hturn
  | handOnOwn middle hmiddle _ ih =>
    intro turn hturn
    exact (Leaves.of_handedOn _ _).append ((Leaves.of_aside _ _ _).append (ih turn hturn))
  | handOnOwnPause => exact fun turn hturn => nomatch hturn
  | enqueue middle _ _ ihjob ih => exact fun turn hturn => (ihjob middle rfl).append (ih turn hturn)
  | enqueuePause => exact fun turn hturn => nomatch hturn

/-- No end is put down in a conduct but those of the handlers behind it. -/
theorem endsFrom {n : Nat}
    (hbehind : ∀ q s r log, behind q s r log → ∀ d ∈ log, d.EndsFrom n)
    (h : c.Goes k behind q s r log) : ∀ d ∈ log, d.EndsFrom n := by
  have haside : ∀ q s r log, behind q s r log → ∀ d ∈ log.map Incident.aside, d.EndsFrom n := by
    intro q s r log hlog
    rw [List.forall_mem_map]
    exact fun d hd => Incident.endsFrom_aside.2 (hbehind q s r log hlog d hd)
  induction h with
  | pause => exact List.forall_mem_nil _
  | done => exact List.forall_mem_nil _
  | run _ _ _ ih => exact ih
  | look _ ih => exact ih
  | write _ ih => exact List.forall_mem_cons.2 ⟨trivial, ih⟩
  | handOn middle hmiddle _ ih =>
    have hinner := hbehind _ _ _ _ hmiddle
    exact List.forall_mem_cons.2 ⟨trivial, List.forall_mem_append.2 ⟨hinner, ih⟩⟩
  | handOnPause hinner => exact List.forall_mem_cons.2 ⟨trivial, hbehind _ _ _ _ hinner⟩
  | handOnOwn middle hmiddle _ ih =>
    have hinner := haside _ _ _ _ hmiddle
    exact List.forall_mem_cons.2 ⟨trivial, List.forall_mem_append.2 ⟨hinner, ih⟩⟩
  | handOnOwnPause hinner => exact List.forall_mem_cons.2 ⟨trivial, haside _ _ _ _ hinner⟩
  | enqueue middle _ _ ihjob ih => exact List.forall_mem_append.2 ⟨ihjob, ih⟩
  | enqueuePause _ ih => exact ih

end Conduct.Goes

/-- A stretch may follow another if it may follow every incident. -/
theorem chain_append {a : Incident} {first second : List Incident}
    (h : (a :: first).IsChain Incident.Yields)
    (h' : ∀ b : Incident, (b :: second).IsChain Incident.Yields) :
    (a :: (first ++ second)).IsChain Incident.Yields := by
  induction first generalizing a with
  | nil => exact h' a
  | cons b rest ih =>
    rw [List.isChain_cons_cons] at h
    rw [List.cons_append, List.isChain_cons_cons]
    exact ⟨h.1, ih h.2⟩

/-- An incident in which no handler is entered may follow every other. -/
theorem chain_cons {b : Incident} {log : List Incident} (hb : ∀ j request, b ≠ .entered j request)
    (h : (b :: log).IsChain Incident.Yields) (a : Incident) :
    (a :: b :: log).IsChain Incident.Yields := by
  rw [List.isChain_cons_cons]
  exact ⟨fun j request hentered => absurd hentered (hb j request), h⟩

/-- The end of a handler may follow every incident. -/
theorem chain_leaving (r : Option Turn) (a : Incident) :
    (a :: Incident.leaving k r).IsChain Incident.Yields := by
  cases r with
  | none => exact .singleton a
  | some turn => exact chain_cons (by simp) (.singleton _) a

namespace Conduct.Goes

variable {c : Conduct η} {q : Request} {s : Response} {r : Option Turn} {log : List Incident}

/-- **What happens in a conduct may follow every incident**, if what happens behind it may
follow its handing on. -/
theorem chain (hbehind : ∀ q s r log, behind q s r log →
      (.handedOn k :: log).IsChain Incident.Yields)
    (h : c.Goes k behind q s r log) : ∀ a : Incident, (a :: log).IsChain Incident.Yields := by
  have haside : ∀ q s r log, behind q s r log →
      (.handedOn k :: log.map Incident.aside).IsChain Incident.Yields := by
    intro q s r log hlog
    exact List.isChain_map_of_isChain Incident.aside (fun _ _ => Incident.Yields.aside)
      (hbehind q s r log hlog)
  induction h with
  | pause => exact fun a => .singleton a
  | done => exact fun a => .singleton a
  | run _ _ _ ih => exact ih
  | look _ ih => exact ih
  | write _ ih => exact fun a => chain_cons (by simp) (ih _) a
  | handOn middle hmiddle _ ih =>
    exact fun a => chain_cons (by simp) (chain_append (hbehind _ _ _ _ hmiddle) ih) a
  | handOnPause hinner => exact fun a => chain_cons (by simp) (hbehind _ _ _ _ hinner) a
  | handOnOwn middle hmiddle _ ih =>
    exact fun a => chain_cons (by simp) (chain_append (haside _ _ _ _ hmiddle) ih) a
  | handOnOwnPause hinner => exact fun a => chain_cons (by simp) (haside _ _ _ _ hinner) a
  | enqueue middle _ _ ihjob ih => exact fun a => chain_append (ihjob a) ih
  | enqueuePause _ ih => exact ih

/-- Where a conduct has not handed on, no handler was entered. -/
theorem entries_eq_nil (h : c.Goes k behind q s r log) (hnot : k ∉ handovers log) :
    entries log = [] := by
  induction h with
  | pause => rfl
  | done => rfl
  | run _ _ _ ih => exact ih hnot
  | look _ ih => exact ih hnot
  | write _ ih => exact ih hnot
  | handOn | handOnPause | handOnOwn | handOnOwnPause => exact absurd List.mem_cons_self hnot
  | enqueue middle _ _ ihjob ih =>
    rw [handovers_append, List.mem_append, not_or] at hnot
    rw [entries_append, ihjob hnot.1, ih hnot.2, List.append_nil]
  | enqueuePause _ ih => exact ih hnot

/-- A conduct that hands on and never does so again enters the handlers behind it, and nobody
else. -/
theorem entries_prefix_handOn {inner : List Incident} {others : List Nat}
    (hinner : (handovers inner).Nodup → entries inner <+: others) (h : c.Goes k behind q s r log)
    (hnodup : (handovers (.handedOn k :: (inner ++ log))).Nodup) :
    entries (.handedOn k :: (inner ++ log)) <+: others := by
  obtain ⟨hnot, hnodup⟩ := List.nodup_cons.1 hnodup
  change k ∉ handovers (inner ++ log) at hnot
  change (handovers (inner ++ log)).Nodup at hnodup
  rw [handovers_append] at hnot hnodup
  have hquiet := h.entries_eq_nil fun hmem => hnot (List.mem_append_right _ hmem)
  have hentries : entries (.handedOn k :: (inner ++ log)) = entries inner := by
    change entries (inner ++ log) = entries inner
    rw [entries_append, hquiet, List.append_nil]
  rw [hentries]
  exact hinner (List.nodup_append'.1 hnodup).1

/-- **If nobody hands on twice, the handlers entered behind a conduct are the next ones, in
order.** -/
theorem entries_prefix {n : Nat} (hbehind : ∀ q s r log, behind q s r log →
      (handovers log).Nodup → entries log <+: List.range' (k + 1) n)
    (h : c.Goes k behind q s r log) (hnodup : (handovers log).Nodup) :
    entries log <+: List.range' (k + 1) n := by
  have haside : ∀ q s r log, behind q s r log → (handovers (log.map Incident.aside)).Nodup →
      entries (log.map Incident.aside) <+: List.range' (k + 1) n := by
    intro q s r log hlog
    rw [handovers_aside, entries_aside]
    exact hbehind q s r log hlog
  induction h with
  | pause => exact List.nil_prefix
  | done => exact List.nil_prefix
  | run _ _ _ ih => exact ih hnodup
  | look _ ih => exact ih hnodup
  | write _ ih => exact ih hnodup
  | handOn middle hmiddle hgoes =>
    exact hgoes.entries_prefix_handOn (hbehind _ _ _ _ hmiddle) hnodup
  | handOnPause hinner =>
    have hprefix := hbehind _ _ _ _ hinner (List.nodup_cons.1 hnodup).2
    exact hprefix
  | handOnOwn middle hmiddle hgoes =>
    exact hgoes.entries_prefix_handOn (haside _ _ _ _ hmiddle) hnodup
  | handOnOwnPause hinner =>
    have hprefix := haside _ _ _ _ hinner (List.nodup_cons.1 hnodup).2
    exact hprefix
  | enqueue middle hjob hgoes ihjob ih =>
    rename_i inner rest
    rw [handovers_append, List.nodup_append'] at hnodup
    obtain ⟨hfirst, hsecond, hdisjoint⟩ := hnodup
    rw [entries_append]
    -- the conduct hands on in the job or behind it, not in both
    by_cases hleft : k ∈ handovers inner
    · rw [hgoes.entries_eq_nil (hdisjoint hleft), List.append_nil]
      exact ihjob hfirst
    · rw [hjob.entries_eq_nil hleft, List.nil_append]
      exact ih hsecond
  | enqueuePause _ ih => exact ih hnodup

end Conduct.Goes

namespace Pipeline

/-- What passes through conducts to the end leaves what was written last. -/
theorem leaves_of_passes (cs : List (Conduct η)) (k : Nat) (q : Request) (s : Response)
    (turn : Turn) (log : List Incident) (h : Passes k cs q s (some turn) log) :
    Leaves q s log turn.request turn.response := by
  induction cs generalizing k q s turn log with
  | nil =>
    obtain ⟨hturn, rfl⟩ := h
    cases hturn
    exact .of_quiet (by simp) q s
  | cons c cs ih =>
    obtain ⟨inner, rfl, hgoes⟩ := h
    have hentered : Leaves q s [.entered k q] q s := ⟨rfl, rfl, rfl, rfl⟩
    exact hentered.append ((hgoes.leaves (ih (k + 1)) turn rfl).append (.of_leaving _ _ _))

/-- Each incident on the way through conducts may follow the one before it. -/
theorem chain_of_passes (cs : List (Conduct η)) (k : Nat) (q : Request) (s : Response)
    (r : Option Turn) (log : List Incident) (h : Passes k cs q s r log) :
    log.IsChain Incident.Yields := by
  induction cs generalizing k q s r log with
  | nil =>
    obtain ⟨-, rfl⟩ := h
    exact .nil
  | cons c cs ih =>
    obtain ⟨inner, rfl, hgoes⟩ := h
    refine chain_append (hgoes.chain ?_ _) (chain_leaving r)
    intro q s r log hlog
    have hchain := ih (k + 1) q s r log hlog
    cases cs with
    | nil =>
      obtain ⟨-, rfl⟩ := hlog
      exact .singleton _
    | cons next cs =>
      obtain ⟨inner, rfl, -⟩ := hlog
      rw [List.isChain_cons_cons]
      refine ⟨?_, hchain⟩
      rintro j request ⟨⟩
      exact ⟨k, rfl, rfl⟩

/-- The ends put down on the way through conducts are theirs. -/
theorem endsFrom_of_passes (cs : List (Conduct η)) (k : Nat) (q : Request) (s : Response)
    (r : Option Turn) (log : List Incident) (h : Passes k cs q s r log) :
    ∀ d ∈ log, d.EndsFrom k := by
  induction cs generalizing k q s r log with
  | nil =>
    obtain ⟨-, rfl⟩ := h
    exact List.forall_mem_nil _
  | cons c cs ih =>
    obtain ⟨inner, rfl, hgoes⟩ := h
    have hleaving : ∀ d ∈ Incident.leaving k r, d.EndsFrom k := by
      cases r with
      | none => exact List.forall_mem_nil _
      | some turn => exact List.forall_mem_singleton.2 (Nat.le_refl k)
    refine List.forall_mem_cons.2 ⟨trivial, List.forall_mem_append.2 ⟨?_, hleaving⟩⟩
    exact fun d hd => (hgoes.endsFrom (ih (k + 1)) d hd).of_succ

/-- If nobody hands on twice, the conducts entered are the first ones, in order. -/
theorem entries_prefix_of_passes (cs : List (Conduct η)) (k : Nat) (q : Request) (s : Response)
    (r : Option Turn) (log : List Incident) (h : Passes k cs q s r log)
    (hnodup : (handovers log).Nodup) : entries log <+: List.range' k cs.length := by
  induction cs generalizing k q s r log with
  | nil =>
    obtain ⟨-, rfl⟩ := h
    exact List.nil_prefix
  | cons c cs ih =>
    obtain ⟨inner, rfl, hgoes⟩ := h
    have hentries : entries (.entered k q :: (inner ++ Incident.leaving k r))
        = k :: entries inner := by
      change k :: entries (inner ++ Incident.leaving k r) = _
      rw [entries_append, entries_leaving, List.append_nil]
    change (handovers (inner ++ Incident.leaving k r)).Nodup at hnodup
    rw [handovers_append] at hnodup
    rw [hentries, List.length_cons, List.range'_succ, List.prefix_cons_inj]
    exact hgoes.entries_prefix (ih (k + 1)) (List.nodup_append'.1 hnodup).1

/-- **The first handler is entered at the start, with the request, and every other one right
behind a handing on of the one before it.** -/
theorem entered_of_passes {cs : List (Conduct η)} {request q : Request} {s : Response}
    {r : Option Turn} {before after : List Incident} {k : Nat}
    (h : Passes 0 cs request s r (before ++ .entered k q :: after)) :
    (k = 0 ∧ before = [] ∧ q = request) ∨
      ∃ j earlier, k = j + 1 ∧ before = earlier ++ [.handedOn j] := by
  have hchain := chain_of_passes cs 0 request s r _ h
  rcases List.eq_nil_or_concat before with rfl | ⟨earlier, d, rfl⟩
  · cases cs with
    | nil => simp [Passes] at h
    | cons c cs =>
      obtain ⟨inner, hlog, -⟩ := h
      obtain ⟨rfl, rfl⟩ := Incident.entered.inj (List.cons.inj hlog).1
      exact .inl ⟨rfl, rfl, rfl⟩
  · rw [List.concat_eq_append, List.append_assoc, List.singleton_append,
      List.isChain_append_cons_cons] at hchain
    obtain ⟨j, rfl, rfl⟩ := hchain.2.1 k q rfl
    exact .inr ⟨j, earlier, rfl, List.concat_eq_append⟩

/-- The outermost handler has put down how it ended, if there is one. -/
theorem outermost_of_passes {cs : List (Conduct η)} {q : Request} {s : Response} {turn : Turn}
    {log : List Incident} (h : Passes 0 cs q s (some turn) log) :
    outermost log = turn.outcome ∧ (cs = [] ∨ .left 0 turn.outcome ∈ log) := by
  cases cs with
  | nil =>
    obtain ⟨hturn, rfl⟩ := h
    cases hturn
    exact ⟨rfl, .inl rfl⟩
  | cons c cs =>
    obtain ⟨inner, rfl, -⟩ := h
    refine ⟨?_, .inr (by simp [Incident.leaving])⟩
    rw [outermost, ← List.cons_append, lastWritten_append]
    rfl

/-- A request that is still under way has been left by handlers behind the outermost one
only. -/
theorem not_left_of_passes {cs : List (Conduct η)} {q : Request} {s : Response}
    {log : List Incident} (h : Passes 0 cs q s none log) :
    cs ≠ [] ∧ ∀ outcome, .left 0 outcome ∉ log := by
  cases cs with
  | nil => simp [Passes] at h
  | cons c cs =>
    obtain ⟨inner, rfl, hgoes⟩ := h
    refine ⟨by simp, fun outcome hmem => ?_⟩
    simp only [Incident.leaving, List.append_nil] at hmem
    -- the end of the first conduct would be one of those behind it
    have hinner := (List.mem_cons.1 hmem).resolve_left (by simp)
    exact Nat.not_succ_le_zero 0 (hgoes.endsFrom (endsFrom_of_passes cs 1) _ hinner)

/-- An answer has the id of the response it is made of. -/
theorem id_answer (turn : Turn) : (answer turn).id = turn.response.id := by
  obtain ⟨outcome, q, s⟩ := turn
  unfold answer
  cases outcome <;> dsimp only <;> split <;> rfl

/-- The answer made of a turn that ended well has its result. -/
theorem result_answer_ok (q : Request) (s : Response) : (answer (.well q s)).result = s.result := by
  unfold answer
  dsimp only
  split <;> rfl

/-- It has its error too, if there is a result or an error; otherwise it says that the method is
unknown. -/
theorem error_answer_ok (q : Request) (s : Response) :
    (answer (.well q s)).error =
      if s.result = none ∧ s.error = none then some (Fault.methodNotFound q.method).toRpcError
      else s.error := by
  unfold answer
  change (if s.isSettled then s else _ : Response).error = _
  by_cases hsettled : s.isSettled = true
  · have hnot : ¬ (s.result = none ∧ s.error = none) := by
      rw [Response.isSettled_iff] at hsettled
      rintro ⟨hresult, herror⟩
      exact hsettled.elim (fun h => h hresult) (fun h => h herror)
    rw [if_pos hsettled, if_neg hnot]
  · have hnone : s.result = none ∧ s.error = none := by
      rw [Response.isSettled_iff, not_or, not_not, not_not] at hsettled
      exact hsettled
    rw [if_neg hsettled, if_pos hnone]
    rfl

/-- What a response is, when this has happened until it was given. -/
structure Fulfils (request : Request) (log : List Incident) (response : Response) : Prop where
  settled : response.isSettled = true
  id : response.id = request.id
  /-- A fault of the outermost handler takes the place of all that was written. -/
  failed : ∀ fault, outermost log = .error fault →
    response.result = none ∧ response.error = some fault.toRpcError
  /-- Without one the result is the last one written. -/
  result : outermost log = .ok () → response.result = lastWritten Incident.result? none log
  /-- So is the error, unless there is neither; then the method is unknown, the one the
  request has in the end. -/
  error : outermost log = .ok () → response.error =
    if lastWritten Incident.result? none log = none ∧
      lastWritten Incident.error? none log = none then
      some (Fault.methodNotFound (lastWritten Incident.request? request log).method).toRpcError
    else lastWritten Incident.error? none log

/-- The answer made of a turn fulfils the contract. -/
theorem fulfils_answer {request : Request} {turn : Turn} {log : List Incident}
    (hends : outermost log = turn.outcome)
    (h : Leaves request (.forRequest request) log turn.request turn.response) :
    Fulfils request log (answer turn) := by
  obtain ⟨outcome, q, s⟩ := turn
  obtain ⟨hid, hrequest, hresult, herror⟩ := h
  change s.result = lastWritten Incident.result? none log at hresult
  change s.error = lastWritten Incident.error? none log at herror
  change q = _ at hrequest
  change outermost log = outcome at hends
  rw [← hends] at *
  refine ⟨isSettled_answer _, ?_, ?_, ?_, ?_⟩
  · rw [id_answer]
    exact hid
  · intro fault hfault
    rw [hfault]
    exact ⟨rfl, rfl⟩
  · intro hwell
    rw [← hresult, hwell]
    exact result_answer_ok q s
  · intro hwell
    rw [← hresult, ← herror, ← hrequest, hwell]
    exact error_answer_ok q s

/-- A request is run through conducts that keep a journal, and resumed in these worlds. -/
def recorded (cs : List (Conduct η)) (request : Request) (w : World η) (later : List (World η)) :
    Outcome (η × Journal) Response × World (η × Journal) :=
  Outcome.polledBeside ((handle (journaled 0 cs) request).run (w.beside .blank)) later

/-- **What stands in the journal is how the request has passed so far**, and there is an
answer if it has passed to the end. -/
theorem exists_passes (cs : List (Conduct η)) (request : Request) (w : World η)
    (later : List (World η)) :
    let plain := (Thread.fresh (handle (cs.map Conduct.toHandler) request)).polled w later
    let kept := recorded cs request w later
    Outcome.SameRun plain kept ∧ ∃ reached,
      Passes 0 cs request (.forRequest request) reached kept.2.host.2.incidents ∧
      ∀ response, plain.1 = .finished response ↔ reached.map answer = some response := by
  intro plain kept
  have hbeside := ((tells_handle cs request .blank).run w).polled later
  refine ⟨hbeside.sameRun, ?_⟩
  by_cases hfinished : ∃ response, plain.1 = .finished response
  · obtain ⟨response, hresponse⟩ := hfinished
    obtain ⟨log, ⟨reached, hpasses, hanswer⟩, hlog⟩ := hbeside.of_finished hresponse
    change kept.2.host.2 = _ at hlog
    refine ⟨reached, ?_, fun other => ?_⟩
    · rwa [hlog, Journal.incidents_blank]
    · rw [hresponse, ← hanswer, Outcome.finished.injEq, Option.some.injEq]
  · obtain ⟨log, ⟨reached, hpasses, hanswer⟩, hlog⟩ :=
      hbeside.of_not_finished fun response heq => hfinished ⟨response, heq⟩
    change kept.2.host.2.incidents = _ at hlog
    refine ⟨reached, ?_, fun other => ⟨fun heq => absurd ⟨other, heq⟩ hfinished, fun heq => ?_⟩⟩
    · rwa [hlog, Journal.incidents_blank]
    · rw [← hanswer] at heq
      cases heq

/-- **The contract of the pipeline.**  The handlers are any list of conducts, and a request
is run through them, resumed again and again, in any worlds.  With a journal the pipeline
comes to the same.  When a response is given it fulfils the contract, for all that stands in
the journal by then; and it is given as soon as the outermost handler has ended, or if there
is none.  At every moment before and after, the first handler was entered at the start, and
each one behind it only by the one before it, which had just handed on.  So if nobody handed
on twice, the handlers entered are the first ones of the list, in order. -/
theorem handle_contract (cs : List (Conduct η)) (request : Request) (w : World η)
    (later : List (World η)) :
    let plain := (Thread.fresh (handle (cs.map Conduct.toHandler) request)).polled w later
    let kept := recorded cs request w later
    let log := kept.2.host.2.incidents
    Outcome.SameRun plain kept ∧
      (∀ response, plain.1 = .finished response → Fulfils request log response) ∧
      ((∃ response, plain.1 = .finished response) ↔ cs = [] ∨ ∃ outcome, .left 0 outcome ∈ log) ∧
      (∀ before after k q, log = before ++ .entered k q :: after →
        (k = 0 ∧ before = [] ∧ q = request) ∨
          ∃ j earlier, k = j + 1 ∧ before = earlier ++ [.handedOn j]) ∧
      ((handovers log).Nodup → entries log <+: List.range cs.length) := by
  intro plain kept log
  obtain ⟨hsame, reached, hpasses, hfinished⟩ := exists_passes cs request w later
  refine ⟨hsame, ?_, ?_, ?_, ?_⟩
  · intro response hresponse
    obtain ⟨turn, rfl, rfl⟩ := Option.map_eq_some_iff.1 ((hfinished response).1 hresponse)
    exact fulfils_answer (outermost_of_passes hpasses).1 (leaves_of_passes cs 0 _ _ turn _ hpasses)
  · cases reached with
    | some turn =>
      refine iff_of_true ⟨_, (hfinished _).2 rfl⟩ ?_
      exact (outermost_of_passes hpasses).2.imp_right fun hmem => ⟨_, hmem⟩
    | none =>
      obtain ⟨hsome, hnot⟩ := not_left_of_passes hpasses
      refine iff_of_false ?_ ?_
      · rintro ⟨response, hresponse⟩
        cases (hfinished response).1 hresponse
      · rintro (hnil | ⟨outcome, hmem⟩)
        · exact hsome hnil
        · exact hnot outcome hmem
  · intro before after k q hlog
    change (recorded cs request w later).2.host.2.incidents = _ at hlog
    rw [hlog] at hpasses
    exact entered_of_passes hpasses
  · intro hnodup
    rw [List.range_eq_range']
    exact entries_prefix_of_passes cs 0 _ _ reached _ hpasses hnodup

/-- A handler that hands on twice, and lets what it wrote itself go to the end. -/
def insisting : Conduct Unit :=
  .handOn fun _ => .write (.result (some .null)) (.handOn fun _ => .done (.ok ()))

/-- A handler that fails. -/
def failing : Conduct Unit := .write (.error none) (.done (.error .missingOrigin))

/-- The journal of a request that is handed on twice. -/
example (request : Request) :
    (recorded [insisting, failing] request (.start ()) []).2.host.2.incidents =
      [.entered 0 request, .handedOn 0, .entered 1 request, .wrote (.error none),
        .left 1 (.error .missingOrigin), .wrote (.result (some .null)), .handedOn 0,
        .entered 1 request, .wrote (.error none), .left 1 (.error .missingOrigin),
        .left 0 (.ok ())] := rfl

end Pipeline

end WalletGate
