import WalletGate.Proofs.Course

/-!
# Queued requests, one strictly after another

A **wallet** has one queue, one gate in front of it, and handlers behind the gate that only
read the networks: what they come to is a function of the request and of the registry they
find.

What a queued request comes to when it has the wallet to itself is a plain function of the
registry it finds (`Wallet.course`): it is faulty, or it is on the network selected and is
handed on, or the user is asked, and then it fails with the fault it is told or is handed on
with its client selected and its origin bound.  `Wallet.serially` serves a list of queued
requests in this way, each on the registry the one before it left.

* `Wallet.follows_job` — the job of a queued request follows that course;
* `Wallet.onlyReads_task` — the task of any other request only reads;
* `Wallet.registry_of_comes` — all a queued request ever leaves of itself is its switch and
  its binding, and those only if the user said yes.
-/

namespace WalletGate

variable {η : Type}

namespace Registry

/-- The registry behind a change of network: the client is selected, and the origin bound to
it. -/
def adopt (origin : Origin) (client : ClientId) (r : Registry) : Registry :=
  { r with selected := client, bindings := update r.bindings origin (some client) }

/-- What a network check comes to. -/
def check (origin : Origin) (client : ClientId) (r : Registry) : Course (Except Fault Unit) :=
  match r.chainOf client, r.selectedChain with
  | .error fault, _ => .ends (.finished (.error fault)) r
  | .ok _, .error fault => .ends (.finished (.error fault)) r
  | .ok target, .ok current =>
    if target = current then .ends (.finished (.ok ())) r
    else .asks r ⟨origin, current, target, client⟩ fun
      | .error fault => .ends (.finished (.error fault)) r
      | .ok () => .ends (.finished (.ok ())) (r.adopt origin client)

/-- A client that has a chain is known. -/
theorem exists_resolve_of_chainOf {r : Registry} {client : ClientId} {chain : ChainId}
    (h : r.chainOf client = .ok chain) : ∃ config, r.resolve client = some config := by
  unfold chainOf clientConfig at h
  cases hresolve : r.resolve client with
  | some config => exact ⟨config, rfl⟩
  | none => simp [hresolve, Except.map] at h

/-- A client that is known can be bound to an origin. -/
theorem carryOut_bind {r : Registry} {origin : Origin} {client : ClientId} {config : ClientConfig}
    (h : r.resolve client = some config) :
    ({ r with selected := client } : Registry).carryOut (Registry.bind origin client)
      = (.ok (), r.adopt origin client) := by
  have hsame : ({ r with selected := client } : Registry).resolve client = some config := h
  simp [carryOut, Registry.bind, hsame, adopt]

end Registry

namespace Gate

variable {queue : Nat} {classifier : Classifier} {flag : Program η Bool} {origin : Origin}
  {client : ClientId} {r : Registry} {current target : ChainId}

/-- Selecting a client that is known is one call, and the client is selected. -/
theorem switchTo_eq_call (queue : Nat) (classifier : Classifier) (flag : Program η Bool)
    (h : r.chainOf client = .ok target) :
    ∃ k : Call (Except Fault Unit), (own queue classifier flag).switchTo client = .call k .done ∧
      ∀ b s, k.Gives r b s → b = .ok () ∧ s = { r with selected := client } := by
  obtain ⟨config, hresolve⟩ := Registry.exists_resolve_of_chainOf h
  cases hclient : BuiltIn.ofClientId? client with
  | some network =>
    refine ⟨.switchToBuiltIn network, by rw [switchTo, hclient]; rfl, fun b s hgives => ?_⟩
    obtain ⟨rfl, rfl⟩ := Prod.mk.inj hgives
    exact ⟨rfl, by rw [← BuiltIn.clientId_of_ofClientId hclient]⟩
  | none =>
    have hcustom : r.custom client = some config := by
      simpa [Registry.resolve, hclient] using hresolve
    refine ⟨.switchToCustom client, by rw [switchTo, hclient]; rfl, fun b s hgives => ?_⟩
    have hdone : r.carryOut (Registry.switchToCustom client)
        = (.ok (), { r with selected := client }) := by
      simp [Registry.carryOut, Registry.switchToCustom, hcustom]
    exact Prod.mk.inj (Eq.trans hgives hdone)

/-- The user said yes: the client is selected, and the origin bound. -/
theorem follows_decided (h : r.chainOf client = .ok target) :
    ((own queue classifier flag).decided origin client current target (.ok ())).Follows r
      (.ends (.finished (.ok ())) (r.adopt origin client)) := by
  obtain ⟨config, hresolve⟩ := Registry.exists_resolve_of_chainOf h
  obtain ⟨k, hswitch, hgives⟩ := switchTo_eq_call queue classifier flag h
  have hprogram : (own queue classifier flag).decided origin client current target (.ok ())
      = .call k ((own queue classifier flag).switched origin client current target) := by
    rw [decided, hswitch]
    rfl
  rw [hprogram]
  intro b s hb
  obtain ⟨rfl, rfl⟩ := hgives b s hb
  -- the origin is bound
  intro b s hb
  obtain ⟨rfl, rfl⟩ := Prod.mk.inj (Eq.trans hb (Registry.carryOut_bind hresolve))
  -- the change is noted
  rintro b s rfl
  rfl

/-- The user is asked, and the answer decides. -/
theorem follows_changeNetwork (h : r.chainOf client = .ok target) :
    ((own queue classifier flag).changeNetwork origin client current target).Follows r
      (.asks r ⟨origin, current, target, client⟩ fun
        | .error fault => .ends (.finished (.error fault)) r
        | .ok () => .ends (.finished (.ok ())) (r.adopt origin client)) := by
  -- first a notice, then the request is drawn up
  rintro _ s rfl
  rintro request s ⟨hquestion, rfl⟩
  refine ⟨_, by rw [hquestion], fun answer => ?_⟩
  cases answer with
  | error fault =>
    rintro _ s rfl
    rfl
  | ok u => exact follows_decided h

/-- The chain wanted is known; the selected one is asked for. -/
theorem follows_targeted (h : r.chainOf client = .ok target) :
    ((own queue classifier flag).targeted origin client (.ok target)).Follows r
    (r.check origin client) := by
  rintro selected r ⟨rfl, rfl⟩
  rw [Registry.check, h]
  dsimp only [Program.bind_done]
  cases r.selectedChain with
  | error fault => rfl
  | ok current =>
    rw [compared]
    dsimp only
    split
    · rintro _ s rfl
      rfl
    · exact follows_changeNetwork h

/-- **The network check follows its course.** -/
theorem follows_ensureNetwork :
    ((own queue classifier flag).ensureNetwork origin client).Follows r
    (r.check origin client) := by
  cases hclient : BuiltIn.ofClientId? client with
  | some network =>
    rw [ensureNetwork_of_builtIn queue classifier flag origin hclient]
    exact follows_targeted (Registry.chainOf_builtIn hclient r)
  | none =>
    obtain ⟨f, hf, hok, herror⟩ := ensureNetwork_of_custom queue classifier flag origin hclient
    rw [hf]
    rintro config r ⟨rfl, rfl⟩
    cases hconfig : r.clientConfig client with
    | error fault =>
      rw [herror]
      rintro _ s rfl
      simp [Registry.check, Registry.chainOf, hconfig, Except.map, Program.Follows]
    | ok config =>
      rw [hok]
      exact follows_targeted (by simp [Registry.chainOf, hconfig, Except.map])

end Gate

/-! ### A wallet -/

/-- A wallet: one queue, a gate, and handlers behind it that only read and come to what is
computed from the request and the registry. -/
structure Wallet (η : Type) where
  queue : Nat
  classifier : Classifier
  behind : List (Handler η)
  computed : Request → Response → Registry → TaskEnd Turn
  onlyReads : ∀ request response, (Pipeline.dispatch behind request response).OnlyReads
  computes : ∀ request response r,
    (Pipeline.dispatch behind request response).Follows r (.ends (computed request response r) r)

namespace Wallet

/-- The gate of the wallet. -/
def gate (W : Wallet η) : Gate η := Gate.own W.queue W.classifier (.perform .isQueueing)

/-- The task of a request. -/
def task (W : Wallet η) (request : Request) : Program η Response :=
  Pipeline.handle (W.gate.handle :: W.behind) request

/-- The visit of a request that is queued; none if it is not. -/
def visit? (W : Wallet η) (request : Request) : Option (Visit η) :=
  match request.origin, request.clientId with
  | some origin, some client =>
    if (W.classifier.classify request.method).isQueued then
      some ⟨W.classifier.classify request.method, origin, client, request, .forRequest request,
        Pipeline.dispatch W.behind⟩
    else none
  | _, _ => none

/-- The response made of what is left when a queued request gives the slot up. -/
def respond (turn : Turn) : Response := Pipeline.answer (Gate.settleFault turn)

/-- The end of the task of a queued request whose job ended so. -/
def endOf : TaskEnd Turn → TaskEnd Response
  | .finished turn => .finished (respond turn)
  | .panicked text => .panicked text

/-- What a visit comes to when the user was asked and gave this answer. -/
def told (W : Wallet η) (v : Visit η) (r : Registry) : Except Fault Unit → Course Turn
  | .error fault => .ends (.finished (.failed fault v.request v.response)) r
  | .ok () =>
    .ends (W.computed v.request v.response (r.adopt v.origin v.client)) (r.adopt v.origin v.client)

/-- **What a visit comes to** when it has the wallet to itself and finds this registry. -/
def course (W : Wallet η) (v : Visit η) (r : Registry) : Course Turn :=
  if v.kind = .requiresConfirmation then
    match r.chainOf v.client, r.selectedChain with
    | .error fault, _ => .ends (.finished (.failed fault v.request v.response)) r
    | .ok _, .error fault => .ends (.finished (.failed fault v.request v.response)) r
    | .ok target, .ok current =>
      if target = current then .ends (W.computed v.request v.response r) r
      else .asks r ⟨v.origin, current, target, v.client⟩ (W.told v r)
  else .ends (W.computed v.request v.response r) r

end Wallet

/-- What a visit leaves of itself: its switch and its binding if the user said yes, else
nothing. -/
def Visit.effect (v : Visit η) (heard : List (Except Fault Unit)) (r : Registry) : Registry :=
  if heard.any Except.isOk then r.adopt v.origin v.client else r

/-- A queued request, with what the user answered when it asked, if it did, and whether it
was cancelled. -/
structure Booking where
  request : Request
  heard : List (Except Fault Unit)
  cancelled : Bool

namespace Wallet

/-- Serves one queued request alone: the end of its task, and the registry it leaves.  A
request that is cancelled or panics counts as nothing but its switch and its binding, and as
those only if it was told yes. -/
def alone (W : Wallet η) (b : Booking) (r : Registry) : Option (TaskEnd Response) × Registry :=
  match W.visit? b.request with
  | none => (none, r)
  | some v =>
    if b.cancelled then (none, v.effect b.heard r)
    else
      match (W.course v r).hear b.heard with
      | .ends (.finished turn) s => (some (.finished (respond turn)), s)
      | .ends (.panicked text) _ => (some (.panicked text), v.effect b.heard r)
      | .asks s _ _ => (none, s)

/-- **Serves queued requests one strictly after another**: the ends of their tasks, and the
registry they leave. -/
def serially (W : Wallet η) : List Booking → Registry → List (Option (TaskEnd Response)) × Registry
  | [], r => ([], r)
  | b :: rest, r =>
    let (e, r) := W.alone b r
    let (es, r) := W.serially rest r
    (e :: es, r)

variable {W : Wallet η} {request : Request} {v : Visit η} {r : Registry}

/-- A queued request is of a class that is queued, and names its origin and its client. -/
theorem of_visit? (h : W.visit? request = some v) :
    ∃ origin client, request.origin = some origin ∧ request.clientId = some client ∧
      (W.classifier.classify request.method).isQueued = true ∧
      v = ⟨W.classifier.classify request.method, origin, client, request, .forRequest request,
        Pipeline.dispatch W.behind⟩ := by
  unfold visit? at h
  split at h
  · next origin client horigin hclient =>
    split at h
    · next hqueued => exact ⟨origin, client, horigin, hclient, hqueued, (Option.some.inj h).symm⟩
    · simp at h
  · simp at h

/-- What a visit comes to when its network check has come to its end. -/
def handedOn (W : Wallet η) (v : Visit η) : Except Fault Unit → Registry → Course Turn
  | .error fault, r => .ends (.finished (.failed fault v.request v.response)) r
  | .ok (), r => .ends (W.computed v.request v.response r) r

/-- A visit that needs confirmation comes to what its network check comes to, and then to
what is handed on. -/
theorem course_eq_bind (h : v.kind = .requiresConfirmation) :
    W.course v r = (r.check v.origin v.client).bind (W.handedOn v) := by
  rw [course, if_pos h, Registry.check]
  cases r.chainOf v.client with
  | error fault => rfl
  | ok target =>
    cases r.selectedChain with
    | error fault => rfl
    | ok current =>
      dsimp only
      split
      · rfl
      · refine congrArg (Course.asks r _) (funext fun answer => ?_)
        cases answer <;> rfl

/-- **The job of a queued request follows its course.** -/
theorem follows_job (h : W.visit? request = some v) : (W.gate.job v).Follows r (W.course v r) := by
  obtain ⟨origin, client, _, _, _, rfl⟩ := of_visit? h
  rw [Gate.job, Gate.admitted]
  split
  · next hkind =>
    rw [course_eq_bind hkind]
    refine Program.follows_bind Gate.follows_ensureNetwork (fun passed s => ?_) fun passed s => ?_
    · cases passed with
      | error fault => rfl
      | ok u => exact W.computes _ _ s
    · cases passed <;> rfl
  · next hkind =>
    rw [course, if_neg hkind]
    exact W.computes _ _ r

/-- What follows a job when its slot is given up. -/
def leave (turn : Turn) : Program η Response := .done (respond turn)

/-- **A queued request** asks whether requests are queued, leaves a notice, and comes to the
queue. -/
theorem task_of_visit? (h : W.visit? request = some v) :
    ∃ next n, W.task request = .call .isQueueing next ∧
      next true = .call (.note n) fun _ => .enqueue W.queue (W.gate.job v) leave := by
  obtain ⟨origin, client, horigin, hclient, hqueued, rfl⟩ := of_visit? h
  have hhandle :=
    Gate.handle_of_isQueued W.gate (.forRequest request) (Pipeline.dispatch W.behind) horigin
    hclient hqueued
  rw [task, Pipeline.handle]
  dsimp only [Pipeline.dispatch]
  rw [hhandle]
  exact ⟨_, _, rfl, rfl⟩

/-- What is made of a turn at the end of a pipeline only reads. -/
theorem onlyReads_report (turn : Turn) : (Pipeline.report turn : Program η Unit).OnlyReads := by
  unfold Pipeline.report
  split
  · trivial
  · exact ⟨rfl, fun _ => trivial⟩

/-- **The task of any other request only reads.** -/
theorem onlyReads_task (h : W.visit? request = none) : (W.task request).OnlyReads := by
  refine Program.onlyReads_bind ?_ fun turn => Program.onlyReads_bind (onlyReads_report turn)
    fun _ => trivial
  dsimp only [Pipeline.dispatch]
  unfold Gate.handle
  split
  · trivial
  · next origin horigin =>
    split
    · trivial
    · next client hclient =>
      have hbypass : (W.classifier.classify request.method).isQueued = false := by
        simpa [visit?, horigin, hclient] using h
      refine ⟨rfl, fun queueing => ?_⟩
      have hnot : (W.gate.classifier.classify request.method).isQueued = false := hbypass
      cases queueing with
      | false => exact W.onlyReads _ _
      | true =>
        simp only [Program.bind, hnot]
        exact ⟨rfl, fun _ => W.onlyReads _ _⟩

/-! ### What a course leaves -/

/-- A visit asks nothing, or one question, and that only if its client has another chain
than the one selected. -/
theorem course_cases (W : Wallet η) (v : Visit η) (r : Registry) :
    (∃ e, W.course v r = .ends e r) ∨
      ∃ question, W.course v r = .asks r question (W.told v r) ∧
      r.chainOf v.client ≠ r.selectedChain := by
  unfold course
  split
  · cases hchain : r.chainOf v.client with
    | error fault => exact .inl ⟨_, rfl⟩
    | ok target =>
      cases hselected : r.selectedChain with
      | error fault => exact .inl ⟨_, rfl⟩
      | ok current =>
        dsimp only
        split
        · exact .inl ⟨_, rfl⟩
        · next hdiffers => exact .inr ⟨_, rfl, fun heq => hdiffers (Except.ok.inj heq)⟩
  · exact .inl ⟨_, rfl⟩

/-- The points a course comes to: its beginning, or its end once its question was answered. -/
theorem of_comes {questions : List Question} {answers : List (Except Fault Unit)} {c : Course Turn}
    (h : (W.course v r).Comes questions answers c) :
    (questions = [] ∧ answers = [] ∧ c = W.course v r) ∨
      ∃ question answer, W.course v r = .asks r question (W.told v r) ∧
      r.chainOf v.client ≠ r.selectedChain ∧
        questions = [question] ∧ answers = [answer] ∧ c = W.told v r answer := by
  have hcourse := W.course_cases v r
  induction h with
  | start => exact .inl ⟨rfl, rfl, rfl⟩
  | told before answer ih =>
    rcases ih with ⟨rfl, rfl, hstart⟩ | ⟨_, earlier, _, _, _, _, hended⟩
    · rcases hcourse with ⟨e, hends⟩ | ⟨question, hasks, hdiffers⟩
      · rw [hends] at hstart
        nomatch hstart
      · obtain ⟨rfl, rfl, rfl⟩ := Course.asks.inj (hstart.trans hasks)
        exact .inr ⟨_, answer, hasks, hdiffers, rfl, rfl, rfl⟩
    · -- a course that was told something has come to its end
      cases earlier <;> nomatch hended

/-- **All a queued request ever leaves of itself** is its switch and its binding, and those
only if the user said yes. -/
theorem registry_of_comes {questions : List Question} {answers : List (Except Fault Unit)}
    {c : Course Turn}
    (h : (W.course v r).Comes questions answers c) : c.registry = v.effect answers r := by
  rcases of_comes h with ⟨_, rfl, rfl⟩ | ⟨_, answer, _, _, _, rfl, rfl⟩
  · rcases W.course_cases v r with ⟨e, hends⟩ | ⟨_, hasks, _⟩
    · rw [hends]
      rfl
    · rw [hasks]
      rfl
  · cases answer <;> rfl

/-- The registry that a list of queued requests leaves. -/
def settled (W : Wallet η) (bs : List Booking) (r : Registry) : Registry :=
  bs.foldl (fun r b => (W.visit? b.request).elim r fun v => v.effect b.heard r) r

/-- A booking that was answered as it would be alone leaves its effect. -/
theorem registry_alone {b : Booking} {questions : List Question} {c : Course Turn}
    (hvisit : W.visit? b.request = some v) (h : (W.course v r).Comes questions b.heard c) :
    (W.alone b r).2 = v.effect b.heard r := by
  have hregistry := registry_of_comes h
  rw [alone, hvisit]
  dsimp only
  split
  · rfl
  · rw [h.hear_eq]
    rcases c with ⟨turn | text, s⟩ | ⟨s, question, next⟩
    · exact hregistry
    · rfl
    · exact hregistry

/-- **Serving one after another** leaves what each leaves, where each was answered as it
would be alone. -/
theorem serially_eq {bs : List Booking}
    (h : ∀ earlier b later, bs = earlier ++ b :: later → ∃ v questions c,
      W.visit? b.request = some v ∧
      (W.course v (W.settled earlier r)).Comes questions b.heard c) :
    (W.serially bs r).2 = W.settled bs r ∧
      ∀ earlier b later, bs = earlier ++ b :: later →
        (W.serially bs r).1[earlier.length]? = some (W.alone b (W.settled earlier r)).1 := by
  induction bs generalizing r with
  | nil => exact ⟨rfl, fun earlier b later heq => by simp at heq⟩
  | cons first rest ih =>
    obtain ⟨v, questions, c, hvisit, hcomes⟩ := h [] first rest rfl
    have hfirst : (W.alone first r).2 = W.settled [first] r := by
      have halone := registry_alone hvisit hcomes
      rw [settled, List.foldl_cons, List.foldl_nil, hvisit]
      exact halone
    have hsettled : ∀ bs, W.settled bs (W.alone first r).2 = W.settled (first :: bs) r := by
      intro bs
      rw [hfirst]
      rfl
    have hrest := ih (r := (W.alone first r).2) fun earlier b later heq => by
      rw [hsettled]
      exact h (first :: earlier) b later (by rw [heq, List.cons_append])
    refine ⟨by rw [serially, ← hsettled]; exact hrest.1, fun earlier b later heq => ?_⟩
    cases earlier with
    | nil =>
      obtain ⟨rfl, rfl⟩ := List.cons.inj heq
      rfl
    | cons e earlier =>
      obtain ⟨rfl, rfl⟩ := List.cons.inj heq
      rw [← hsettled]
      exact hrest.2 earlier b later rfl

end Wallet

end WalletGate
