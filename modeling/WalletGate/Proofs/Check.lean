import WalletGate.Gate
import WalletGate.Proofs.Consent
import WalletGate.Proofs.Networks
import WalletGate.Proofs.Rule

/-!
# A network check, seen among everything else that happens

A request that needs confirmation has its network checked while it holds the slot, and is
handed on when the check ends well.  The check asks the registry, asks the user, changes the
selection and binds the origin, each a step of its own, and between any two of them other
tasks move and things come from outside.

`Gate.Checks` and `Gate.Serves` follow a visit of a request to the gate through a history:
from the moment it has the slot until the check ends, and from there until the handlers
behind the gate are done.  A check goes through **stages** (`Gate.Stage`).  At each stage
something is known of the past: which chain the client had when it was looked up, which
chain was selected when that was asked, that the user said yes to this very request while
the check waited for it, that the selection was changed.

* `Gate.Begins.checks_or_serves` — whoever has the slot for such a visit is in its check, or
  serves it;
* `Gate.Checks.stage` — a check is always at one of its stages;
* `Gate.Stage.steps` — one step of a check leads to a stage, and touches the networks only
  if it is the change the user agreed to.
-/

namespace WalletGate

variable {η α β : Type}

/-- A request that comes to the gate, and the handlers behind the gate. -/
structure Visit (η : Type) : Type 1 where
  kind : MethodClass
  origin : Origin
  client : ClientId
  request : Request
  response : Response
  rest : Rest η

namespace Gate

/-- The gate of a wallet: it asks the wallet's own registry and desk.  Whether requests are
queued at all may be found out in any way. -/
def own (queue : Nat) (classifier : Classifier) (flag : Program η Bool) : Gate η :=
  ⟨queue, classifier, { Collaborators.own with isQueueing := flag }⟩

/-- What a visit does while it holds the slot. -/
def job (g : Gate η) (v : Visit η) : Program η Turn :=
  g.admitted v.kind v.origin v.client v.request v.response v.rest

/-- A request whose class is queued comes as a visit, when requests are queued at all. -/
theorem handle_of_isQueued (g : Gate η) {request : Request} {origin : Origin} {client : ClientId}
    (response : Response) (rest : Rest η) (horigin : request.origin = some origin)
    (hclient : request.clientId = some client)
    (hqueued : (g.classifier.classify request.method).isQueued = true) :
    g.handle request response rest = g.collaborators.isQueueing.bind fun queueing =>
      if queueing then
        (note (.enqueueing request.method origin (g.classifier.classify request.method))).bind
        fun _ =>
          .enqueue g.queue
            (g.job ⟨g.classifier.classify request.method, origin, client, request, response, rest⟩)
            fun turn => .done (settleFault turn)
      else rest request response := by
  simp [handle, route, job, horigin, hclient, hqueued]

/-- The task had the slot for a visit when this had happened, and had done nothing with it. -/
def Begins (g : Gate η) (c : Crew η α) (i : Nat) (v : Visit η) (begun : List (Act η α)) : Prop :=
  ∃ next, (c.after begun).thread? i = some (.holding g.queue (.fresh (g.job v)) next)

/-- The network check of a visit that needs confirmation began there, and this is left of it. -/
structure Checks (g : Gate η) (c : Crew η α) (i : Nat) (v : Visit η) (begun : List (Act η α))
    (s : Thread η (Except Fault Unit)) (h : List (Act η α)) : Prop where
  kind : v.kind = .requiresConfirmation
  begins : g.Begins c i v begun
  leads : c.Leads i (.fresh (g.ensureNetwork v.origin v.client)) begun s h

/-- The network check of a visit ended well, there the handlers behind the gate were
entered, and this is left of them. -/
structure Serves (g : Gate η) (c : Crew η α) (i : Nat) (v : Visit η) (entered : List (Act η α))
    (s : Thread η Turn) (h : List (Act η α)) : Prop where
  passed : ∃ begun, g.Checks c i v begun (.fresh (.done (.ok ()))) entered
  leads : c.Leads i (.fresh (v.rest v.request v.response)) entered s h

/-- What surrounds a network check: what comes after it in the job, the slot, and the rest
of the task. -/
def around (g : Gate η) (v : Visit η) (next : Turn → Program η α)
    (s : Thread η (Except Fault Unit)) : Thread η α :=
  .holding g.queue (s.bind (handOn v.request v.response v.rest)) next

theorem isFrame_around (g : Gate η) (v : Visit η) (next : Turn → Program η α) :
    Thread.IsFrame (g.around v next) :=
  Thread.isFrame_holding_bind g.queue _ next

/-- A job that needs confirmation begins with its network check. -/
theorem fresh_job (g : Gate η) {v : Visit η} (hkind : v.kind = .requiresConfirmation)
    (next : Turn → Program η α) :
    Thread.holding g.queue (.fresh (g.job v)) next
      = g.around v next (.fresh (g.ensureNetwork v.origin v.client)) := by
  simp [job, admitted, hkind, around, Thread.bind]

/-- **A check is where its task is.** -/
theorem Checks.thread?_eq {g : Gate η} {c : Crew η α} {i : Nat} {v : Visit η}
    {begun : List (Act η α)}
    {s : Thread η (Except Fault Unit)} {h : List (Act η α)} (hchecks : g.Checks c i v begun s h) :
    ∃ next, (c.after h).thread? i = some (g.around v next s) := by
  obtain ⟨next, ht⟩ := hchecks.begins
  rw [fresh_job g hchecks.kind] at ht
  exact ⟨next, hchecks.leads.thread?_eq (g.isFrame_around v next) (fun _ => rfl) ht⟩

/-- **The handlers behind the gate are where their task is.** -/
theorem Serves.thread?_eq {g : Gate η} {c : Crew η α} {i : Nat} {v : Visit η}
    {entered : List (Act η α)}
    {s : Thread η Turn} {h : List (Act η α)} (hserves : g.Serves c i v entered s h) :
    ∃ next, (c.after h).thread? i = some (.holding g.queue s next) := by
  obtain ⟨begun, hchecks⟩ := hserves.passed
  obtain ⟨next, ht⟩ := hchecks.thread?_eq
  exact ⟨next, hserves.leads.thread?_eq (Thread.isFrame_holding g.queue next) (fun _ => rfl) ht⟩

/-- A check that has come to its end and is gone on from has ended well. -/
theorem eq_ok_of_ended {v : Visit η} {s : Thread η (Except Fault Unit)}
    {e : TaskEnd (Except Fault Unit)} (hended : s.ended? = some e)
    (hopen : (s.bind (handOn v.request v.response v.rest)).ended? = none) :
    s = .fresh (.done (.ok ())) := by
  obtain ⟨passed, rfl, -⟩ | ⟨text, rfl, -⟩ := Thread.eq_fresh_of_ended hended
  · cases passed with
    | error fault => cases hopen
    | ok u => rfl
  · cases hopen

/-- A check is gone on from as it would be alone. -/
theorem after_bind_handOn {v : Visit η} {s : Thread η (Except Fault Unit)} (hs : s.ended? = none)
    (w : World η) : (s.bind (handOn v.request v.response v.rest)).after w
      = (s.after w).bind (handOn v.request v.response v.rest) := by
  rw [Thread.after, Thread.after, Thread.move_bind _ w hs]
  cases s.move w <;> rfl

/-- **Whoever has the slot for a visit that needs confirmation is in its check, or serves
it.**  The job of the visit has begun, and this is what it has come to.  Either it is what
is left of the check, with what comes after it in the job; or the check has ended well, and
it is what is left of the handlers behind the gate. -/
theorem Begins.checks_or_serves {g : Gate η} {c : Crew η α} {i : Nat} {v : Visit η}
    {begun h : List (Act η α)} {t : Thread η Turn} (hbegins : g.Begins c i v begun)
    (hkind : v.kind = .requiresConfirmation) (hleads : c.Leads i (.fresh (g.job v)) begun t h) :
    (∃ s, g.Checks c i v begun s h ∧ t = s.bind (handOn v.request v.response v.rest)) ∨
      ∃ entered, g.Serves c i v entered t h := by
  induction hleads with
  | start =>
    refine .inl ⟨.fresh (g.ensureNetwork v.origin v.client), ⟨hkind, hbegins, .start⟩, ?_⟩
    simp [job, admitted, hkind, Thread.bind]
  | @went t h _ ht ih =>
    rcases ih with ⟨s, hchecks, rfl⟩ | ⟨entered, hserves⟩
    · cases hs : s.ended? with
      | none =>
        exact .inl ⟨_, ⟨hkind, hbegins, hchecks.leads.went hs⟩, after_bind_handOn hs _⟩
      | some e =>
        -- the job goes on, so the check has ended well, and the handlers are entered here
        obtain rfl := eq_ok_of_ended hs ht
        exact .inr ⟨h, ⟨begun, hchecks⟩, .went .start ht⟩
    · exact .inr ⟨entered, hserves.passed, hserves.leads.went ht⟩
  | stayed _ hgo hdrop ih =>
    rcases ih with ⟨s, hchecks, rfl⟩ | ⟨entered, hserves⟩
    · exact .inl ⟨s, ⟨hkind, hbegins, hchecks.leads.stayed hgo hdrop⟩, rfl⟩
    · exact .inr ⟨entered, hserves.passed, hserves.leads.stayed hgo hdrop⟩

end Gate

/-- The user said yes to a request while a thread waited for it. -/
inductive Crew.Consented (c : Crew η α) (i : Nat) (s₀ : Thread η β) (h₀ : List (Act η α))
    (request : ApprovalRequest) : List (Act η α) → Prop
  | accepted {id : ApprovalId} {requester : Nat} {deadline : Option Nat}
    {next : Except Fault Unit → Program η β} {h : List (Act η α)}
    (asked : c.Leads i s₀ h₀ (.asking requester deadline request next) h)
    (parked : (c.after h).world.desk.find? id = some ⟨request, requester⟩) :
    Consented c i s₀ h₀ request (.outside (.accept id) :: h)
  | earlier {h : List (Act η α)} (a : Act η α) (before : Consented c i s₀ h₀ request h) :
    Consented c i s₀ h₀ request (a :: h)

/-- Something held of the registry, and ever since the task has held the slot and touched no
network. -/
def Crew.Since (queue : Nat) (c : Crew η α) (i : Nat) (holds : Registry → Prop)
    (h : List (Act η α)) : Prop :=
  ∃ p, Crew.Calm queue c i p h ∧ holds (c.after p).world.registry

namespace Crew

variable {queue i : Nat} {c : Crew η α} {holds : Registry → Prop} {h : List (Act η α)} {a : Act η α}

theorem Since.now (hslot : .runs ∈ (c.after h).placesOf queue i)
    (hholds : holds (c.after h).world.registry) :
    Since queue c i holds h :=
  ⟨h, .start hslot, hholds⟩

theorem Since.other (hsince : Since queue c i holds h) (hgo : a ≠ .go i) (hdrop : a ≠ .drop i) :
    Since queue c i holds (a :: h) := by
  obtain ⟨p, hcalm, hp⟩ := hsince
  exact ⟨p, hcalm.other hgo hdrop, hp⟩

theorem Since.own (hsince : Since queue c i holds h)
    (hsame : (c.after h).world.registry.SameNetworks (c.after (.go i :: h)).world.registry)
    (hslot : .runs ∈ (c.after (.go i :: h)).placesOf queue i) :
    Since queue c i holds (.go i :: h) := by
  obtain ⟨p, hcalm, hp⟩ := hsince
  exact ⟨p, hcalm.own hsame hslot, hp⟩

end Crew

/-- A request for approval names the origin and the client of a visit, and these chains. -/
structure Visit.Names (v : Visit η) (current target : ChainId)
    (request : ApprovalRequest) : Prop where
  origin : request.origin = v.origin
  fromChain : request.proposal.fromChain = current
  toChain : request.proposal.toChain = target
  toClient : request.proposal.toClient = v.client

namespace Gate

/-- All that is left is to say that the check failed. -/
inductive Fails : Program η (Except Fault Unit) → Prop
  | done (fault : Fault) : Fails (.done (.error fault))
  | note (n : Notice) (fault : Fault) : Fails (.call (.note n) fun _ => .done (.error fault))

variable {queue : Nat} {classifier : Classifier} {flag : Program η Bool} {c : Crew η α} {i : Nat}
  {v : Visit η} {h₀ h : List (Act η α)} {s : Thread η (Except Fault Unit)}

/-- The client had this chain when the check made its first step, and ever since the task
has held the slot and touched no network. -/
def Looked (queue : Nat) (classifier : Classifier) (flag : Program η Bool) (c : Crew η α) (i : Nat)
    (v : Visit η) (h₀ : List (Act η α)) (target : ChainId) (h : List (Act η α)) : Prop :=
  ∃ p, .go i :: p <:+ h ∧
    c.Leads i (.fresh ((own queue classifier flag).ensureNetwork v.origin v.client)) h₀
      (.fresh ((own queue classifier flag).ensureNetwork v.origin v.client)) p ∧
    Crew.Calm queue c i p h ∧ (c.after p).world.registry.chainOf v.client = .ok target

namespace Looked

variable {target : ChainId} {a : Act η α}

/-- The first step of a check. -/
theorem first
    (hlead : c.Leads i
      (.fresh ((Gate.own queue classifier flag).ensureNetwork v.origin v.client)) h₀
      (.fresh ((Gate.own queue classifier flag).ensureNetwork v.origin v.client)) h)
    (hchain : (c.after h).world.registry.chainOf v.client = .ok target)
    (hslot : .runs ∈ (c.after h).placesOf queue i)
    (hsame : (c.after h).world.registry.SameNetworks (c.after (.go i :: h)).world.registry)
    (hslot' : .runs ∈ (c.after (.go i :: h)).placesOf queue i) :
    Looked queue classifier flag c i v h₀ target (.go i :: h) :=
  ⟨h, List.suffix_refl _, hlead, (Crew.Calm.start hslot).own hsame hslot', hchain⟩

theorem other (hlooked : Looked queue classifier flag c i v h₀ target h) (hgo : a ≠ .go i)
    (hdrop : a ≠ .drop i) : Looked queue classifier flag c i v h₀ target (a :: h) := by
  obtain ⟨p, hfirst, hlead, hcalm, hp⟩ := hlooked
  exact ⟨p, hfirst.trans (List.suffix_cons a h), hlead, hcalm.other hgo hdrop, hp⟩

theorem own (hlooked : Looked queue classifier flag c i v h₀ target h)
    (hsame : (c.after h).world.registry.SameNetworks (c.after (.go i :: h)).world.registry)
    (hslot : .runs ∈ (c.after (.go i :: h)).placesOf queue i) :
    Looked queue classifier flag c i v h₀ target (.go i :: h) := by
  obtain ⟨p, hfirst, hlead, hcalm, hp⟩ := hlooked
  exact ⟨p, hfirst.trans (List.suffix_cons _ h), hlead, hcalm.own hsame hslot, hp⟩

/-- What was looked up held at one moment, and the task has touched no network since. -/
theorem since (hlooked : Looked queue classifier flag c i v h₀ target h) :
    c.Since queue i (fun r => r.chainOf v.client = .ok target) h := by
  obtain ⟨p, _, _, hcalm, hp⟩ := hlooked
  exact ⟨p, hcalm, hp⟩

end Looked

/-- This chain was selected when the check asked. -/
def Saw (queue : Nat) (c : Crew η α) (i : Nat) (current : ChainId) (h : List (Act η α)) : Prop :=
  c.Since queue i (fun r => r.selectedChain = .ok current) h

/-- The client of the visit was selected, and there was such a client. -/
def Switched (queue : Nat) (c : Crew η α) (i : Nat) (v : Visit η) (h : List (Act η α)) : Prop :=
  c.Since queue i (fun r => r.selected = v.client ∧ ∃ chain, r.chainOf v.client = .ok chain) h

/-- The stages of a network check, and what is known at each of them. -/
inductive Stage (queue : Nat) (classifier : Classifier) (flag : Program η Bool)
    (c : Crew η α) (i : Nat)
    (v : Visit η) (h₀ : List (Act η α)) : Thread η (Except Fault Unit) → List (Act η α) → Prop
  /-- The client is looked up. -/
  | looking {h : List (Act η α)} :
    Stage queue classifier flag c i v h₀
      (.fresh ((own queue classifier flag).ensureNetwork v.origin v.client)) h
  /-- The selected chain is asked for. -/
  | seeing {h : List (Act η α)} {target : ChainId}
    (looked : Looked queue classifier flag c i v h₀ target h) :
    Stage queue classifier flag c i v h₀
      (.fresh ((own queue classifier flag).targeted v.origin v.client (.ok target))) h
  /-- The two chains are the same. -/
  | agreeing {h : List (Act η α)} {chain : ChainId}
    (looked : Looked queue classifier flag c i v h₀ chain h) (saw : Saw queue c i chain h) :
    Stage queue classifier flag c i v h₀
      (.fresh (.call (.note (.onSelectedNetwork v.origin chain)) fun _ => .done (.ok ()))) h
  /-- They differ: the network has to be changed. -/
  | differing {h : List (Act η α)} {current target : ChainId}
    (looked : Looked queue classifier flag c i v h₀ target h) (saw : Saw queue c i current h) :
    Stage queue classifier flag c i v h₀
      (.fresh ((own queue classifier flag).changeNetwork v.origin v.client current target)) h
  /-- The request for approval is drawn up. -/
  | drafting {h : List (Act η α)} {current target : ChainId}
    (looked : Looked queue classifier flag c i v h₀ target h) (saw : Saw queue c i current h) :
    Stage queue classifier flag c i v h₀
      (.fresh (.call (.draft v.origin current target v.client) fun request =>
        .ask request ((own queue classifier flag).decided v.origin v.client current target))) h
  /-- It is parked. -/
  | parking {h : List (Act η α)} {current target : ChainId} {request : ApprovalRequest}
    (looked : Looked queue classifier flag c i v h₀ target h) (saw : Saw queue c i current h)
    (names : v.Names current target request) :
    Stage queue classifier flag c i v h₀
      (.fresh (.ask request ((own queue classifier flag).decided v.origin v.client current target)))
      h
  /-- The user is asked. -/
  | asking {h : List (Act η α)} {current target : ChainId} {requester : Nat} {deadline : Option Nat}
    {request : ApprovalRequest} (looked : Looked queue classifier flag c i v h₀ target h)
    (saw : Saw queue c i current h) (names : v.Names current target request)
    (awaits : (c.after h).world.desk.Awaits requester request
      (c.Consented i (.fresh ((own queue classifier flag).ensureNetwork v.origin v.client)) h₀
        request h)) :
    Stage queue classifier flag c i v h₀
      (.asking requester deadline request
        ((own queue classifier flag).decided v.origin v.client current target)) h
  /-- The user said yes: the client is selected. -/
  | switching {h : List (Act η α)} {current target : ChainId} {request : ApprovalRequest}
    (looked : Looked queue classifier flag c i v h₀ target h) (saw : Saw queue c i current h)
    (names : v.Names current target request)
    (consented :
      c.Consented i (.fresh ((own queue classifier flag).ensureNetwork v.origin v.client)) h₀
      request h) :
    Stage queue classifier flag c i v h₀
      (.fresh ((own queue classifier flag).decided v.origin v.client current target (.ok ()))) h
  /-- The origin is bound. -/
  | binding {h : List (Act η α)} {current target : ChainId} (switched : Switched queue c i v h) :
    Stage queue classifier flag c i v h₀
      (.fresh ((own queue classifier flag).switched v.origin v.client current target (.ok ()))) h
  /-- The change is noted. -/
  | noting {h : List (Act η α)} {current target : ChainId} (switched : Switched queue c i v h) :
    Stage queue classifier flag c i v h₀
      (.fresh (bound v.origin v.client current target (.ok ()))) h
  /-- The check has ended well. -/
  | passed {h : List (Act η α)}
    (right : (∃ chain, Looked queue classifier flag c i v h₀ chain h ∧ Saw queue c i chain h) ∨
      Switched queue c i v h) :
    Stage queue classifier flag c i v h₀ (.fresh (.done (.ok ()))) h
  /-- The check fails. -/
  | failing {h : List (Act η α)} {p : Program η (Except Fault Unit)} (fails : Fails p) :
    Stage queue classifier flag c i v h₀ (.fresh p) h

/-- **The others move.**  What is known at a stage stays known. -/
theorem Stage.other {a : Act η α} (hstage : Stage queue classifier flag c i v h₀ s h)
    (hlead : c.Leads i
      (.fresh ((own queue classifier flag).ensureNetwork v.origin v.client)) h₀ s h)
    (hgo : a ≠ .go i) (hdrop : a ≠ .drop i) : Stage queue classifier flag c i v h₀ s (a :: h) := by
  cases hstage with
  | looking => exact .looking
  | seeing looked => exact .seeing (looked.other hgo hdrop)
  | agreeing looked saw => exact .agreeing (looked.other hgo hdrop) (saw.other hgo hdrop)
  | differing looked saw => exact .differing (looked.other hgo hdrop) (saw.other hgo hdrop)
  | drafting looked saw => exact .drafting (looked.other hgo hdrop) (saw.other hgo hdrop)
  | parking looked saw names => exact .parking (looked.other hgo hdrop) (saw.other hgo hdrop) names
  | asking looked saw names awaits =>
    refine .asking (looked.other hgo hdrop) (saw.other hgo hdrop) names ?_
    refine Crew.awaits_perform (awaits.imp (Crew.Consented.earlier a)) fun id ha hfind => ?_
    subst ha
    exact .accepted hlead hfind
  | switching looked saw names consented =>
    exact .switching (looked.other hgo hdrop) (saw.other hgo hdrop) names (consented.earlier a)
  | binding switched => exact .binding (switched.other hgo hdrop)
  | noting switched => exact .noting (switched.other hgo hdrop)
  | passed right =>
    refine .passed (right.imp ?_ fun switched => switched.other hgo hdrop)
    rintro ⟨chain, looked, saw⟩
    exact ⟨chain, looked.other hgo hdrop, saw.other hgo hdrop⟩
  | failing fails => exact .failing fails

/-- A check holds the slot. -/
theorem runs_of_around {next : Turn → Program η α}
    (ht : (c.after h).thread? i = some ((own queue classifier flag).around v next s)) :
    .runs ∈ (c.after h).placesOf queue i := by
  rw [Crew.placesOf, ht]
  simp [around, own, Thread.places]

/-- A check that goes holds the slot behind its step too. -/
theorem runs_of_around_go {next : Turn → Program η α}
    (ht : (c.after h).thread? i = some ((own queue classifier flag).around v next s))
    (hs : s.ended? = none) : .runs ∈ (c.after (.go i :: h)).placesOf queue i :=
  runs_of_around (Crew.thread?_go_frame (isFrame_around _ v next) (fun _ => rfl) ht hs)

/-- The world behind a step of a check is the one behind the move of what is left of it. -/
theorem world_of_around {next : Turn → Program η α} {m : Move η (Except Fault Unit)}
    (ht : (c.after h).thread? i = some ((own queue classifier flag).around v next s))
    (hm : s.move (c.after h).world = some m) : (c.after (.go i :: h)).world = m.world :=
  Crew.world_go_frame (isFrame_around _ v next) ht hm

/-- The check is where the user's yes lets it change the selection, and this is known. -/
structure Agreed (queue : Nat) (classifier : Classifier) (flag : Program η Bool)
    (c : Crew η α) (i : Nat)
    (v : Visit η) (h₀ : List (Act η α)) (current target : ChainId) (request : ApprovalRequest)
    (h : List (Act η α)) : Prop where
  looked : Looked queue classifier flag c i v h₀ target h
  saw : Saw queue c i current h
  names : v.Names current target request
  consented :
    c.Consented i (.fresh ((own queue classifier flag).ensureNetwork v.origin v.client))
    h₀ request h

/-- What a step of a check leads to: another stage, with the networks untouched unless the
user agreed. -/
def Steps (queue : Nat) (classifier : Classifier) (flag : Program η Bool) (c : Crew η α) (i : Nat)
    (v : Visit η) (h₀ : List (Act η α)) (s : Thread η (Except Fault Unit))
    (h : List (Act η α)) : Prop :=
  Stage queue classifier flag c i v h₀ (s.after (c.after h).world) (.go i :: h) ∧
    ((c.after h).world.registry.SameNetworks (c.after (.go i :: h)).world.registry ∨
      ∃ current target request,
        s = .fresh ((own queue classifier flag).decided v.origin v.client current target (.ok ())) ∧
          Agreed queue classifier flag c i v h₀ current target request h)

/-- A step that asks something and leaves the networks alone. -/
theorem Steps.of_call {β : Type} {k : Call β} {f : β → Program η (Except Fault Unit)}
    {next : Turn → Program η α}
    (ht : (c.after h).thread? i
      = some ((own queue classifier flag).around v next (.fresh (.call k f))))
    (hsame : ∀ w : World η, w.registry.SameNetworks (k.answer w).2.registry)
    (hstage : (c.after h).world.registry.SameNetworks (c.after (.go i :: h)).world.registry →
      .runs ∈ (c.after h).placesOf queue i → .runs ∈ (c.after (.go i :: h)).placesOf queue i →
      Stage queue classifier flag c i v h₀ (.fresh (f (k.answer (c.after h).world).1))
      (.go i :: h)) :
    Steps queue classifier flag c i v h₀ (.fresh (.call k f)) h := by
  have hworld := world_of_around ht (m := ⟨none, .fresh (f (k.answer (c.after h).world).1),
    (k.answer (c.after h).world).2⟩) rfl
  have hnetworks : (c.after h).world.registry.SameNetworks
      (c.after (.go i :: h)).world.registry := by
    rw [hworld]
    exact hsame _
  exact ⟨hstage hnetworks (runs_of_around ht) (runs_of_around_go ht rfl), .inl hnetworks⟩

/-- **The selected chain is asked for.** -/
theorem steps_seeing {next : Turn → Program η α} {target : ChainId}
    (ht : (c.after h).thread? i = some ((own queue classifier flag).around v next
      (.fresh ((own queue classifier flag).targeted v.origin v.client (.ok target)))))
    (looked : (c.after h).world.registry.SameNetworks (c.after (.go i :: h)).world.registry →
      .runs ∈ (c.after h).placesOf queue i → .runs ∈ (c.after (.go i :: h)).placesOf queue i →
      Looked queue classifier flag c i v h₀ target (.go i :: h)) :
    Steps queue classifier flag c i v h₀
      (.fresh ((own queue classifier flag).targeted v.origin v.client (.ok target))) h := by
  refine Steps.of_call (k := .selectedChain)
    (f := (own queue classifier flag).compared v.origin v.client target) ht (fun _ => .refl _)
    fun hsame hruns hruns' => ?_
  have looked := looked hsame hruns hruns'
  cases hchain : (c.after h).world.registry.selectedChain with
  | error fault =>
    simp only [Call.answer, hchain, compared]
    exact .failing (.done fault)
  | ok current =>
    have saw : Saw queue c i current (.go i :: h) := (Crew.Since.now hruns hchain).own hsame hruns'
    simp only [Call.answer, hchain, compared]
    split
    · next heq =>
      subst heq
      exact .agreeing looked saw
    · exact .differing looked saw

/-- The chain of a built-in client need not be looked up. -/
theorem ensureNetwork_of_builtIn (queue : Nat) (classifier : Classifier) (flag : Program η Bool)
    (origin : Origin) {client : ClientId} {network : BuiltIn}
    (hclient : BuiltIn.ofClientId? client = some network) :
    (own queue classifier flag).ensureNetwork origin client
      = (own queue classifier flag).targeted origin client (.ok network.chainId) := by
  simp [ensureNetwork, targetChain, hclient]

/-- The chain of any other client is looked up, and the check fails if there is no such
client. -/
theorem ensureNetwork_of_custom (queue : Nat) (classifier : Classifier) (flag : Program η Bool)
    (origin : Origin) {client : ClientId} (hclient : BuiltIn.ofClientId? client = none) :
    ∃ f, (own queue classifier flag).ensureNetwork origin client = .call (.clientConfig client) f ∧
      (∀ config, f (.ok config)
        = (own queue classifier flag).targeted origin client (.ok config.chainId)) ∧
      ∀ fault, f (.error fault)
        = .call (.note (.lookupFailed client fault)) fun _ => .done (.error fault) := by
  rw [ensureNetwork, targetChain, hclient]
  exact ⟨_, rfl, fun _ => rfl, fun _ => rfl⟩

/-- A check begins with a question about networks. -/
theorem ensureNetwork_eq_call (queue : Nat) (classifier : Classifier) (flag : Program η Bool)
    (origin : Origin) (client : ClientId) :
    (∃ f, (own queue classifier flag).ensureNetwork origin client = .call .selectedChain f) ∨
      ∃ f, (own queue classifier flag).ensureNetwork origin client
        = .call (.clientConfig client) f := by
  cases hclient : BuiltIn.ofClientId? client with
  | some network =>
    rw [ensureNetwork_of_builtIn queue classifier flag origin hclient]
    exact .inl ⟨_, rfl⟩
  | none =>
    obtain ⟨f, hf, _⟩ := ensureNetwork_of_custom queue classifier flag origin hclient
    exact .inr ⟨f, hf⟩

/-- **The client is looked up.** -/
theorem steps_looking {next : Turn → Program η α}
    (hlead : c.Leads i (.fresh ((own queue classifier flag).ensureNetwork v.origin v.client)) h₀
      (.fresh ((own queue classifier flag).ensureNetwork v.origin v.client)) h)
    (ht : (c.after h).thread? i = some ((own queue classifier flag).around v next
      (.fresh ((own queue classifier flag).ensureNetwork v.origin v.client)))) :
    Steps queue classifier flag c i v h₀
      (.fresh ((own queue classifier flag).ensureNetwork v.origin v.client)) h := by
  cases hclient : BuiltIn.ofClientId? v.client with
  | some network =>
    rw [ensureNetwork_of_builtIn queue classifier flag v.origin hclient] at ht ⊢
    exact steps_seeing ht fun hsame hruns hruns' =>
      .first hlead (Registry.chainOf_builtIn hclient _) hruns hsame hruns'
  | none =>
    obtain ⟨f, hf, hok, herror⟩ := ensureNetwork_of_custom queue classifier flag v.origin hclient
    rw [hf] at ht ⊢
    refine Steps.of_call ht (fun _ => .refl _) fun hsame hruns hruns' => ?_
    cases hconfig : (c.after h).world.registry.clientConfig v.client with
    | error fault =>
      simp only [Call.answer, hconfig, herror]
      exact .failing (.note _ fault)
    | ok config =>
      have hchain : (c.after h).world.registry.chainOf v.client = .ok config.chainId := by
        rw [Registry.chainOf, hconfig]
        rfl
      simp only [Call.answer, hconfig, hok]
      exact .seeing (.first hlead hchain hruns hsame hruns')

/-- **The request is parked**, and the user is asked. -/
theorem steps_parking {next : Turn → Program η α} {current target : ChainId}
    {request : ApprovalRequest}
    (ht : (c.after h).thread? i = some ((own queue classifier flag).around v next
      (.fresh
        (.ask request ((own queue classifier flag).decided v.origin v.client current target)))))
    (hdesk : (c.after h).world.desk.Sound)
    (looked : Looked queue classifier flag c i v h₀ target h) (saw : Saw queue c i current h)
    (names : v.Names current target request) :
    Steps queue classifier flag c i v h₀
      (.fresh (.ask request ((own queue classifier flag).decided v.origin v.client current target)))
      h := by
  have hworld : (c.after (.go i :: h)).world = ((c.after h).world.park request).2.2 :=
    world_of_around ht rfl
  have hruns' := runs_of_around_go ht rfl
  have hsame : (c.after h).world.registry.SameNetworks (c.after (.go i :: h)).world.registry := by
    rw [hworld]
    exact .refl _
  refine ⟨.asking (looked.own hsame hruns') (saw.own hsame hruns') names ?_, .inl hsame⟩
  rw [hworld]
  exact (hdesk.awaits_park request).imp False.elim

/-- **The user is asked**: the check waits, or it has its answer. -/
theorem steps_asking {next : Turn → Program η α} {current target : ChainId} {requester : Nat}
    {deadline : Option Nat} {request : ApprovalRequest}
    (ht : (c.after h).thread? i = some ((own queue classifier flag).around v next
      (.asking requester deadline request
        ((own queue classifier flag).decided v.origin v.client current target))))
    (looked : Looked queue classifier flag c i v h₀ target h) (saw : Saw queue c i current h)
    (names : v.Names current target request)
    (awaits : (c.after h).world.desk.Awaits requester request
      (c.Consented i (.fresh ((own queue classifier flag).ensureNetwork v.origin v.client)) h₀
        request h)) :
    Steps queue classifier flag c i v h₀
      (.asking requester deadline request
        ((own queue classifier flag).decided v.origin v.client current target)) h := by
  have hruns' := runs_of_around_go ht rfl
  cases hlook : (c.after h).world.look requester deadline with
  | none =>
    have hmove : (Thread.asking requester deadline request
        ((own queue classifier flag).decided v.origin v.client current target)).move
        (c.after h).world
          = none := by
      rw [Thread.move, hlook]
      rfl
    have hworld : (c.after (.go i :: h)).world = (c.after h).world :=
      Crew.world_go_frame_of_stuck (isFrame_around _ v next) (fun _ => rfl) ht rfl hmove
    have hsame : (c.after h).world.registry.SameNetworks (c.after (.go i :: h)).world.registry := by
      rw [hworld]
      exact .refl _
    refine ⟨?_, .inl hsame⟩
    rw [Thread.after, hmove]
    refine .asking (looked.own hsame hruns') (saw.own hsame hruns') names ?_
    rw [hworld]
    exact awaits.imp (Crew.Consented.earlier _)
  | some ending =>
    have hmove : (Thread.asking requester deadline request
        ((own queue classifier flag).decided v.origin v.client current target)).move
        (c.after h).world
          = some ⟨none,
              .fresh ((own queue classifier flag).decided v.origin v.client current target
                ((c.after h).world.conclude requester request ending).1),
              ((c.after h).world.conclude requester request ending).2⟩ := by
      rw [Thread.move, hlook]
      rfl
    have hsame : (c.after h).world.registry.SameNetworks (c.after (.go i :: h)).world.registry := by
      rw [world_of_around ht hmove]
      exact .refl _
    refine ⟨?_, .inl hsame⟩
    rw [Thread.after, hmove]
    cases hanswer : ((c.after h).world.conclude requester request ending).1 with
    | error fault => exact .failing (.note _ fault)
    | ok u =>
      have hyes := awaits.accepted (World.accepted_of_conclude hlook hanswer)
      exact .switching (looked.own hsame hruns') (saw.own hsame hruns') names (hyes.earlier _)

/-- The answer to the selection of a client: it is selected if there is such a client, else
nothing changes. -/
theorem registry_switchTo (queue : Nat) (classifier : Classifier) (flag : Program η Bool)
    (client : ClientId) (w : World η) :
    ∃ k : Call (Except Fault Unit),
      (own queue classifier flag).switchTo client = .call k .done ∧
      ((∃ chain, w.registry.chainOf client = .ok chain) ∧ (k.answer w).1 = .ok () ∧
          (k.answer w).2.registry = { w.registry with selected := client } ∨
        ∃ fault, w.registry.chainOf client = .error (Registry.unknownClient client) ∧
          (k.answer w).1 = .error fault ∧ (k.answer w).2 = w) := by
  cases hclient : BuiltIn.ofClientId? client with
  | some network =>
    have hid := BuiltIn.clientId_of_ofClientId hclient
    refine ⟨.switchToBuiltIn network, ?_, .inl ⟨⟨_, Registry.chainOf_builtIn hclient _⟩, rfl, ?_⟩⟩
    · rw [switchTo, hclient]
      rfl
    · rw [← hid]
      rfl
  | none =>
    refine ⟨.switchToCustom client, ?_, ?_⟩
    · rw [switchTo, hclient]
      rfl
    · cases hcustom : w.registry.custom client with
      | none =>
        refine .inr
          ⟨.switchActuation ("unknown custom network client '" ++ client.name ++ "'"), ?_, ?_, ?_⟩
        · simp [Registry.chainOf, Registry.clientConfig, Registry.resolve, hclient,
            hcustom, Except.map]
        · simp [Call.answer, World.onRegistry, Registry.switchToCustom, hcustom]
        · simp [Call.answer, World.onRegistry, Registry.switchToCustom, hcustom]
      | some config =>
        refine .inl ⟨⟨config.chainId, ?_⟩, ?_, ?_⟩
        · simp [Registry.chainOf, Registry.clientConfig, Registry.resolve, hclient,
            hcustom, Except.map]
        · simp [Call.answer, World.onRegistry, Registry.switchToCustom, hcustom]
        · simp [Call.answer, World.onRegistry, Registry.switchToCustom, hcustom, World.note]

/-- **The selection is changed**, if there is such a client. -/
theorem registry_switching {next : Turn → Program η α} {current target : ChainId}
    (ht : (c.after h).thread? i = some ((own queue classifier flag).around v next
      (.fresh ((own queue classifier flag).decided v.origin v.client current target (.ok ()))))) :
    (∃ chain, (c.after h).world.registry.chainOf v.client = .ok chain) ∧
        (c.after (.go i :: h)).world.registry
          = { (c.after h).world.registry with selected := v.client } ∧
        (Thread.fresh ((own queue classifier flag).decided v.origin v.client current target
          (.ok ()))).after (c.after h).world
            = .fresh
              ((own queue classifier flag).switched v.origin v.client current target (.ok ())) ∨
      ∃ fault, (c.after h).world.registry.chainOf v.client
        = .error (Registry.unknownClient v.client) ∧
        (c.after (.go i :: h)).world.registry = (c.after h).world.registry ∧
        (Thread.fresh ((own queue classifier flag).decided v.origin v.client current target
          (.ok ()))).after (c.after h).world
            = .fresh ((own queue classifier flag).switched v.origin v.client current target
              (.error fault)) := by
  obtain ⟨k, hswitch, hanswer⟩ := registry_switchTo queue classifier flag v.client (c.after h).world
  have hprogram : (own queue classifier flag).decided v.origin v.client current target (.ok ())
      = .call k ((own queue classifier flag).switched v.origin v.client current target) := by
    rw [decided, hswitch]
    rfl
  rw [hprogram] at ht ⊢
  have hworld : (c.after (.go i :: h)).world = (k.answer (c.after h).world).2 :=
    world_of_around ht rfl
  rw [hworld]
  rcases hanswer with ⟨hchain, hok, hregistry⟩ | ⟨fault, hchain, herror, hsame⟩
  · refine .inl ⟨hchain, hregistry, ?_⟩
    rw [← hok]
    rfl
  · refine .inr ⟨fault, hchain, congrArg World.registry hsame, ?_⟩
    rw [← herror]
    rfl

/-- **One step of a check.** -/
theorem Stage.steps {next : Turn → Program η α} (hstage : Stage queue classifier flag c i v h₀ s h)
    (hlead : c.Leads i
      (.fresh ((own queue classifier flag).ensureNetwork v.origin v.client)) h₀ s h)
    (ht : (c.after h).thread? i = some ((own queue classifier flag).around v next s))
    (hs : s.ended? = none) (hdesk : (c.after h).world.desk.Sound) :
    Steps queue classifier flag c i v h₀ s h := by
  cases hstage with
  | looking => exact steps_looking hlead ht
  | seeing looked => exact steps_seeing ht fun hsame _ hruns' => looked.own hsame hruns'
  | agreeing looked saw =>
    exact Steps.of_call ht (fun _ => .refl _) fun hsame _ hruns' =>
      .passed (.inl ⟨_, looked.own hsame hruns', saw.own hsame hruns'⟩)
  | @differing _ current target looked saw =>
    exact Steps.of_call (k := .note (.wantsApproval v.origin current target v.client)) ht
      (fun _ => .refl _) fun hsame _ hruns' => .drafting (looked.own hsame hruns')
      (saw.own hsame hruns')
  | drafting looked saw =>
    exact Steps.of_call ht (fun _ => .refl _) fun hsame _ hruns' =>
      .parking (looked.own hsame hruns') (saw.own hsame hruns') ⟨rfl, rfl, rfl, rfl⟩
  | parking looked saw names => exact steps_parking ht hdesk looked saw names
  | asking looked saw names awaits => exact steps_asking ht looked saw names awaits
  | @switching _ current target request looked saw names consented =>
    refine ⟨?_, .inr ⟨current, target, request, rfl, looked, saw, names, consented⟩⟩
    rcases registry_switching ht with ⟨⟨chain, hchain⟩, hregistry, hafter⟩ | ⟨fault, _, _, hafter⟩
    · have hselected : (c.after (.go i :: h)).world.registry.selected = v.client := by
        rw [hregistry]
      have hknown : (c.after (.go i :: h)).world.registry.chainOf v.client = .ok chain := by
        rw [hregistry]
        exact hchain
      rw [hafter]
      exact .binding (Crew.Since.now (runs_of_around_go ht hs) ⟨hselected, chain, hknown⟩)
    · rw [hafter]
      exact .failing (.note _ fault)
  | @binding _ current target switched =>
    refine Steps.of_call (k := .bindOrigin v.origin v.client)
      (f := bound v.origin v.client current target) ht (World.sameNetworks_bind v.origin v.client)
      fun hsame _ hruns' => ?_
    cases hanswer : ((Call.bindOrigin v.origin v.client).answer (c.after h).world).1 with
    | error fault => exact .failing (.note _ fault)
    | ok u => exact .noting (switched.own hsame hruns')
  | @noting _ current target switched =>
    exact Steps.of_call (k := .note (.switched v.origin current target v.client)) ht
      (fun _ => .refl _)
      fun hsame _ hruns' => .passed (.inr (switched.own hsame hruns'))
  | passed right => simp [Thread.ended?] at hs
  | failing fails =>
    cases fails with
    | done fault => simp [Thread.ended?] at hs
    | note n fault => exact Steps.of_call ht (fun _ => .refl _) fun _ _ _ => .failing (.done fault)

/-- A check that has ended well has found the network selected, or has selected it. -/
theorem Stage.right (hstage : Stage queue classifier flag c i v h₀ s h)
    (hended : s.ended? = some (.finished (.ok ()))) :
    (∃ chain, Looked queue classifier flag c i v h₀ chain h ∧ Saw queue c i chain h) ∨
      Switched queue c i v h := by
  cases hstage with
  | passed right => exact right
  | looking =>
    rcases ensureNetwork_eq_call queue classifier flag v.origin v.client with ⟨f, hf⟩ | ⟨f, hf⟩
    · rw [hf] at hended
      nomatch hended
    · rw [hf] at hended
      nomatch hended
  | seeing looked => nomatch hended
  | agreeing looked saw => nomatch hended
  | differing looked saw => nomatch hended
  | drafting looked saw => nomatch hended
  | parking looked saw names => nomatch hended
  | asking looked saw names awaits => nomatch hended
  | switching looked saw names consented =>
    obtain ⟨k, hswitch, _⟩ := registry_switchTo queue classifier flag v.client (c.after h).world
    rw [decided, hswitch] at hended
    nomatch hended
  | binding switched => nomatch hended
  | noting switched => nomatch hended
  | failing fails =>
    cases fails with
    | done fault => nomatch hended
    | note n fault => nomatch hended

/-- The user said yes to a request while the check of a visit waited for it. -/
def Approved (g : Gate η) (c : Crew η α) (i : Nat) (v : Visit η) (begun : List (Act η α))
    (request : ApprovalRequest) (h : List (Act η α)) : Prop :=
  ∃ id requester deadline next earlier, (.outside (.accept id) :: earlier) <:+ h ∧
    g.Checks c i v begun (.asking requester deadline request next) earlier ∧
    (c.after earlier).world.desk.find? id = some ⟨request, requester⟩

variable {begun : List (Act η α)}

/-- What the user said yes to while what is left of the check waited for it was approved. -/
theorem approved_of_consented {g : Gate η} {request : ApprovalRequest}
    (hkind : v.kind = .requiresConfirmation) (hbegins : g.Begins c i v begun)
    (hconsented : c.Consented i (.fresh (g.ensureNetwork v.origin v.client)) begun request h) :
    g.Approved c i v begun request h := by
  induction hconsented with
  | accepted asked parked =>
    exact ⟨_, _, _, _, _, List.suffix_refl _, ⟨hkind, hbegins, asked⟩, parked⟩
  | earlier a _ ih =>
    obtain ⟨id, requester, deadline, next, earlier, hsuffix, hasked⟩ := ih
    exact ⟨id, requester, deadline, next, earlier, hsuffix.trans (List.suffix_cons a _), hasked⟩

namespace Checks

/-- **A check is always at one of its stages.** -/
theorem stage (hdesk : c.world.desk.Sound)
    (hchecks : (own queue classifier flag).Checks c i v begun s h) :
    Stage queue classifier flag c i v begun s h := by
  obtain ⟨hkind, ⟨next, ht⟩, hlead⟩ := hchecks
  rw [fresh_job _ hkind] at ht
  induction hlead with
  | start => exact .looking
  | went before hs ih =>
    have hthread := before.thread?_eq (isFrame_around _ v next) (fun _ => rfl) ht
    exact (ih.steps before hthread hs (Crew.sound_after hdesk _)).1
  | stayed before hgo hdrop ih => exact ih.other before hgo hdrop

/-- **All a step of a check can do to the networks.**  It leaves them alone; or it is the
change that the user approved, and then there is such a client and it is selected. -/
theorem networks_go (hdesk : c.world.desk.Sound)
    (hchecks : (own queue classifier flag).Checks c i v begun s h) (hs : s.ended? = none) :
    (c.after h).world.registry.SameNetworks (c.after (.go i :: h)).world.registry ∨
      ∃ current target request,
        c.Since queue i (fun r => r.chainOf v.client = .ok target) h ∧ Saw queue c i current h ∧
        v.Names current target request ∧
        (own queue classifier flag).Approved c i v begun request h ∧
        (∃ chain, (c.after h).world.registry.chainOf v.client = .ok chain) ∧
        (c.after (.go i :: h)).world.registry
          = { (c.after h).world.registry with selected := v.client } := by
  obtain ⟨next, ht⟩ := hchecks.thread?_eq
  have hsteps := (hchecks.stage hdesk).steps hchecks.leads ht hs (Crew.sound_after hdesk h)
  rcases hsteps.2 with hsame | ⟨current, target, request, rfl, hagreed⟩
  · exact .inl hsame
  · rcases registry_switching ht with ⟨hchain, hregistry, _⟩ | ⟨fault, _, hregistry, _⟩
    · exact .inr ⟨current, target, request, hagreed.looked.since, hagreed.saw, hagreed.names,
        approved_of_consented hchecks.kind hchecks.begins hagreed.consented, hchain, hregistry⟩
    · rw [hregistry]
      exact .inl (.refl _)

end Checks

/-! ### A visit to run -/

/-- The gate of a wallet, with the classes of methods nobody has changed. -/
def plain : Gate η := own 0 .default (.perform .isQueueing)

end Gate

namespace Visit

/-- A site sends a transaction through a client. -/
def sending (client : ClientId) (rest : Rest η) : Visit η :=
  let request :=
    ((Request.new (.whole 1) "eth_sendTransaction").withOrigin
      ⟨"https://dapp.example"⟩).withClientId client
  ⟨.requiresConfirmation, ⟨"https://dapp.example"⟩, client, request, .forRequest request, rest⟩

/-- The task of a visit: its request comes to the gate. -/
def task (v : Visit η) : Program η Turn :=
  Gate.plain.handle v.request v.response v.rest

end Visit

end WalletGate
