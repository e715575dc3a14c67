import WalletGate.Proofs.Ensured
import WalletGate.Proofs.Sight

/-!
# A gate that goes unnoticed

Where there is nothing to switch a gate only hands on.  That is so when requests are not
queued, for methods that bypass the queue, for requests to switch, and for those whose
network is the selected one.  The last two come to the queue first and may have to wait, but
are admitted in the end (`Gate.HandsOn`).

From the moment the gate hands on, a pipeline with the gate in front and the same pipeline
without it go the same way: the handlers are entered in the same order with the same
requests, whatever they do, and the answer is the same.  A fault comes to the answer on two
different ways.  Behind the slot the gate catches it and writes it into the response itself;
a request that ends well is then settled as it is.  Without the slot the pipeline does both
at the end.  It makes no difference, as what the gate writes is what the pipeline would have
written (`Pipeline.close_settleFault`).

Nothing is assumed of what happens between two polls, but that it is the same for both.
What a handler could notice is the queue itself, so whoever looks at it has to be shown the
same queue; whoever does not may be shown any.

* `World.Admits.polled_enqueue` — a job that is admitted runs inside the slot;
* `Gate.HandsOn.polled_handle` — what a gate that hands on leaves to be done;
* `Gate.HandsOn.sameEnd` — it comes to the same end as without the gate;
* `Gate.unnoticed` — and every handler is entered in the same way;
* `Gate.own_unnoticed` — so it is for the gate of a wallet whose queue is idle.
-/

namespace WalletGate

variable {η α β : Type}

/-! ### How a job comes to its slot -/

/-- A job comes to a queue and is admitted: at once, or it waits, is resumed in these
worlds, and has the slot in the last of them. -/
inductive World.Admits (queue : Nat) (w : World η) : List (World η) → World η → Prop
  | free {v : World η} (enters : w.enter queue = (none, v)) : Admits queue w [] v
  | woken {v u : World η} {place : Waiter} {worlds : List (World η)}
    (enters : w.enter queue = (some place, v))
    (waits : ∀ x ∈ worlds, (x.queues queue).isOver place = false)
    (woken : (u.queues queue).isOver place = true) :
    Admits queue w (worlds ++ [u]) (u.goOn queue place)

/-- A job that is resumed before its turn goes on waiting. -/
theorem Outcome.polled_waiting {queue : Nat} {place : Waiter} (job : Program η β)
    (next : β → Program η α)
    {worlds : List (World η)} (h : ∀ x ∈ worlds, (x.queues queue).isOver place = false)
    (w : World η) :
    ∃ v, Outcome.polled (.suspended (.waiting queue place job next), w) worlds
      = (.suspended (.waiting queue place job next), v) := by
  induction worlds generalizing w with
  | nil => exact ⟨w, rfl⟩
  | cons x worlds ih =>
    have hstays : Outcome.again (.suspended (.waiting queue place job next), w) x
        = (.suspended (.waiting queue place job next), x) :=
      Thread.resume_of_not_isReady (h x List.mem_cons_self)
    rw [Outcome.polled_cons, hstays]
    exact ih (fun y hy => h y (List.mem_cons_of_mem x hy)) x

/-- **A job that is admitted runs inside the slot.** -/
theorem World.Admits.polled_enqueue {queue : Nat} {w u : World η} {worlds : List (World η)}
    (h : w.Admits queue worlds u) (job : Program η β) (next : β → Program η α)
    (later : List (World η)) :
    (Thread.fresh (.enqueue queue job next)).polled w (worlds ++ later)
      = (Thread.holding queue (.fresh job) next).polled u later := by
  cases h with
  | free enters => exact congrArg (Outcome.polled · later) (Program.run_enqueue_of_free enters)
  | @woken v u place worlds enters waits woken =>
    obtain ⟨x, hwaits⟩ := Outcome.polled_waiting job next waits v
    have hrun : (Thread.fresh (.enqueue queue job next)).resume w
        = (.suspended (.waiting queue place job next), v) := by
      rw [Thread.resume, Program.run, enters]
    have hbegins : (Thread.waiting queue place job next).resume u
        = Outcome.behindSlot queue next (job.run (u.goOn queue place)) := if_pos woken
    rw [Thread.polled, hrun, List.append_assoc, Outcome.polled_append, hwaits]
    exact congrArg (Outcome.polled · later) hbegins

/-! ### When a gate only hands on -/

namespace Gate

variable {g : Gate η} {request : Request} {response : Response} {origin : Origin}
    {client : ClientId}
  {w u v : World η} {worlds : List (World η)}

/-- There is nothing to switch: the request comes to the gate in a world, the gate is
resumed in these others, and hands on in the last world. -/
inductive HandsOn (g : Gate η) (request : Request) (origin : Origin) (client : ClientId)
    (w : World η) :
    List (World η) → World η → Prop
  /-- Requests are not queued. -/
  | disabled {asks : List (World η)} {u : World η}
    (flag : (Thread.fresh g.collaborators.isQueueing).Comes w asks false u) :
    HandsOn g request origin client w asks u
  /-- The method bypasses the queue. -/
  | bypass {asks : List (World η)} {u : World η}
    (flag : (Thread.fresh g.collaborators.isQueueing).Comes w asks true u)
    (kind : g.classifier.classify request.method = .bypass) :
    HandsOn g request origin client w asks (u.note (.bypassing request.method origin))
  /-- The request is one to switch, and is admitted. -/
  | switching {asks waits : List (World η)} {u x : World η}
    (flag : (Thread.fresh g.collaborators.isQueueing).Comes w asks true u)
    (kind : g.classifier.classify request.method = .isNetworkSwitchRequest)
    (admits : (u.note (.enqueueing request.method origin .isNetworkSwitchRequest)).Admits
      g.queue waits x) :
    HandsOn g request origin client w (asks ++ waits) x
  /-- The request needs confirmation and is admitted, and the chain of its client is the one
  selected. -/
  | onNetwork {asks waits looks compares : List (World η)} {u x y z : World η} {chain : ChainId}
    (flag : (Thread.fresh g.collaborators.isQueueing).Comes w asks true u)
    (kind : g.classifier.classify request.method = .requiresConfirmation)
    (admits : (u.note (.enqueueing request.method origin .requiresConfirmation)).Admits
      g.queue waits x)
    (target : (Thread.fresh (g.targetChain client)).Comes x looks (.ok chain) y)
    (selected : (Thread.fresh g.collaborators.selectedChain).Comes y compares (.ok chain) z) :
    HandsOn g request origin client w (asks ++ (waits ++ (looks ++ compares)))
    (z.note (.onSelectedNetwork origin chain))

/-- A gate in front of something, and what follows both. -/
theorem handle_bind (horigin : request.origin = some origin)
    (hclient : request.clientId = some client) (rest : Rest η) (f : Turn → Program η α) :
    (g.handle request response rest).bind f = g.collaborators.isQueueing.bind fun queueing =>
      if queueing then
        if (g.classifier.classify request.method).isQueued then
          (note (.enqueueing request.method origin (g.classifier.classify request.method))).bind
          fun _ =>
            .enqueue g.queue
              (g.admitted (g.classifier.classify request.method) origin client request
              response rest)
              fun turn => f (settleFault turn)
        else (note (.bypassing request.method origin)).bind fun _ => (rest request response).bind f
      else (rest request response).bind f := by
  unfold handle route
  rw [horigin, hclient]
  dsimp only
  rw [Program.bind_assoc]
  congr 1
  funext queueing
  split
  · split <;> rfl
  · rfl

/-- A request that is queued comes to the queue when the gate knows that requests are. -/
theorem polled_queued {asks : List (World η)}
    (flag : (Thread.fresh g.collaborators.isQueueing).Comes w asks true u)
    (hqueued : (g.classifier.classify request.method).isQueued = true)
    (horigin : request.origin = some origin)
    (hclient : request.clientId = some client) (response : Response) (rest : Rest η)
    (f : Turn → Program η α) (later : List (World η)) :
    (Thread.fresh ((g.handle request response rest).bind f)).polled w (asks ++ later)
      = (Thread.fresh (.enqueue g.queue
          (g.admitted (g.classifier.classify request.method) origin client request response rest)
          fun turn => f (settleFault turn))).polled
        (u.note (.enqueueing request.method origin (g.classifier.classify request.method)))
        later := by
  rw [handle_bind horigin hclient]
  refine (flag.polled_bind _ later).trans ?_
  rw [if_pos rfl, if_pos hqueued]
  rfl

/-- **What a gate that hands on leaves to be done**: what is behind it, either as it is or
inside the slot. -/
theorem HandsOn.polled_handle (h : g.HandsOn request origin client w worlds u)
    (horigin : request.origin = some origin) (hclient : request.clientId = some client)
    (response : Response) (rest : Rest η) (f : Turn → Program η α) :
    (∀ later, (Thread.fresh ((g.handle request response rest).bind f)).polled w (worlds ++ later)
      = (Thread.fresh ((rest request response).bind f)).polled u later) ∨
    ∀ later, (Thread.fresh ((g.handle request response rest).bind f)).polled w (worlds ++ later)
      = (Thread.holding g.queue (.fresh (rest request response)) fun turn =>
        f (settleFault turn)).polled u later := by
  cases h with
  | disabled flag =>
    refine .inl fun later => ?_
    rw [handle_bind horigin hclient]
    exact flag.polled_bind _ later
  | @bypass _ u flag kind =>
    refine .inl fun later => ?_
    rw [handle_bind horigin hclient, kind]
    exact flag.polled_bind _ later
  | @switching asks waits u x flag kind admits =>
    refine .inr fun later => ?_
    rw [List.append_assoc, polled_queued flag (by rw [kind]; rfl) horigin hclient, kind]
    exact admits.polled_enqueue _ _ later
  | @onNetwork asks waits looks compares u x y z chain flag kind admits target selected =>
    refine .inr fun later => ?_
    have hensured : (Thread.fresh (g.ensureNetwork origin client)).Comes x
      (looks ++ compares) (.ok ())
        (z.note (.onSelectedNetwork origin chain)) := comes_ensureNetwork target selected
    rw [List.append_assoc, List.append_assoc,
      polled_queued flag (by rw [kind]; rfl) horigin hclient, kind]
    -- the check takes its polls inside the slot
    refine (admits.polled_enqueue _ _ _).trans ?_
    exact hensured.polled_holding_bind g.queue (handOn request response rest) _ later

end Gate

/-! ### Two ways to the same answer -/

namespace Pipeline

/-- The end of a request: a notice if it ended with a fault, and the answer. -/
def close (turn : Turn) : Program η Response :=
  (report turn).bind fun _ => .done (answer turn)

/-- **A fault that was written into the response gives the answer it would have given
itself**, and there is nothing left to be noted. -/
theorem close_settleFault (turn : Turn) :
    (close (Gate.settleFault turn) : Program η Response) = .done (answer turn) :=
  rfl

/-- A request ends at once, and all it leaves is a notice. -/
theorem run_close (sees : Nat → Prop) (turn : Turn) (w : World η) :
    ∃ v, (close turn).run w = (.finished (answer turn), v) ∧ w.Alike sees v := by
  unfold close report
  split
  · exact ⟨w, rfl, .refl w⟩
  · exact ⟨_, rfl, w.alike_note _⟩

theorem ends_close (turn : Turn) (w : World η) :
    ∃ response v, (close turn).run w = (.finished response, v) := by
  obtain ⟨v, hrun, -⟩ := run_close (fun _ => True) turn w
  exact ⟨_, v, hrun⟩

/-- A pipeline that is resumed again and again makes its answer of whatever its handlers
have come to. -/
theorem polled_handle (handlers : List (Handler η)) (request : Request) (w : World η)
    (worlds : List (World η)) :
    (Thread.fresh (handle handlers request)).polled w worlds = Outcome.andThen close
      ((Thread.fresh (dispatch handlers request (.forRequest request))).polled w worlds) := by
  have hrun : (Thread.fresh (handle handlers request)).resume w = Outcome.andThen close
      ((Thread.fresh (dispatch handlers request (.forRequest request))).resume w) :=
    (dispatch handlers request (.forRequest request)).run_bind close w
  rw [Thread.polled, hrun]
  exact Outcome.polled_andThen ends_close _ worlds

end Pipeline

namespace Outcome

variable {sees : Nat → Prop}

/-- Both have come to the same end, or neither to any, and the worlds are alike. -/
structure SameEnd (sees : Nat → Prop) (o o' : Outcome η α × World η) : Prop where
  finished : ∀ a, o.1 = .finished a ↔ o'.1 = .finished a
  panicked : ∀ text, o.1 = .panicked text ↔ o'.1 = .panicked text
  world : o.2.Alike sees o'.2

theorem SameEnd.mono {less : Nat → Prop} {o o' : Outcome η α × World η}
    (hless : ∀ queue, less queue → sees queue) (h : SameEnd sees o o') : SameEnd less o o' :=
  ⟨h.finished, h.panicked, h.world.mono hless⟩

/-- What is alike comes to the same end, whatever it leads to at once. -/
theorem Alike.sameEnd_andThen {o o' : Outcome η Turn × World η} (h : Alike sees o o') :
    SameEnd sees (andThen Pipeline.close o) (andThen Pipeline.close o') := by
  obtain ⟨e, w, v, rfl, rfl, -, hworld⟩ := h.exists_eq
  cases e with
  | finished turn =>
    obtain ⟨w', hw, hw'⟩ := Pipeline.run_close sees turn w
    obtain ⟨v', hv, hv'⟩ := Pipeline.run_close sees turn v
    simp only [andThen, hw, hv]
    exact ⟨fun _ => Iff.rfl, fun _ => Iff.rfl, hw'.symm.trans (hworld.trans hv')⟩
  | panicked text => exact ⟨fun _ => Iff.rfl, fun _ => Iff.rfl, hworld⟩
  | suspended t => exact ⟨by simp [andThen], by simp [andThen], hworld⟩

/-- **A request comes to the same end inside the slot and without it.** -/
theorem Alike.sameEnd_behindSlot {o o' : Outcome η Turn × World η} (queue : Nat)
    (h : Alike sees o o') :
    SameEnd (fun other => sees other ∧ other ≠ queue)
      (behindSlot queue (fun turn => Pipeline.close (Gate.settleFault turn)) o)
      (andThen Pipeline.close o') := by
  obtain ⟨e, w, v, rfl, rfl, -, hworld⟩ := h.exists_eq
  -- the slot is given up on one side only, and a notice may be left on the other
  have hless := hworld.mono fun other (hsees : sees other ∧ other ≠ queue) => hsees.1
  have hreleased : (w.release queue).Alike (fun other => sees other ∧ other ≠ queue) w :=
    ((w.alike_release queue).mono fun _ hsees => hsees.2).symm
  cases e with
  | finished turn =>
    obtain ⟨v', hv, hv'⟩ := Pipeline.run_close (fun other => sees other ∧ other ≠ queue) turn v
    simp only [andThen, hv, behindSlot, Pipeline.close_settleFault, Program.run]
    exact ⟨fun _ => Iff.rfl, fun _ => Iff.rfl, hreleased.trans (hless.trans hv')⟩
  | panicked text => exact ⟨fun _ => Iff.rfl, fun _ => Iff.rfl, hreleased.trans hless⟩
  | suspended t => exact ⟨by simp [andThen, behindSlot], by simp [andThen, behindSlot], hless⟩

end Outcome

namespace Gate

variable {g : Gate η} {sees : Nat → Prop} {request : Request} {origin : Origin} {client : ClientId}
  {handlers : List (Handler η)} {w u v : World η} {worlds later later' : List (World η)}

/-- **With a gate that only hands on, a pipeline comes to the same end as without it.** -/
theorem HandsOn.sameEnd (h : g.HandsOn request origin client w worlds u)
    (horigin : request.origin = some origin) (hclient : request.clientId = some client)
    (hkeeps : ∀ handler ∈ handlers, Handler.KeepsTo sees handler)
    (halike : u.Alike sees v) (hlater : List.Forall₂ (World.Alike sees) later later') :
    Outcome.SameEnd (fun queue => sees queue ∧ queue ≠ g.queue)
      ((Thread.fresh (Pipeline.handle (g.handle :: handlers) request)).polled w (worlds ++ later))
      ((Thread.fresh (Pipeline.handle handlers request)).polled v later') := by
  have hrun : Outcome.Alike sees
      ((Thread.fresh (Pipeline.dispatch handlers request (.forRequest request))).polled u later)
      ((Thread.fresh (Pipeline.dispatch handlers request (.forRequest request))).polled v later') :=
    (Program.alike_run (Pipeline.keepsTo_dispatch hkeeps _ _) halike).polled hlater
  rw [Pipeline.polled_handle handlers request v]
  rcases h.polled_handle horigin hclient (.forRequest request) (Pipeline.dispatch handlers)
    Pipeline.close with
    hdirect | hheld
  · -- the gate has left nothing but notices, and the rest is the same program
    have hgated : (Thread.fresh (Pipeline.handle (g.handle :: handlers) request)).polled w
      (worlds ++ later)
        = (Thread.fresh (Pipeline.handle handlers request)).polled u later := hdirect later
    rw [hgated, Pipeline.polled_handle]
    exact hrun.sameEnd_andThen.mono fun _ hsees => hsees.1
  · -- the handlers run inside the slot, and behind it nothing is left to wait for
    have hgated : (Thread.fresh (Pipeline.handle (g.handle :: handlers) request)).polled w
      (worlds ++ later)
        = Outcome.behindSlot g.queue (fun turn => Pipeline.close (settleFault turn))
            ((Thread.fresh (Pipeline.dispatch handlers request (.forRequest request))).polled u
              later) :=
      (hheld later).trans (Outcome.polled_behindSlot g.queue Pipeline.answer _ later)
    rw [hgated]
    exact hrun.sameEnd_behindSlot g.queue

end Gate

/-! ### Who is entered -/

/-- A handler was entered: its number, counted from the front, and the request and the
response it was given. -/
structure Entrance where
  handler : Nat
  request : Request
  response : Response

/-- A host that keeps a diary of the handlers that were entered, the latest first. -/
structure Diary (η : Type) where
  host : η
  entries : List Entrance

/-- The handler, with an entry in the diary whenever it is entered. -/
def Handler.watched (number : Nat) (handler : Handler (Diary η)) : Handler (Diary η) :=
  fun request response rest =>
  (Program.hosted fun d =>
    ((), { d with entries := ⟨number, request, response⟩ :: d.entries })).bind fun _ =>
    handler request response rest

/-- The handlers, each with its entries in the diary. -/
def Pipeline.watched (handlers : List (Handler (Diary η))) : List (Handler (Diary η)) :=
  handlers.mapIdx Handler.watched

/-- The diary is not a queue. -/
theorem Pipeline.keepsTo_watched {sees : Nat → Prop} {handlers : List (Handler (Diary η))}
    (h : ∀ handler ∈ handlers, Handler.KeepsTo sees handler) :
    ∀ handler ∈ watched handlers, Handler.KeepsTo sees handler := by
  intro handler hmem
  obtain ⟨number, hlt, rfl⟩ := List.mem_mapIdx.1 hmem
  exact fun request response rest hrest _ => h _ (List.getElem_mem hlt) request response rest hrest

namespace Gate

section Watched

variable {g : Gate (Diary η)} {sees : Nat → Prop} {request : Request} {origin : Origin}
    {client : ClientId}
  {handlers : List (Handler (Diary η))} {w u v : World (Diary η)}
  {worlds later later' : List (World (Diary η))}

/-- **A gate that has nothing to switch goes unnoticed.**  A request with origin and client
comes to a pipeline with the gate in front, and the gate hands on in a world `u`; it comes
to the same pipeline without the gate in a world `v` that is alike to what the handlers see.
Both are then resumed again and again, and anything may happen in between, if it is the same
for both.  Whatever the handlers do, at every moment both pipelines have given the same
answer or have both not given any, the same handlers were entered in the same order with the
same requests and responses, and the worlds are alike, but for the queue of the gate. -/
theorem unnoticed (horigin : request.origin = some origin)
    (hclient : request.clientId = some client)
    (hhands : g.HandsOn request origin client w worlds u)
    (hkeeps : ∀ handler ∈ handlers, Handler.KeepsTo sees handler) (halike : u.Alike sees v)
    (hlater : List.Forall₂ (World.Alike sees) later later') :
    let gated :=
      (Thread.fresh (Pipeline.handle (g.handle :: Pipeline.watched handlers) request)).polled w
        (worlds ++ later)
    let plain :=
      (Thread.fresh (Pipeline.handle (Pipeline.watched handlers) request)).polled v later'
    Outcome.SameEnd (fun queue => sees queue ∧ queue ≠ g.queue) gated plain ∧
      gated.2.host.entries = plain.2.host.entries := by
  intro gated plain
  have hsame : Outcome.SameEnd (fun queue => sees queue ∧ queue ≠ g.queue) gated plain :=
    hhands.sameEnd horigin hclient (Pipeline.keepsTo_watched hkeeps) halike hlater
  exact ⟨hsame, congrArg Diary.entries hsame.world.host.symm⟩

end Watched

/-- A handler that hands on under another name, and fails behind it with a result left in
the response. -/
def spoiling : Handler η := fun request response rest =>
  (rest { request with method := "eth_sendRawTransaction" } response).bind fun turn =>
    .done (.failed (.internal "lost") turn.request { turn.response with result := some .null })

/-- A handler that answers as soon as the host is ready. -/
def answeringOnceReady : Handler (Diary Bool) := fun request response _ =>
  .await (fun d => if d.host then some ((), d) else none) fun _ =>
    .done (.well request { response with result := some .null })

/-- A site sends a transaction on mainnet. -/
def onMainnet : Request :=
  ((Request.new (.whole 1) "eth_sendTransaction").withOrigin ⟨"https://dapp.example"⟩).withClientId
    BuiltIn.mainnet.clientId

/-- The handlers, without the gate. -/
def spoilt : Program (Diary Bool) Response :=
  Pipeline.handle (Pipeline.watched [spoiling, answeringOnceReady]) onMainnet

/-- And with it. -/
def spoiltGated : Program (Diary Bool) Response :=
  Pipeline.handle (plain.handle :: Pipeline.watched [spoiling, answeringOnceReady]) onMainnet

/-- A wallet whose host is not ready. -/
def unready : World (Diary Bool) := .start ⟨false, []⟩

/-- The slot is taken. -/
def taken : World (Diary Bool) := (unready.enter 0).2

/-- The request waits behind. -/
def behind : World (Diary Bool) :=
  ((taken.note
    (.enqueueing "eth_sendTransaction" ⟨"https://dapp.example"⟩ .requiresConfirmation)).enter 0).2

/-- The host is ready now. -/
def ready (w : World (Diary Bool)) : World (Diary Bool) :=
  { w with host := { w.host with host := true } }

/-- The request got the slot and was handed on, but the host is not ready. -/
def handedOn : World (Diary Bool) :=
  ((Thread.fresh spoiltGated).polled taken [behind, behind.release 0]).2

/-- So it is without the gate. -/
def enteredAtOnce : World (Diary Bool) := ((Thread.fresh spoilt).polled unready []).2

/-- The request has to wait for the slot; it is answered with the fault, and both handlers
were entered, as they are without the gate. -/
theorem unnoticed_taken :
    ((Thread.fresh spoilt).polled unready [ready enteredAtOnce]).1
      = .finished ⟨protocolVersion, .whole 1, none, some (Fault.internal "lost").toRpcError⟩ ∧
    ((Thread.fresh spoiltGated).polled taken [behind, behind.release 0, ready handedOn]).1
      = .finished ⟨protocolVersion, .whole 1, none, some (Fault.internal "lost").toRpcError⟩ ∧
    ((Thread.fresh spoiltGated).polled taken
      [behind, behind.release 0, ready handedOn]).2.host.entries
      = [⟨1, { onMainnet with method := "eth_sendRawTransaction" }, .forRequest onMainnet⟩,
          ⟨0, onMainnet, .forRequest onMainnet⟩] := by
  have hhands : plain.HandsOn onMainnet ⟨"https://dapp.example"⟩ BuiltIn.mainnet.clientId taken
      [behind, behind.release 0] (((behind.release 0).goOn 0 ⟨0, 0⟩).note
        (.onSelectedNetwork ⟨"https://dapp.example"⟩ BuiltIn.mainnet.chainId)) :=
    .onNetwork (.now rfl) rfl (@World.Admits.woken _ _ _ _ _ _ [behind] rfl (by decide) rfl)
      (.now rfl) (.now rfl)
  have hkeeps : ∀ handler ∈ [spoiling, answeringOnceReady], Handler.KeepsTo (· ≠ 0) handler := by
    simp only [List.forall_mem_cons, List.not_mem_nil, false_imp_iff, implies_true, and_true]
    exact ⟨fun _ _ _ hrest => Program.keepsTo_bind (hrest _ _) fun _ => trivial,
      fun _ _ _ _ _ => trivial⟩
  have hbehind : World.Alike (· ≠ 0) unready behind :=
    ((World.alike_enter 0 unready).trans (World.alike_note _ _)).trans (World.alike_enter 0 _)
  have halike : World.Alike (· ≠ 0) (((behind.release 0).goOn 0 ⟨0, 0⟩).note
      (.onSelectedNetwork ⟨"https://dapp.example"⟩ BuiltIn.mainnet.chainId)) unready :=
    (((hbehind.trans (World.alike_release 0 _)).trans (World.alike_goOn 0 _ _)).trans
      (World.alike_note _ _)).symm
  have hready : World.Alike (· ≠ 0) (ready handedOn) (ready enteredAtOnce) := by
    have hunready : World.Alike (· ≠ 0) handedOn enteredAtOnce :=
      (unnoticed rfl rfl hhands hkeeps halike .nil).1.world.mono fun _ hne => ⟨hne, hne⟩
    unfold ready
    rw [hunready.host]
    exact hunready.withHost _
  have hanswer : ((Thread.fresh spoilt).polled unready [ready enteredAtOnce]).1
      = .finished ⟨protocolVersion, .whole 1, none, some (Fault.internal "lost").toRpcError⟩ := rfl
  obtain ⟨hsame, hentries⟩ := unnoticed rfl rfl hhands hkeeps halike (.cons hready .nil)
  exact ⟨hanswer, (hsame.finished _).2 hanswer, hentries⟩

/-! ### The gate of a wallet -/

section Own

variable {queue : Nat} {classifier : Classifier} {request : Request} {origin : Origin}
    {client : ClientId}
  {handlers : List (Handler η)} {w : World η} {later later' : List (World η)}

/-- Where the queue is idle a job is admitted at once. -/
theorem admits_of_idle (hidle : (w.queues queue).active = false) :
    w.Admits queue [] (w.enter queue).2 := by
  refine .free (Prod.ext ?_ rfl)
  simp [World.enter, Queue.enter, hidle]

/-- Where there is nothing to switch and nobody in the queue the gate of a wallet hands on
at once, and all it changes is the queue. -/
theorem exists_handsOn (hidle : (w.queues queue).active = false)
    (hnothing : w.queueing = false ∨ classifier.classify request.method ≠ .requiresConfirmation ∨
      ∃ chain, w.registry.OnNetwork client chain) :
    ∃ u, (own queue classifier (.perform .isQueueing)).HandsOn request origin client w [] u ∧
      w.Alike (· ≠ queue) u := by
  have hflag :
    (Thread.fresh (own queue classifier (.perform .isQueueing)).collaborators.isQueueing).Comes w []
      w.queueing w := .now rfl
  cases hqueueing : w.queueing with
  | false => exact ⟨w, .disabled (hqueueing ▸ hflag), .refl w⟩
  | true =>
    rw [hqueueing] at hflag
    have hadmits (n : Notice) : (w.note n).Admits queue [] ((w.note n).enter queue).2 :=
      admits_of_idle hidle
    have halike (n : Notice) : w.Alike (· ≠ queue) ((w.note n).enter queue).2 :=
      (w.alike_note n).trans (World.alike_enter queue _)
    cases hkind : classifier.classify request.method with
    | bypass => exact ⟨_, .bypass hflag hkind, w.alike_note _⟩
    | isNetworkSwitchRequest => exact ⟨_, .switching hflag hkind (hadmits _), halike _⟩
    | requiresConfirmation =>
      obtain ⟨chain, hon⟩ : ∃ chain, w.registry.OnNetwork client chain := by
        simpa [hqueueing, hkind] using hnothing
      have hentered := hadmits (.enqueueing request.method origin .requiresConfirmation)
      have hsame :
        ((w.note (.enqueueing request.method origin .requiresConfirmation)).enter
        queue).2.registry.OnNetwork
          client chain := hon
      exact ⟨_, .onNetwork hflag hkind hentered (comes_targetChain hsame)
        (comes_selectedChain hsame),
        (halike _).trans (World.alike_note _ _)⟩

/-- **The gate of a wallet goes unnoticed where nobody is in its queue and there is nothing
to switch**: both pipelines are run from the same world. -/
theorem own_unnoticed (horigin : request.origin = some origin)
    (hclient : request.clientId = some client)
    (hkeeps : ∀ handler ∈ handlers, Handler.KeepsTo (· ≠ queue) handler)
    (hidle : (w.queues queue).active = false)
    (hnothing : w.queueing = false ∨ classifier.classify request.method ≠ .requiresConfirmation ∨
      ∃ chain, w.registry.OnNetwork client chain)
    (hlater : List.Forall₂ (World.Alike (· ≠ queue)) later later') :
    Outcome.SameEnd (· ≠ queue)
      ((Thread.fresh
        (Pipeline.handle ((own queue classifier (.perform .isQueueing)).handle :: handlers)
        request)).polled
        w later)
      ((Thread.fresh (Pipeline.handle handlers request)).polled w later') := by
  obtain ⟨u, hhands, halike⟩ :=
    @exists_handsOn η queue classifier request origin client w hidle hnothing
  exact (hhands.sameEnd horigin hclient hkeeps halike.symm hlater).mono fun _ hne => ⟨hne, hne⟩

end Own

end Gate

end WalletGate
