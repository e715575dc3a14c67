import WalletGate.Gate
import WalletGate.Proofs.Way

/-!
# The order of effects

What the gate does about a request it leaves to others: it has a client looked up, the
selected chain read, the user asked, a client selected, an origin bound, and it hands on.
It does nothing else itself but leave notices and draw up the request the user is asked
with.

The **errands** of a check come in one order.  Each is done only if all before it have gone
well; behind the last one the request is handed on, once.  The first errand that fails ends
the turn, and its fault is what the response says then.

* `Gate.carries_check` — a check carries out its errands in their order;
* `Gate.order_of_effects` — what a request comes to, by the class of its method, in any history.
-/

namespace WalletGate

open Ways

variable {η : Type}

/-- Something the gate leaves to a collaborator, and what comes of it if it goes well. -/
inductive Errand where
  /-- To look a client up. -/
  | lookUp (client : ClientId) (found : ClientConfig)
  /-- To read which chain is selected. -/
  | readSelected (current : ChainId)
  /-- To ask the user. -/
  | approve (request : ApprovalRequest)
  | switchToBuiltIn (network : BuiltIn)
  | switchToCustom (client : ClientId)
  | bind (origin : Origin) (client : ClientId)

namespace Errand

/-- What kind of thing comes of it. -/
def Gift : Errand → Type
  | lookUp _ _ => ClientConfig
  | readSelected _ => ChainId
  | _ => Unit

/-- What comes of it. -/
def gift : (e : Errand) → e.Gift
  | lookUp _ found => found
  | readSelected current => current
  | approve _ => ()
  | switchToBuiltIn _ => ()
  | switchToCustom _ => ()
  | bind _ _ => ()

/-- The call of the collaborator. -/
def call (c : Collaborators η) : (e : Errand) → Program η (Except Fault e.Gift)
  | lookUp client _ => c.clientConfig client
  | readSelected _ => c.selectedChain
  | approve request => c.approve request
  | switchToBuiltIn network => c.switchToBuiltIn network
  | switchToCustom client => c.switchToCustom client
  | bind origin client => c.bindOrigin origin client

/-- To select a client, in the way that is meant for it. -/
def select (client : ClientId) : Errand :=
  match BuiltIn.ofClientId? client with
  | some network => switchToBuiltIn network
  | none => switchToCustom client

/-- The chain of a client: fixed for a built-in network, as it was found for any other. -/
def target (client : ClientId) (found : ClientConfig) : ChainId :=
  match BuiltIn.ofClientId? client with
  | some network => network.chainId
  | none => found.chainId

/-- **The errands of a check**: the client is looked up unless it is built-in, and the
selected chain is read; only if that is not the client's chain, the user is asked, the
client is selected, and the origin is bound to it. -/
def ofCheck (origin : Origin) (client : ClientId) (found : ClientConfig) (current : ChainId)
    (request : ApprovalRequest) : List Errand :=
  (if (BuiltIn.ofClientId? client).isSome then [] else [lookUp client found]) ++
    readSelected current ::
      if target client found = current then []
        else [approve request, select client, bind origin client]

end Errand

/-- Something the gate does itself: it leaves a notice, or draws up an approval request. -/
def Doing.IsOwn : Doing → Prop
  | called (.note _) => True
  | called (.draft _ _ _ _) => True
  | _ => False

/-- A call has not gone well: it is still under way, or has broken down, or has failed.  In
the last case nothing but notices comes behind it, and its fault is the end of the turn. -/
inductive Stops {γ : Type} (q : Request) (s : Response) (p : Program η (Except Fault γ)) : Ways Turn
  | underWay {steps : List Doing} : p.Way steps none → Stops q s p steps none
  | broke {steps : List Doing} (text : String) :
    p.Way steps (some (.panicked text)) → Stops q s p steps (some (.panicked text))
  | failed {inner own : List Doing} {r : Option (TaskEnd Turn)} (fault : Fault) :
    p.Way inner (some (.finished (.error fault))) → (∀ d ∈ own, d.IsOwn) →
    r = none ∨ r = some (.finished (.failed fault q s)) → Stops q s p (inner ++ own) r

/-- Carries out errands, one after another, and hands on behind the last one; after one that
does not go well there is nothing more. -/
inductive Carries (c : Collaborators η) (rest : Rest η) (q : Request) (s : Response) :
    List Errand → Ways Turn
  | own {errands : List Errand} {d : Doing} {later : List Doing} {r : Option (TaskEnd Turn)} :
    d.IsOwn → Carries c rest q s errands later r → Carries c rest q s errands (d :: later) r
  | stopped {e : Errand} {errands : List Errand} {steps : List Doing} {r : Option (TaskEnd Turn)} :
    Stops q s (e.call c) steps r → Carries c rest q s (e :: errands) steps r
  | went {e : Errand} {errands : List Errand} {inner later : List Doing}
    {r : Option (TaskEnd Turn)} :
    (e.call c).Way inner (some (.finished (.ok e.gift))) → Carries c rest q s errands later r →
    Carries c rest q s (e :: errands) (inner ++ later) r
  | handedOn {steps : List Doing} {r : Option (TaskEnd Turn)} :
    (rest q s).Way steps r → Carries c rest q s [] steps r

namespace Gate

variable {g : Gate η} {rest : Rest η} {q : Request} {s : Response} {steps : List Doing}
    {r : Option (TaskEnd Turn)}
  {origin : Origin} {client : ClientId} {current target : ChainId}

/-- Nothing comes of a fault but the end of the turn. -/
theorem own_of_error {fault : Fault}
    (h : ((Program.done (.error fault)).bind (handOn q s rest)).Way steps r) :
    (∀ d ∈ steps, d.IsOwn) ∧ (r = none ∨ r = some (.finished (.failed fault q s))) := by
  obtain ⟨rfl, hr⟩ := h
  exact ⟨by simp, hr⟩

/-- There may be a notice before that. -/
theorem own_of_refuse {n : Notice} {fault : Fault}
    (h : ((refuse n fault).bind (handOn q s rest)).Way steps r) :
    (∀ d ∈ steps, d.IsOwn) ∧ (r = none ∨ r = some (.finished (.failed fault q s))) := by
  cases h with
  | start => exact ⟨by simp, .inl rfl⟩
  | went h =>
    obtain ⟨-, rfl, hr⟩ := h
    exact ⟨by simp [Doing.IsOwn], hr⟩

/-- A call stops the turn, or goes well and gives something to go on with. -/
theorem stops_or_went {γ : Type} {p : Program η (Except Fault γ)}
    {f : Except Fault γ → Program η (Except Fault Unit)}
    (h : ((p.bind f).bind (handOn q s rest)).Way steps r)
    (hfault : ∀ fault steps r, ((f (.error fault)).bind (handOn q s rest)).Way steps r →
      (∀ d ∈ steps, d.IsOwn) ∧ (r = none ∨ r = some (.finished (.failed fault q s)))) :
    Stops q s p steps r ∨ ∃ gift inner later, steps = inner ++ later ∧
      p.Way inner (some (.finished (.ok gift))) ∧
      ((f (.ok gift)).bind (handOn q s rest)).Way later r := by
  rw [Program.bind_assoc] at h
  cases Program.way_bind h with
  | within hp => exact .inl (.underWay hp)
  | panicked text hp => exact .inl (.broke text hp)
  | went inner a hp hf =>
    cases a with
    | error fault =>
      obtain ⟨hown, hr⟩ := hfault fault _ r hf
      exact .inl (.failed fault hp hown hr)
    | ok gift => exact .inr ⟨gift, inner, _, rfl, hp, hf⟩

/-- Where all has gone well the request is handed on, behind a notice. -/
theorem carries_noted {n : Notice}
    (h : (((note n).bind fun _ => .done (.ok ())).bind (handOn q s rest)).Way steps r) :
    Carries g.collaborators rest q s [] steps r := by
  cases h with
  | start => exact .handedOn (rest q s).way_start
  | went h =>
    obtain ⟨w, h⟩ := h
    exact .own trivial (.handedOn h)

/-- Where the client was selected the origin is bound to it, and the request handed on. -/
theorem carries_switched
    (h : ((g.switched origin client current target (.ok ())).bind (handOn q s rest)).Way steps r) :
    Carries g.collaborators rest q s [.bind origin client] steps r := by
  rcases stops_or_went h fun fault steps r => own_of_refuse with hstops |
    ⟨⟨⟩, inner, later, rfl, hcall, hbound⟩
  · exact .stopped hstops
  · exact .went hcall (carries_noted hbound)

/-- Where the user has agreed the client is selected first. -/
theorem carries_decided
    (h : ((g.decided origin client current target (.ok ())).bind (handOn q s rest)).Way steps r) :
    Carries g.collaborators rest q s [.select client, .bind origin client] steps r := by
  unfold decided switchTo at h
  unfold Errand.select
  cases hclient : BuiltIn.ofClientId? client with
  | some network =>
    rw [hclient] at h
    rcases stops_or_went h fun fault steps r => own_of_refuse with hstops |
      ⟨⟨⟩, inner, later, rfl, hcall, hnext⟩
    · exact .stopped hstops
    · exact .went hcall (carries_switched hnext)
  | none =>
    rw [hclient] at h
    rcases stops_or_went h fun fault steps r => own_of_refuse with hstops |
      ⟨⟨⟩, inner, later, rfl, hcall, hnext⟩
    · exact .stopped hstops
    · exact .went hcall (carries_switched hnext)

/-- Where another chain is selected the user is asked first. -/
theorem carries_changeNetwork
    (h : ((g.changeNetwork origin client current target).bind (handOn q s rest)).Way steps r) :
    ∃ request : ApprovalRequest, request.origin = origin ∧
      request.proposal = ⟨current, target, client⟩ ∧
      Carries g.collaborators rest q s [.approve request, .select client, .bind origin client]
      steps r := by
  -- As long as the request is not drawn up, any that asks the same will do.
  let request := ApprovalRequest.switchChain (.fresh 0) ⟨0, 0⟩ origin current target client
  cases h with
  | start => exact ⟨request, rfl, rfl, .stopped (.underWay (Program.way_start _))⟩
  | went h =>
    obtain ⟨v, h⟩ := h
    cases h with
    | start => exact ⟨request, rfl, rfl, .own trivial (.stopped (.underWay (Program.way_start _)))⟩
    | went h =>
      obtain ⟨w, h⟩ := h
      refine ⟨(w.draft origin current target client).1, rfl, rfl, .own trivial (.own trivial ?_)⟩
      rcases stops_or_went h fun fault steps r => own_of_refuse with hstops |
        ⟨⟨⟩, inner, later, rfl, hcall, hnext⟩
      · exact .stopped hstops
      · exact .went hcall (carries_decided hnext)

/-- Where the client's chain is known the selected one is read, and changed only if it is
another. -/
theorem carries_targeted
    (h : ((g.targeted origin client (.ok target)).bind (handOn q s rest)).Way steps r) :
    ∃ current request, request.origin = origin ∧ request.proposal = ⟨current, target, client⟩ ∧
      Carries g.collaborators rest q s (.readSelected current ::
        if target = current then [] else [.approve request, .select client, .bind origin client])
            steps r := by
  rcases stops_or_went h fun fault steps r => own_of_error with hstops |
    ⟨current, inner, later, rfl, hcall, hnext⟩
  · exact ⟨target, .switchChain (.fresh 0) ⟨0, 0⟩ origin target target client, rfl, rfl,
      .stopped hstops⟩
  · by_cases hsame : target = current
    · rw [compared, if_pos hsame] at hnext
      refine ⟨current, .switchChain (.fresh 0) ⟨0, 0⟩ origin current target client, rfl, rfl,
        .went hcall ?_⟩
      rw [if_pos hsame]
      exact carries_noted hnext
    · rw [compared, if_neg hsame] at hnext
      obtain ⟨request, horigin, hproposal, hcarries⟩ := carries_changeNetwork hnext
      refine ⟨current, request, horigin, hproposal, .went hcall ?_⟩
      rw [if_neg hsame]
      exact hcarries

/-- Through the errands of a check, in their order, and on; whatever is found of the client,
whichever chain is selected, and whatever the request looks like that asks for this change. -/
def ThroughCheck (g : Gate η) (rest : Rest η) (q : Request) (s : Response) (origin : Origin)
    (client : ClientId) :
    Ways Turn :=
  fun steps r => ∃ found current request, request.origin = origin ∧
    request.proposal = ⟨current, Errand.target client found, client⟩ ∧
    Carries g.collaborators rest q s (Errand.ofCheck origin client found current request) steps r

/-- **A check carries out its errands in their order.** -/
theorem carries_check (h : ((g.ensureNetwork origin client).bind (handOn q s rest)).Way steps r) :
    g.ThroughCheck rest q s origin client steps r := by
  unfold ensureNetwork targetChain at h
  unfold ThroughCheck Errand.ofCheck Errand.target
  cases hclient : BuiltIn.ofClientId? client with
  | some network =>
    rw [hclient] at h
    obtain ⟨current, request, horigin, hproposal, hcarries⟩ := carries_targeted h
    exact ⟨⟨network.chainId, none, none⟩, current, request, horigin, hproposal, hcarries⟩
  | none =>
    rw [hclient, Program.bind_assoc (g.collaborators.clientConfig client)] at h
    have hrefused (fault : Fault) (steps : List Doing) (r : Option (TaskEnd Turn))
        (hway : ((refuse (.lookupFailed client fault) fault).bind (handOn q s rest)).Way steps r) :
        (∀ d ∈ steps, d.IsOwn) ∧ (r = none ∨ r = some (.finished (.failed fault q s))) :=
        own_of_refuse hway
    rcases stops_or_went h hrefused with hstops | ⟨found, inner, later, rfl, hcall, hnext⟩
    · exact ⟨default, default, .switchChain (.fresh 0) ⟨0, 0⟩ origin default _ client, rfl, rfl,
        .stopped hstops⟩
    · obtain ⟨current, request, horigin, hproposal, hcarries⟩ := carries_targeted hnext
      exact ⟨found, current, request, horigin, hproposal, .went hcall hcarries⟩

/-- The turn of a request behind the slot.  If it ended with a fault, the response has that
for its error, no result, and is otherwise as it was. -/
def settled (turn : Turn) : Turn :=
  match turn.outcome with
  | .ok () => turn
  | .error fault =>
    .well turn.request { turn.response with
      result := none, error := some ⟨fault.code, fault.message, none⟩ }

/-- Behind the slot nothing more is done. -/
def Settles (turn : Turn) : Ways Turn :=
  fun steps r => steps = [] ∧ (r = none ∨ r = some (.finished (settled turn)))

/-- The gate settles the turn of a request so. -/
theorem settleFault_eq (turn : Turn) : settleFault turn = settled turn := by
  obtain ⟨outcome, request, response⟩ := turn
  cases outcome <;> rfl

/-- What a request comes to that names its origin and its client, where requests are queued,
by the class of its method. -/
def Orderly (g : Gate η) (rest : Rest η) (q : Request) (s : Response) (origin : Origin)
    (client : ClientId) :
    Ways Turn :=
  match g.classifier.classify q.method with
  | .bypass => From (.called (.note (.bypassing q.method origin))) (rest q s).Way
  | .isNetworkSwitchRequest =>
    From (.called (.note (.enqueueing q.method origin .isNetworkSwitchRequest)))
      (ToSlot g.queue (rest q s).Way Settles)
  | .requiresConfirmation =>
    From (.called (.note (.enqueueing q.method origin .requiresConfirmation)))
      (ToSlot g.queue (g.ThroughCheck rest q s origin client) Settles)

/-- A request whose method is queued leaves a notice, goes to the queue, and is settled
behind the slot. -/
theorem toSlot_of_way {n : Notice} {job : Program η Turn} {ways : Ways Turn}
    (h : ((note n).bind fun _ => .enqueue g.queue job fun turn =>
      .done (settleFault turn)).Way steps r)
    (hjob : ∀ steps r, job.Way steps r → ways steps r) :
    From (.called (.note n)) (ToSlot g.queue ways Settles) steps r := by
  refine h.imp fun later e h => ?_
  obtain ⟨w, h⟩ := h
  refine h.imp hjob fun turn later e h => ?_
  obtain ⟨rfl, he⟩ := h
  exact ⟨rfl, by rwa [← settleFault_eq]⟩

/-- **What a request comes to where requests are queued.** -/
theorem orderly_of_way
    (h : (if (g.classifier.classify q.method).isQueued then
        (note (.enqueueing q.method origin (g.classifier.classify q.method))).bind fun _ =>
          .enqueue g.queue
              (g.admitted (g.classifier.classify q.method) origin client q s rest) fun turn =>
            .done (settleFault turn)
      else (note (.bypassing q.method origin)).bind fun _ => rest q s :
        Program η Turn).Way steps r) :
    g.Orderly rest q s origin client steps r := by
  unfold Orderly
  cases hkind : g.classifier.classify q.method with
  | bypass =>
    rw [hkind] at h
    exact h.imp fun later e h => h.elim fun _ h => h
  | isNetworkSwitchRequest =>
    rw [hkind] at h
    exact toSlot_of_way h fun steps r h => h
  | requiresConfirmation =>
    rw [hkind] at h
    exact toSlot_of_way h fun steps r h => carries_check h

/-- **The order of effects of one request.**  In any history, whatever the collaborators
answer, the classifier says and the handlers behind the gate do: a request without an origin
or a client is turned away before anything is done.  Else the flag is read.  If requests are
not queued, the handlers behind the gate are entered; if they are, a method that needs no
queue is noted and handed on, a method that changes the network itself is handed on while it
holds the slot, and any other carries out the errands of a check before that, in their
order, up to the first that does not go well.  A fault that comes of what is done in the
slot is put in place of the result. -/
theorem order_of_effects (g : Gate η) (rest : Rest η) (q : Request) (s : Response)
    (start : Crew η Turn) (name : String) (past : List (Act η Turn)) :
    let crew := start.spawn name (g.handle q s rest)
    let steps := crew.doings start.tasks.length past
    let r := (crew.story start.tasks.length past).ended
    (q.origin = none →
      steps = [] ∧ (r = none ∨ r = some (.finished (.failed .missingOrigin q s)))) ∧
    (∀ origin, q.origin = some origin → q.clientId = none →
      steps = [] ∧ (r = none ∨ r = some (.finished (.failed .missingNetworkClientId q s)))) ∧
    ∀ origin client, q.origin = some origin → q.clientId = some client →
      Then g.collaborators.isQueueing.Way
        (fun queueing => if queueing then g.Orderly rest q s origin client else (rest q s).Way)
        steps r := by
  intro crew steps r
  have hway : (g.handle q s rest).Way steps r := Crew.way_doings start name _ past
  unfold handle at hway
  refine ⟨fun horigin => ?_, fun origin horigin hclient => ?_,
    fun origin client horigin hclient => ?_⟩
  · rw [horigin] at hway
    exact hway
  · rw [horigin, hclient] at hway
    exact hway
  · rw [horigin, hclient] at hway
    refine (Program.way_bind hway).imp fun queueing later e h => ?_
    cases queueing with
    | true => exact orderly_of_way h
    | false => exact h

/-- A site. -/
def site : Origin := ⟨"https://dapp.example"⟩

/-- It sends a transaction on sepolia. -/
def sending : Request :=
  ((Request.new (.whole 1) "eth_sendTransaction").withOrigin site).withClientId
    BuiltIn.sepolia.clientId

/-- The gate of a wallet that has nothing behind it. -/
def lastGate : Gate Unit := ⟨0, .default, .own⟩

/-- The wallet is new, and the request has come to its gate. -/
def guarded : Crew Unit Turn :=
  (Crew.ofWorld (.start ())).spawn "first"
    (lastGate.handle sending (.forRequest sending) Pipeline.nothing)

/-- The user is asked, and declines. -/
def declined : List (Act Unit Turn) :=
  List.replicate 5 (.go 0) ++ .outside (.reject (.fresh 0) "no") :: List.replicate 8 (.go 0)

/-- Mainnet is selected, so the user is asked; the request is not handed on then, and its
response says that the user declined. -/
theorem order_of_effects_declined :
    Then lastGate.collaborators.isQueueing.Way
      (fun queueing =>
        if queueing then
          lastGate.Orderly Pipeline.nothing sending (.forRequest sending) site
          BuiltIn.sepolia.clientId
        else ((Pipeline.nothing : Rest Unit) sending (.forRequest sending)).Way)
      (guarded.doings 0 declined) (guarded.story 0 declined).ended ∧
    guarded.doings 0 declined =
      [.called .isQueueing,
        .called (.note (.enqueueing "eth_sendTransaction" site .requiresConfirmation)),
        .slot 0 .cameIn, .called .selectedChain,
        .called (.note (.wantsApproval site BuiltIn.mainnet.chainId BuiltIn.sepolia.chainId
          BuiltIn.sepolia.clientId)),
        .called (.draft site BuiltIn.mainnet.chainId BuiltIn.sepolia.chainId
          BuiltIn.sepolia.clientId),
        .asked (.switchChain (.fresh 0) ⟨0, 0⟩ site BuiltIn.mainnet.chainId BuiltIn.sepolia.chainId
          BuiltIn.sepolia.clientId),
        .told (.error (.approvalDeclined "no")),
        .called (.note (.notApproved site (.approvalDeclined "no"))),
        .slot 0 .ended] ∧
    (guarded.story 0 declined).ended =
      some (.finished (.well sending
        ⟨"2.0", .whole 1, none, some ⟨4001, "user rejected the request: no", none⟩⟩)) := by
  refine ⟨?_, rfl, rfl⟩
  exact (order_of_effects lastGate Pipeline.nothing sending (.forRequest sending)
    (Crew.ofWorld (.start ())) "first"
    declined).2.2 _ _ rfl rfl

end Gate

end WalletGate
