import WalletGate.Proofs.Check

/-!
# The chain that was approved

The request for approval names the chain the client had when it was looked up; the selection
is changed by client.  Between the two the user takes as long as the user likes, and the
client may be registered anew.

* `Gate.approved_chain_iff` — the user gets the chain that was approved exactly if the
  registry gives the client, when the selection is changed, the chain it gave it when the
  check began; so it does if nobody registers or removes the client in between;
* `Gate.other_chain_than_approved` — it does not always: the client is registered anew while
  the user is asked.
-/

namespace WalletGate

variable {η α : Type}

/-- The client a program is about to select. -/
def Program.switch? {α : Type} : Program η α → Option ClientId
  | .call (.switchToBuiltIn network) _ => some network.clientId
  | .call (.switchToCustom id) _ => some id
  | _ => none

/-- The client a thread is about to select. -/
def Thread.switch? {α : Type} : Thread η α → Option ClientId
  | .fresh p => p.switch?
  | _ => none

/-- An act that registers a client or removes it. -/
def Act.edits (id : ClientId) : Act η α → Bool
  | .outside (.addCustom other _) => other = id
  | .outside (.removeCustom other) => other = id
  | _ => false

namespace Registry

/-- Registering another client leaves the chain of this one alone. -/
theorem chainOf_addCustom {id other : ClientId} {config : ClientConfig} {r s : Registry}
    {n : Notice} (hne : other ≠ id) (h : r.addCustom other config = .ok (s, n)) :
    s.chainOf id = r.chainOf id := by
  unfold addCustom at h
  split at h
  · simp at h
  · obtain ⟨rfl, _⟩ := Prod.mk.inj (Except.ok.inj h)
    simp [chainOf, clientConfig, resolve, update, hne.symm]

/-- Removing another client leaves the chain of this one alone. -/
theorem chainOf_removeCustom {id other : ClientId} {r s : Registry} {n : Notice}
    (hne : other ≠ id) (h : r.removeCustom other = .ok (s, n)) : s.chainOf id = r.chainOf id := by
  unfold removeCustom at h
  split at h
  · simp at h
  · split at h
    · obtain ⟨rfl, _⟩ := Prod.mk.inj (Except.ok.inj h)
      simp [chainOf, clientConfig, resolve, update, hne.symm]
    · simp at h

end Registry

/-- What comes from outside leaves the chain of a client alone, unless it registers or
removes that client. -/
theorem Outside.chainOf_apply {o : Outside η} {id : ClientId}
    (h : (Act.outside o : Act η α).edits id = false)
    (w : World η) : (o.apply w).registry.chainOf id = w.registry.chainOf id := by
  by_cases hedits : o.editsNetworks = false
  · exact (Outside.sameNetworks hedits w).chainOf id
  · cases o with
    | addCustom other config =>
      have hne : other ≠ id := by simpa [Act.edits] using h
      exact World.registry_onRegistry (P := fun r => r.chainOf id = w.registry.chainOf id) rfl
        fun _ _ => Registry.chainOf_addCustom hne
    | removeCustom other =>
      have hne : other ≠ id := by simpa [Act.edits] using h
      exact World.registry_onRegistry (P := fun r => r.chainOf id = w.registry.chainOf id) rfl
        fun _ _ => Registry.chainOf_removeCustom hne
    | switchToBuiltIn network => exact Registry.chainOf_congr rfl id
    | switchToCustom other =>
      refine World.registry_onRegistry (P := fun r => r.chainOf id = w.registry.chainOf id) rfl
        fun _ _ hact => ?_
      exact Registry.chainOf_congr (Registry.custom_switchToCustom hact) id
    | accept id => simp [editsNetworks] at hedits
    | reject id reason => simp [editsNetworks] at hedits
    | rejectAll reason => simp [editsNetworks] at hedits
    | wait milliseconds => simp [editsNetworks] at hedits
    | setQueueing queueing => simp [editsNetworks] at hedits
    | host change => simp [editsNetworks] at hedits
    | bindOrigin origin id => simp [editsNetworks] at hedits

/-- **A client nobody touches keeps its chain.** -/
theorem Crew.chainOf_after {id : ClientId} {later : List (Act η α)}
    (huntouched : ∀ a ∈ later, a.edits id = false) (c : Crew η α) :
    (c.after later).world.registry.chainOf id = c.world.registry.chainOf id := by
  induction later with
  | nil => rfl
  | cons a later ih =>
    have hstep := world_perform (a := a)
      (R := fun w v : World η => v.registry.chainOf id = w.registry.chainOf id) (fun _ => rfl)
      (fun _ _ _ huv hvw => hvw.trans huv) (fun _ _ h => Registry.chainOf_congr h.custom_eq id)
      (c.after later)
      fun o ho => Outside.chainOf_apply (ho ▸ huntouched a List.mem_cons_self) _
    exact hstep.trans (ih fun a ha => huntouched a (List.mem_cons_of_mem _ ha))

namespace Gate

variable {queue : Nat} {classifier : Classifier} {flag : Program η Bool} {c : Crew η α} {i : Nat}
  {v : Visit η} {h₀ h past : List (Act η α)} {s : Thread η (Except Fault Unit)} {client : ClientId}

/-- After the user's yes a check is about to select its client. -/
theorem switch?_decided (queue : Nat) (classifier : Classifier) (flag : Program η Bool)
    (origin : Origin) (client : ClientId) (current target : ChainId) :
    ((own queue classifier flag).decided origin client current target (.ok ())).switch?
      = some client := by
  cases hclient : BuiltIn.ofClientId? client with
  | some network =>
    have hid := BuiltIn.clientId_of_ofClientId hclient
    rw [decided, switchTo, hclient]
    exact congrArg some hid
  | none =>
    rw [decided, switchTo, hclient]
    rfl

/-- Only a check the user said yes to is about to select a client, and it is the client of
the visit. -/
theorem Stage.eq_of_switch (hstage : Stage queue classifier flag c i v h₀ s h)
    (hswitch : s.switch? = some client) :
    client = v.client ∧ ∃ current target request,
      s = .fresh ((own queue classifier flag).decided v.origin v.client current target (.ok ())) ∧
        Agreed queue classifier flag c i v h₀ current target request h := by
  cases hstage with
  | looking =>
    rcases ensureNetwork_eq_call queue classifier flag v.origin v.client with ⟨f, hf⟩ | ⟨f, hf⟩
    · rw [hf] at hswitch
      nomatch hswitch
    · rw [hf] at hswitch
      nomatch hswitch
  | seeing looked => nomatch hswitch
  | agreeing looked saw => nomatch hswitch
  | differing looked saw => nomatch hswitch
  | drafting looked saw => nomatch hswitch
  | parking looked saw names => nomatch hswitch
  | asking looked saw names awaits => nomatch hswitch
  | switching looked saw names consented =>
    have hclient := (switch?_decided queue classifier flag v.origin v.client _ _).symm.trans hswitch
    exact ⟨(Option.some.inj hclient).symm, _, _, _, rfl, looked, saw, names, consented⟩
  | binding switched => nomatch hswitch
  | noting switched => nomatch hswitch
  | passed right => nomatch hswitch
  | failing fails =>
    cases fails with
    | done fault => nomatch hswitch
    | note n fault => nomatch hswitch

/-- **When the user gets the chain that was approved.**  A check that is about to select a
client has made its first step at some moment, and the user said yes to a request that names
the chain the client had then.  If there is no such client any more nothing changes.  Else
the client is selected, and the chain selected is the one the user said yes to exactly if
the client has the chain it had when the check began; so it is if nobody has registered or
removed the client since. -/
theorem approved_chain_iff {w : World η} {limit : Option Nat} {begun : List (Act η α)}
    (hdesk : w.desk = Desk.empty limit)
    (hchecks : (own queue classifier flag).Checks (Crew.ofWorld w) i v begun s past)
    (hswitch : s.switch? = some client) :
    ∃ request later looked, past = later ++ .go i :: looked ∧
      (own queue classifier flag).Checks (Crew.ofWorld w) i v begun
        (.fresh ((own queue classifier flag).ensureNetwork v.origin v.client)) looked ∧
      (own queue classifier flag).Approved (Crew.ofWorld w) i v begun request past ∧
      request.origin = v.origin ∧ request.proposal.toClient = client ∧
      ((Crew.ofWorld w).after looked).world.registry.chainOf client = .ok request.proposal.toChain ∧
      (((Crew.ofWorld w).after past).world.registry.chainOf client
        = .error (Registry.unknownClient client) ∧
          ((Crew.ofWorld w).after (.go i :: past)).world.registry
            = ((Crew.ofWorld w).after past).world.registry ∨
        ((Crew.ofWorld w).after (.go i :: past)).world.registry.selected = client ∧
          (((Crew.ofWorld w).after (.go i :: past)).world.registry.selectedChain
            = .ok request.proposal.toChain ↔
            ((Crew.ofWorld w).after past).world.registry.chainOf client
              = ((Crew.ofWorld w).after looked).world.registry.chainOf client)) ∧
      ((∀ a ∈ later, a.edits client = false) →
        ((Crew.ofWorld w).after past).world.registry.chainOf client
          = ((Crew.ofWorld w).after looked).world.registry.chainOf client) := by
  have hsound : (Crew.ofWorld w : Crew η α).world.desk.Sound := by
    rw [Crew.ofWorld, hdesk]
    exact Desk.sound_empty limit
  obtain ⟨rfl, current, target, request, rfl, hagreed⟩ :=
    (hchecks.stage hsound).eq_of_switch hswitch
  obtain ⟨looked, ⟨later, hlater⟩, hlead, hcalm, hchain⟩ := hagreed.looked
  have happroved := approved_of_consented hchecks.kind hchecks.begins hagreed.consented
  rw [← hagreed.names.toChain] at hchain
  refine ⟨request, later, looked, hlater.symm, ⟨hchecks.kind, hchecks.begins, hlead⟩, happroved,
    hagreed.names.origin, hagreed.names.toClient, hchain, ?_, fun huntouched => ?_⟩
  · obtain ⟨next, ht⟩ := hchecks.thread?_eq
    rcases registry_switching ht with ⟨_, hregistry, _⟩ | ⟨fault, hunknown, hregistry, _⟩
    · refine .inr ⟨by rw [hregistry], ?_⟩
      -- the chain selected is looked up in the registry as it was before the change
      have hselected : ((Crew.ofWorld w).after (.go i :: past)).world.registry.selectedChain
          = ((Crew.ofWorld w).after past).world.registry.chainOf v.client := by
        rw [hregistry]
        exact Registry.chainOf_congr rfl v.client
      rw [hselected, hchain]
    · exact .inl ⟨hunknown, hregistry⟩
  · have hkept : ∀ a ∈ later ++ [Act.go i], a.edits v.client = false := by
      intro a ha
      rcases List.mem_append.1 ha with ha | ha
      · exact huntouched a ha
      · rw [List.mem_singleton.1 ha]
        rfl
    have hpast : past = (later ++ [.go i]) ++ looked := by
      rw [List.append_assoc]
      exact hlater.symm
    rw [hpast, Crew.after_append]
    exact Crew.chainOf_after hkept _

/-! ### A client that is registered anew -/

/-- A client that no wallet knows of its own. -/
def devnet : ClientId := ⟨"devnet"⟩

/-- A wallet nobody has used. -/
def newWallet : Crew Unit Turn := .ofWorld (.start ())

/-- A site sends a transaction through the client; nobody is behind the gate. -/
def devnetVisit : Visit Unit := .sending devnet Pipeline.nothing

/-- Somebody registers it, for this chain. -/
def register (chain : ChainId) : Act Unit Turn := .outside (.addCustom devnet ⟨chain, none, none⟩)

/-- It is registered, a request for it comes and has the slot. -/
def devnetAdmission : List (Act Unit Turn) :=
  List.replicate 3 (.go 0) ++ [.spawn "first" devnetVisit.task, register ⟨0x539⟩]

/-- The check runs until the user is asked. -/
def devnetAsked : List (Act Unit Turn) := List.replicate 5 (.go 0) ++ devnetAdmission

/-- The user says yes, and the check sees it. -/
def seenYes : List (Act Unit Turn) := [.go 0, .outside (.accept (.fresh 0))]

/-- Where nobody registers the client anew, the user gets the chain that was approved. -/
theorem approved_chain_devnet :
    ∃ request,
      plain.Approved newWallet 0 devnetVisit devnetAdmission request (seenYes ++ devnetAsked) ∧
      request.proposal.toClient = devnet ∧
      (newWallet.after (.go 0 :: seenYes ++ devnetAsked)).world.registry.selectedChain
        = .ok request.proposal.toChain := by
  have hchecks : plain.Checks newWallet 0 devnetVisit devnetAdmission _ (seenYes ++ devnetAsked) :=
    ⟨rfl, ⟨_, rfl⟩, Crew.leads_of_follow (seenYes ++ List.replicate 5 (.go 0)) rfl⟩
  obtain ⟨request, later, looked, hpast, hfirst, happroved, _, hclient, _, hswitched, hkept⟩ :=
    approved_chain_iff rfl hchecks rfl
  have huntouched : ∀ a ∈ later, a.edits devnet = false := by
    obtain ⟨between, rfl⟩ := hfirst.leads.suffix
    have happend : (seenYes ++ List.replicate 5 (.go 0)) ++ devnetAdmission
        = (later ++ .go 0 :: between) ++ devnetAdmission := by
      rw [List.append_assoc, List.append_assoc]
      exact hpast
    have hcut := List.append_cancel_right happend
    intro a ha
    have hmem : a ∈ seenYes ++ List.replicate 5 (.go 0) := hcut ▸ List.mem_append_left _ ha
    simp only [seenYes, List.mem_append, List.mem_cons, List.not_mem_nil, or_false,
      List.mem_replicate] at hmem
    rcases hmem with (rfl | rfl) | ⟨_, rfl⟩ <;> rfl
  refine ⟨request, happroved, hclient, ?_⟩
  rcases hswitched with ⟨hunknown, _⟩ | ⟨_, hiff⟩
  · exact nomatch hunknown
  · exact hiff.2 (hkept huntouched)

/-- **Not always the chain that was approved.**  The client is registered anew, for another
chain, while the user is asked: the user says yes to the first chain, and the second is
selected. -/
theorem other_chain_than_approved :
    ∃ s request, plain.Checks newWallet 0 devnetVisit devnetAdmission s
        (seenYes ++ register ⟨7⟩ :: devnetAsked) ∧ s.switch? = some devnet ∧
      plain.Approved newWallet 0 devnetVisit devnetAdmission request
        (seenYes ++ register ⟨7⟩ :: devnetAsked) ∧
      request.proposal.toClient = devnet ∧ request.proposal.toChain = ⟨0x539⟩ ∧
      (newWallet.after (.go 0 :: seenYes ++ register ⟨7⟩ :: devnetAsked)).world.registry.selected
        = devnet ∧
      (newWallet.after
        (.go 0 :: seenYes ++ register ⟨7⟩ :: devnetAsked)).world.registry.selectedChain
        = .ok ⟨7⟩ := by
  have hasked : plain.Checks newWallet 0 devnetVisit devnetAdmission _
      (register ⟨7⟩ :: devnetAsked) :=
    ⟨rfl, ⟨_, rfl⟩, Crew.leads_of_follow (register ⟨7⟩ :: List.replicate 5 (.go 0)) rfl⟩
  have hchecks : plain.Checks newWallet 0 devnetVisit devnetAdmission _
      (seenYes ++ register ⟨7⟩ :: devnetAsked) :=
    ⟨rfl, ⟨_, rfl⟩, Crew.leads_of_follow (seenYes ++ register ⟨7⟩ :: List.replicate 5 (.go 0)) rfl⟩
  exact ⟨_, _, hchecks, rfl, ⟨.fresh 0, _, _, _, _, ⟨[.go 0], rfl⟩, hasked, rfl⟩, rfl,
    rfl, rfl, rfl⟩

end Gate

end WalletGate
