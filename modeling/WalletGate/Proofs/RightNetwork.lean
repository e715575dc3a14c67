import WalletGate.Proofs.Check

/-!
# The right network while a request is served

While the handlers behind the gate serve a request that needs confirmation, the selected
chain is the chain of the client the request names, and whenever the gate itself changes the
selection the user had said yes to that change: to that origin, from the chain selected just
before, to that client.

The chain is looked up, compared, approved, changed and used at different moments, and
anything may happen in between; what holds it all together is the slot.  The selection is
changed only by the gate's own checks and by the handlers of requests to switch
(`Gate.WritesSelection`), both of them behind the slot, at most one task holds it, and
nobody edits the networks from outside (`Crew.NoEdits`).

* `Gate.Serves.sameNetworks` — the networks are as the check left them as long as the
  handlers are under way;
* `Gate.right_network` — both results, of every history.
-/

namespace WalletGate

variable {η α : Type} {queue : Nat} {classifier : Classifier} {flag : Program η Bool} {c : Crew η α}
  {i : Nat} {v : Visit η} {past : List (Act η α)}

namespace Gate

/-- A request to switch the network was admitted, and this is left of the handlers that
serve it. -/
def ServesSwitch (g : Gate η) (c : Crew η α) (i : Nat) (v : Visit η) (s : Thread η Turn)
    (h : List (Act η α)) : Prop :=
  v.kind = .isNetworkSwitchRequest ∧
    ∃ begun, g.Begins c i v begun ∧ c.Leads i (.fresh (v.rest v.request v.response)) begun s h

/-- A task changes the selection only in a network check of the gate, or while the handlers
behind the gate serve a request to switch. -/
def WritesSelection (g : Gate η) (c : Crew η α) (past : List (Act η α)) : Prop :=
  ∀ later i earlier, past = later ++ .go i :: earlier →
    (c.after (.go i :: earlier)).world.registry.selected
      ≠ (c.after earlier).world.registry.selected →
    ∃ v, (∃ begun s, g.Checks c i v begun s earlier) ∨ ∃ s, g.ServesSwitch c i v s earlier

/-- The task leaves the selection alone from there on. -/
def LeavesSelection (c : Crew η α) (i : Nat) (entered past : List (Act η α)) : Prop :=
  ∀ later earlier, past = later ++ .go i :: earlier → entered <:+ earlier →
    (c.after (.go i :: earlier)).world.registry.selected = (c.after earlier).world.registry.selected

/-- The handlers that serve a request to switch are where their task is. -/
theorem ServesSwitch.thread?_eq {g : Gate η} {s : Thread η Turn}
    (hserves : g.ServesSwitch c i v s past) :
    ∃ next, (c.after past).thread? i = some (.holding g.queue s next) := by
  obtain ⟨hkind, begun, ⟨next, ht⟩, hlead⟩ := hserves
  have hjob : g.job v = v.rest v.request v.response := by simp [job, admitted, hkind]
  rw [hjob] at ht
  exact ⟨next, hlead.thread?_eq (Thread.isFrame_holding g.queue next) (fun _ => rfl) ht⟩

/-- Checks hold the slot, and so do the handlers of requests to switch: whoever changes the
selection holds it. -/
theorem WritesSelection.onlyBehindSlot
    (hwrites : (own queue classifier flag).WritesSelection c past) :
    Crew.OnlyBehindSlot queue c past := by
  intro later i earlier heq hchange
  obtain ⟨v, ⟨begun, s, hchecks⟩ | ⟨s, hserves⟩⟩ := hwrites later i earlier heq hchange
  · obtain ⟨next, ht⟩ := hchecks.thread?_eq
    exact runs_of_around ht
  · obtain ⟨next, ht⟩ := hserves.thread?_eq
    rw [Crew.placesOf, ht]
    simp [own, Thread.places]

theorem WritesSelection.nil {g : Gate η} : g.WritesSelection c [] := by
  intro later i earlier heq
  simp at heq

/-- One more act: it is a step of a check or of a request to switch if it changes the
selection. -/
theorem WritesSelection.cons {g : Gate η} {a : Act η α} (hwrites : g.WritesSelection c past)
    (hstep : ∀ i, a = .go i →
      (c.after (.go i :: past)).world.registry.selected ≠ (c.after past).world.registry.selected →
      ∃ v, (∃ begun s, g.Checks c i v begun s past) ∨ ∃ s, g.ServesSwitch c i v s past) :
    g.WritesSelection c (a :: past) := by
  intro later i earlier heq hchange
  cases later with
  | nil =>
    obtain ⟨rfl, rfl⟩ := List.cons.inj heq
    exact hstep i rfl hchange
  | cons b later =>
    obtain ⟨rfl, rfl⟩ := List.cons.inj heq
    exact hwrites later i earlier rfl hchange

/-- One more act that leaves the selection alone. -/
theorem WritesSelection.kept {g : Gate η} {a : Act η α} (hwrites : g.WritesSelection c past)
    (hsame : (c.after (a :: past)).world.registry.selected
      = (c.after past).world.registry.selected) :
    g.WritesSelection c (a :: past) :=
  hwrites.cons fun _ ha hchange => absurd hsame (ha ▸ hchange)

theorem LeavesSelection.start (entered : List (Act η α)) : LeavesSelection c i entered entered := by
  intro later earlier heq hentered
  have hlength := congrArg List.length heq
  rw [List.length_append, List.length_cons] at hlength
  have hle := hentered.length_le
  omega

/-- One more act that leaves the selection alone. -/
theorem LeavesSelection.kept {a : Act η α} {entered : List (Act η α)}
    (hleaves : LeavesSelection c i entered past)
    (hsame : (c.after (a :: past)).world.registry.selected
      = (c.after past).world.registry.selected) :
    LeavesSelection c i entered (a :: past) := by
  intro later earlier heq hentered
  cases later with
  | nil =>
    obtain ⟨rfl, rfl⟩ := List.cons.inj heq
    exact hsame
  | cons b later =>
    obtain ⟨rfl, rfl⟩ := List.cons.inj heq
    exact hleaves later earlier rfl hentered

/-- A wallet nobody has used, and a history in which only checks and requests to switch
change the selection. -/
theorem WritesSelection.guarded {w : World η} (hidle : w.queues queue = Queue.idle)
    (hfew : (((Crew.ofWorld w).after past).world.queues queue).signals < UInt64.size)
    (hedits : Crew.NoEdits past)
    (hwrites : (own queue classifier flag).WritesSelection (Crew.ofWorld w) past) :
    Crew.Guarded queue (Crew.ofWorld w : Crew η α) past where
  alone h hh := by
    have hsignals := Nat.lt_of_le_of_lt (Crew.signals_le_of_suffix queue (Crew.ofWorld w) hh) hfew
    obtain ⟨line, hline⟩ := Crew.standing hidle h hsignals
    exact hline.one_runs
  edits := hedits
  slot := hwrites.onlyBehindSlot

/-- When a check has ended well, the chain selected is the chain of the client. -/
theorem Checks.selectedChain {begun : List (Act η α)} (hg : c.Guarded queue past)
    (hdesk : c.world.desk.Sound)
    (hchecks : (own queue classifier flag).Checks c i v begun (.fresh (.done (.ok ()))) past) :
    ∃ chain, (c.after past).world.registry.chainOf v.client = .ok chain ∧
      (c.after past).world.registry.selectedChain = .ok chain := by
  rcases (hchecks.stage hdesk).right rfl with ⟨chain, hlooked, ⟨p, hcalm, hsaw⟩⟩ | ⟨p, hcalm, hp⟩
  · obtain ⟨p', hcalm', hchain⟩ := hlooked.since
    refine ⟨chain, ?_, ?_⟩
    · rw [(hcalm'.sameNetworks hg).chainOf, hchain]
    · rw [(hcalm.sameNetworks hg).selectedChain, hsaw]
  · obtain ⟨hselected, chain, hchain⟩ := hp
    have hsame := hcalm.sameNetworks hg
    refine ⟨chain, ?_, ?_⟩
    · rw [hsame.chainOf, hchain]
    · rw [hsame.selectedChain, Registry.selectedChain_eq, hselected, hchain]

/-- **The networks are as the check left them** as long as the handlers are under way. -/
theorem Serves.sameNetworks {entered : List (Act η α)} {s : Thread η Turn}
    (hg : c.Guarded queue past)
    (hserves : (own queue classifier flag).Serves c i v entered s past)
    (hleaves : LeavesSelection c i entered past) :
    (c.after entered).world.registry.SameNetworks (c.after past).world.registry := by
  obtain ⟨hpassed, hlead⟩ := hserves
  induction hlead with
  | start => exact .refl _
  | @went s h before hs ih =>
    have hearlier := hg.suffix (List.suffix_cons (.go i) h)
    have hbefore : LeavesSelection c i entered h :=
      fun later earlier heq => hleaves (.go i :: later) earlier (by rw [heq]; rfl)
    have hstep : (c.after h).world.registry.SameNetworks (c.after (.go i :: h)).world.registry :=
      ⟨(Crew.custom_after hg.edits).trans (Crew.custom_after hearlier.edits).symm,
        hleaves [] h rfl before.suffix⟩
    exact (ih hearlier hbefore).trans hstep
  | @stayed s h a before hgo hdrop ih =>
    have hearlier := hg.suffix (List.suffix_cons a h)
    have hbefore : LeavesSelection c i entered h :=
      fun later earlier heq => hleaves (a :: later) earlier (by rw [heq]; rfl)
    obtain ⟨next, ht⟩ := Serves.thread?_eq (g := own queue classifier flag) ⟨hpassed, before⟩
    have hholds : .runs ∈ (c.after h).placesOf queue i := by
      rw [Crew.placesOf, ht]
      simp [own, Thread.places]
    exact (ih hearlier hbefore).trans (hg.sameNetworks hholds hgo)

/-- **The right network.**  In every history of a wallet whose selection is changed only by
checks of the gate and by requests to switch: while the handlers behind the gate serve a
request that needs confirmation and leave the selection alone, the selected chain is the
chain of the client the request names; and when a check changes the selection, it selects
that client, and the user had said yes to a request of that check, for that origin, that
names the chain selected just before and that client with its chain. -/
theorem right_network {w : World η} {limit : Option Nat} (hidle : w.queues queue = Queue.idle)
    (hdesk : w.desk = Desk.empty limit)
    (hfew : (((Crew.ofWorld w).after past).world.queues queue).signals < UInt64.size)
    (hedits : Crew.NoEdits past)
    (hwrites : (own queue classifier flag).WritesSelection (Crew.ofWorld w) past) :
    (∀ i v entered s, (own queue classifier flag).Serves (Crew.ofWorld w) i v entered s past →
      LeavesSelection (Crew.ofWorld w) i entered past →
      ∃ chain, ((Crew.ofWorld w).after past).world.registry.chainOf v.client = .ok chain ∧
        ((Crew.ofWorld w).after past).world.registry.selectedChain = .ok chain) ∧
    ∀ i v begun s, (own queue classifier flag).Checks (Crew.ofWorld w) i v begun s past →
      s.ended? = none →
      ((Crew.ofWorld w).after (.go i :: past)).world.registry.selected
        ≠ ((Crew.ofWorld w).after past).world.registry.selected →
      ((Crew.ofWorld w).after (.go i :: past)).world.registry.selected = v.client ∧
        ∃ request, (own queue classifier flag).Approved (Crew.ofWorld w) i v begun request past ∧
          request.origin = v.origin ∧ request.proposal.toClient = v.client ∧
          ((Crew.ofWorld w).after past).world.registry.selectedChain
            = .ok request.proposal.fromChain ∧
          ((Crew.ofWorld w).after past).world.registry.chainOf v.client
            = .ok request.proposal.toChain := by
  have hg := hwrites.guarded hidle hfew hedits
  have hsound : (Crew.ofWorld w : Crew η α).world.desk.Sound := by
    rw [Crew.ofWorld, hdesk]
    exact Desk.sound_empty limit
  refine ⟨fun i v entered s hserves hleaves => ?_, fun i v begun s hchecks hs hchange => ?_⟩
  · obtain ⟨begun, hchecks⟩ := hserves.passed
    have hsame := hserves.sameNetworks hg hleaves
    obtain ⟨chain, hchain, hselected⟩ :=
      hchecks.selectedChain (hg.suffix hserves.leads.suffix) hsound
    exact ⟨chain, hsame.chainOf v.client ▸ hchain, hsame.selectedChain ▸ hselected⟩
  · rcases hchecks.networks_go hsound hs with hsame | ⟨current, target, request, ⟨p, hcalm, hp⟩,
      ⟨p', hcalm', hp'⟩, hnames, happroved, _, hregistry⟩
    · exact absurd hsame.2 hchange
    · refine ⟨by rw [hregistry], request, happroved, hnames.origin, hnames.toClient, ?_, ?_⟩
      · rw [(hcalm'.sameNetworks hg).selectedChain, hp', hnames.fromChain]
      · rw [(hcalm.sameNetworks hg).chainOf, hp, hnames.toChain]

/-! ### Two requests -/

/-- A wallet whose host is not ready. -/
def idleWallet : Crew Bool Turn := .ofWorld (.start false)

/-- The handlers behind the gate wait until the host is ready. -/
def onceReady : Rest Bool := fun request response =>
  .await (fun ready => if ready then some ((), ready) else none) fun _ => .done
    (.well request response)

/-- A site sends a transaction on sepolia. -/
def sepoliaVisit : Visit Bool := .sending BuiltIn.sepolia.clientId onceReady

/-- The request for sepolia has the slot. -/
def admission : List (Act Bool Turn) :=
  List.replicate 3 (.go 0) ++ [.spawn "first" sepoliaVisit.task]

/-- The user is asked.  A request for mainnet comes and waits, queueing is turned off, the
user says yes. -/
def approval : List (Act Bool Turn) :=
  [.go 0, .outside (.accept (.fresh 0)), .outside (.setQueueing false), .go 1, .go 1, .go 1,
    .spawn "second" (Visit.sending BuiltIn.mainnet.clientId onceReady).task]
      ++ List.replicate 4 (.go 0)

/-- The network is changed and the handlers are about to be entered. -/
def change : List (Act Bool Turn) := List.replicate 3 (.go 0)

/-- They wait for the host, and the request for mainnet waits for them. -/
def service : List (Act Bool Turn) := [.go 1, .outside (.wait 5), .go 0]

/-- A request for sepolia is served on sepolia, and the user had said yes to the change. -/
theorem right_network_sepolia :
    (∃ request, plain.Approved idleWallet 0 sepoliaVisit admission request (approval ++ admission) ∧
      request.proposal.toClient = BuiltIn.sepolia.clientId ∧
      (idleWallet.after (.go 0 :: approval ++ admission)).world.registry.selected
        = BuiltIn.sepolia.clientId) ∧
    (idleWallet.after (service ++ change ++ approval ++ admission)).world.registry.selectedChain
      = .ok BuiltIn.sepolia.chainId := by
  have hbegins : plain.Begins idleWallet 0 sepoliaVisit admission := ⟨_, rfl⟩
  have hchecks : plain.Checks idleWallet 0 sepoliaVisit admission _ (approval ++ admission) :=
    ⟨rfl, hbegins, Crew.leads_of_follow approval rfl⟩
  have hpassed : plain.Checks idleWallet 0 sepoliaVisit admission (.fresh (.done (.ok ())))
      (change ++ approval ++ admission) :=
    ⟨rfl, hbegins, Crew.leads_of_follow (change ++ approval) rfl⟩
  have happroval : plain.WritesSelection idleWallet (approval ++ admission) := by
    repeat refine WritesSelection.kept ?_ rfl
    exact WritesSelection.nil
  have hservice : plain.WritesSelection idleWallet
      (service ++ change ++ approval ++ admission) := by
    repeat refine WritesSelection.kept ?_ rfl
    refine happroval.cons ?_
    rintro _ ⟨⟩ _
    exact ⟨_, .inl ⟨_, _, hchecks⟩⟩
  have hleaves : LeavesSelection idleWallet 0 (change ++ approval ++ admission)
      (service ++ change ++ approval ++ admission) :=
    (((LeavesSelection.start _).kept rfl).kept rfl).kept rfl
  constructor
  · obtain ⟨hselected, request, happroved, _, hclient, _⟩ :=
      (right_network rfl rfl (by decide)
        (by simp [Crew.NoEdits, approval, admission, Outside.editsNetworks])
        happroval).2 0 _ _ _ hchecks rfl (by decide)
    exact ⟨request, happroved, hclient, hselected⟩
  · obtain ⟨chain, hchain, hselected⟩ :=
      (right_network rfl rfl (by decide)
        (by simp [Crew.NoEdits, service, change, approval, admission, Outside.editsNetworks])
        hservice).1 0 _ _ _ ⟨⟨_, hpassed⟩, Crew.leads_of_follow service rfl⟩ hleaves
    exact hselected.trans (hchain.symm.trans rfl)

end Gate

end WalletGate
