import WalletGate.Proofs.Check
import WalletGate.Proofs.Polls

/-!
# A network that has been ensured stays ensured

A check of a network that ends well leaves the client's network selected: it has found that
the chain of the client is the one selected, or it has selected the client itself.  The two
are the same to the next check, although it finds the two chains in different ways, one by
the client it is given and the other by the client the registry has stored.  So while nobody
touches the registry, every further check of that client ends well at once, for whatever
origin.  Nobody is asked again, and nothing is changed.

While the first check waits for the user anything may happen, also to the networks.

* `Registry.OnNetwork` — the network of a client is the selected one;
* `Gate.run_ensureNetwork` — there a check does nothing but leave a notice;
* `Gate.onNetwork_of_comes` — and a check that ends well ends there;
* `Gate.ensured_again` — so a second check asks nobody and changes nothing.
-/

namespace WalletGate

variable {η : Type} {client : ClientId} {chain : ChainId}

/-- The chain of a client is the one selected. -/
structure Registry.OnNetwork (client : ClientId) (chain : ChainId) (r : Registry) : Prop where
  client : r.chainOf client = .ok chain
  selected : r.selectedChain = .ok chain

namespace Gate

variable {queue : Nat} {classifier : Classifier} {flag : Program η Bool} {origin : Origin}
    {w v : World η}
  {worlds : List (World η)} {current target : ChainId}

/-- A client is looked up at once, and the registry stays as it is; where there is such a
client so does all the rest. -/
theorem run_targetChain (client : ClientId) (w : World η) :
    ∃ u, ((own queue classifier flag).targetChain client).run w
      = (.finished (w.registry.chainOf client), u) ∧
      u.registry = w.registry ∧ ∀ chain, w.registry.chainOf client = .ok chain → u = w := by
  unfold targetChain
  cases hclient : BuiltIn.ofClientId? client with
  | some network =>
    rw [Registry.chainOf_builtIn hclient]
    exact ⟨w, rfl, rfl, fun _ _ => rfl⟩
  | none =>
    have hconfig : ((own queue classifier flag).collaborators.clientConfig client).run w
        = (.finished (w.registry.clientConfig client), w) := rfl
    dsimp only
    rw [Program.run_bind, hconfig, Registry.chainOf]
    cases w.registry.clientConfig client with
    | ok config => exact ⟨w, rfl, rfl, fun _ _ => rfl⟩
    | error fault => exact ⟨w.note (.lookupFailed client fault), rfl, rfl, by simp [Except.map]⟩

/-- The chain of a client that is on its network is found at once. -/
theorem comes_targetChain (h : w.registry.OnNetwork client chain) :
    (Thread.fresh ((own queue classifier flag).targetChain client)).Comes w [] (.ok chain) w := by
  obtain ⟨u, hrun, -, hsame⟩ := @run_targetChain η queue classifier flag client w
  obtain rfl := hsame chain h.client
  exact .now (hrun.trans (by rw [h.client]))

/-- So is the selected chain. -/
theorem comes_selectedChain (h : w.registry.OnNetwork client chain) :
    (Thread.fresh (own queue classifier flag).collaborators.selectedChain).Comes w []
    (.ok chain) w := by
  refine .now ?_
  rw [← h.selected]
  rfl

/-- **A check that finds the chain of its client selected ends well**, and leaves a notice. -/
theorem comes_ensureNetwork {g : Gate η} {u : World η} {looks compares : List (World η)}
    (htarget : (Thread.fresh (g.targetChain client)).Comes w looks (.ok chain) v)
    (hselected : (Thread.fresh g.collaborators.selectedChain).Comes v compares (.ok chain) u) :
    (Thread.fresh (g.ensureNetwork origin client)).Comes w (looks ++ compares) (.ok ())
      (u.note (.onSelectedNetwork origin chain)) := by
  have hcompared : (Thread.fresh (g.compared origin client chain (.ok chain))).Comes u [] (.ok ())
      (u.note (.onSelectedNetwork origin chain)) := by
    refine .now ?_
    simp only [compared, if_true]
    rfl
  have htargeted : (Thread.fresh (g.targeted origin client (.ok chain))).Comes v
    (compares ++ []) (.ok ())
      (u.note (.onSelectedNetwork origin chain)) := hselected.bind hcompared
  rw [List.append_nil] at htargeted
  exact htarget.bind htargeted

/-- **Where the network of the client is the selected one a check ends well at once.** -/
theorem run_ensureNetwork (h : w.registry.OnNetwork client chain) :
    ((own queue classifier flag).ensureNetwork origin client).run w
      = (.finished (.ok ()), w.note (.onSelectedNetwork origin chain)) := by
  have hcomes : (Thread.fresh ((own queue classifier flag).ensureNetwork origin client)).Comes
    w [] (.ok ())
      (w.note (.onSelectedNetwork origin chain)) :=
      comes_ensureNetwork (comes_targetChain h) (comes_selectedChain h)
  cases hcomes with
  | now ends => exact ends

/-- A client that was selected is on its network, also when the origin is bound to it. -/
theorem onNetwork_of_switched {answer : Except Fault Unit}
    (hanswer : answer = .ok () →
      w.registry.selected = client ∧ w.registry.chainOf client = .ok chain)
    (h : (Thread.fresh
      ((own queue classifier flag).switched origin client current target answer)).Comes w worlds
      (.ok ()) v) : v.registry.OnNetwork client chain := by
  cases answer with
  | error fault =>
    exact absurd rfl h.not_failed
  | ok u =>
    obtain ⟨hselected, hchain⟩ := hanswer rfl
    have hprogram : (own queue classifier flag).switched origin client current target (.ok u)
        = ((own queue classifier flag).collaborators.bindOrigin origin client).bind
            (bound origin client current target) := rfl
    rw [hprogram] at h
    obtain ⟨_, bound, _, _, -, hbind, h⟩ := h.of_fresh_bind
    obtain ⟨-, rfl⟩ := hbind.of_finished rfl
    have hnetworks := w.sameNetworks_bind origin client
    have hon : (w.onRegistry (Registry.bind origin client)).2.registry.OnNetwork client chain :=
      ⟨(hnetworks.chainOf client).trans hchain, by
        rw [hnetworks.selectedChain, Registry.selectedChain_eq, hselected, hchain]⟩
    cases bound with
    | error fault =>
      exact absurd rfl h.not_failed
    | ok u =>
      obtain ⟨-, rfl⟩ := h.of_finished rfl
      exact hon

/-- **A decision that leads to a good end has put the client on its network.** -/
theorem onNetwork_of_decided {answer : Except Fault Unit}
    (h : (Thread.fresh
      ((own queue classifier flag).decided origin client current target answer)).Comes w worlds
      (.ok ()) v) : ∃ chain, v.registry.OnNetwork client chain := by
  cases answer with
  | error fault =>
    exact absurd rfl h.not_failed
  | ok u =>
    obtain ⟨k, hswitch, hanswer⟩ := registry_switchTo queue classifier flag client w
    have hprogram : (own queue classifier flag).decided origin client current target (.ok u)
        = (Program.perform k).bind
          ((own queue classifier flag).switched origin client current target) := by
      rw [decided, hswitch]
      rfl
    rw [hprogram] at h
    obtain ⟨_, switched, _, _, -, hswitched, h⟩ := h.of_fresh_bind
    obtain ⟨rfl, rfl⟩ := hswitched.of_perform
    rcases hanswer with ⟨⟨chain, hchain⟩, -, hregistry⟩ | ⟨fault, -, herror, -⟩
    · refine ⟨chain, onNetwork_of_switched (fun _ => ?_) h⟩
      rw [hregistry]
      exact ⟨rfl, hchain⟩
    · rw [herror] at h
      exact absurd rfl h.not_failed

/-- A change of network that leads to a good end has put the client on its network. -/
theorem onNetwork_of_changed
    (h : (Thread.fresh
      ((own queue classifier flag).changeNetwork origin client current target)).Comes w worlds
      (.ok ()) v) : ∃ chain, v.registry.OnNetwork client chain := by
  unfold changeNetwork at h
  obtain ⟨_, _, _, _, -, -, h⟩ := h.of_fresh_bind
  obtain ⟨_, request, _, _, -, -, h⟩ := h.of_fresh_bind
  obtain ⟨_, answer, _, _, -, -, h⟩ := h.of_fresh_bind
  exact onNetwork_of_decided h

/-- **A check that ends well leaves the network of its client selected.** -/
theorem onNetwork_of_comes
    (h : (Thread.fresh ((own queue classifier flag).ensureNetwork origin client)).Comes w worlds
      (.ok ()) v) :
    ∃ chain, v.registry.OnNetwork client chain := by
  obtain ⟨u, hrun, hregistry, -⟩ := @run_targetChain η queue classifier flag client w
  unfold ensureNetwork at h
  obtain ⟨_, found, x, _, -, hlooked, h⟩ := h.of_fresh_bind
  obtain ⟨rfl, rfl⟩ := hlooked.of_finished hrun
  cases hchain : w.registry.chainOf client with
  | error fault =>
    rw [hchain] at h
    exact absurd rfl h.not_failed
  | ok target =>
    rw [hchain] at h
    unfold targeted at h
    obtain ⟨_, found, y, _, -, hselected, h⟩ := h.of_fresh_bind
    obtain ⟨hfound, rfl⟩ : found = y.registry.selectedChain ∧ x = y := by
      obtain ⟨rfl, rfl⟩ := hselected.of_perform
      exact ⟨rfl, rfl⟩
    cases found with
    | error fault => exact absurd rfl h.not_failed
    | ok current =>
      unfold compared at h
      dsimp only at h
      split at h
      · next hsame =>
        obtain ⟨-, rfl⟩ := h.of_finished rfl
        exact ⟨target, hregistry ▸ hchain, hsame ▸ hfound.symm⟩
      · exact onNetwork_of_changed h

/-- **A network is ensured once.**  When a check of a client has ended well, in whatever
worlds it was resumed until then, and nobody touches the registry, a further check of the
same client ends well at once, for whatever origin.  All that it leaves is a notice: nothing
is drawn up or asked, and selection and bindings stay as they are. -/
theorem ensured_again (other : Origin) {u : World η}
    (h : (Thread.fresh ((own queue classifier flag).ensureNetwork origin client)).Comes w worlds
      (.ok ()) u)
    (hregistry : v.registry = u.registry) :
    ∃ chain, v.registry.OnNetwork client chain ∧
      ((own queue classifier flag).ensureNetwork other client).run v
        = (.finished (.ok ()), v.note (.onSelectedNetwork other chain)) := by
  obtain ⟨chain, hon⟩ := onNetwork_of_comes h
  rw [← hregistry] at hon
  exact ⟨chain, hon, run_ensureNetwork hon⟩

/-! ### A client that is registered anew while the user is asked -/

/-- A client of somebody's own. -/
def fork : ClientId := ⟨"fork"⟩

/-- A wallet that knows the client. -/
def beforeFork : World Unit :=
  ((World.start ()).onRegistry (Registry.addCustom fork ⟨⟨0x539⟩, none, none⟩)).2

/-- A site had the client checked, and the user is asked. -/
def forkAsked : World Unit := ((plain.ensureNetwork ⟨"https://dapp.example"⟩ fork).run beforeFork).2

/-- The client was registered anew, with another chain, before the user said yes. -/
def forkAccepted : World Unit :=
  ((forkAsked.onRegistry (Registry.addCustom fork ⟨⟨7⟩, none, none⟩)).2.onDesk
    (Desk.accept (.fresh 0))).2

/-- The check has ended. -/
def forkEnsured : World Unit :=
  ((Thread.fresh (plain.ensureNetwork ⟨"https://dapp.example"⟩ fork)).polled beforeFork
    [forkAccepted]).2

/-- A second later another site has the client checked too: nobody is asked. -/
theorem ensured_again_fork :
    (Thread.fresh (plain.ensureNetwork ⟨"https://dapp.example"⟩ fork)).Comes beforeFork
    [forkAccepted] (.ok ())
      forkEnsured ∧
    ((plain.ensureNetwork ⟨"https://other.example"⟩ fork).run (forkEnsured.advance 1000)).2
      = (forkEnsured.advance 1000).note (.onSelectedNetwork ⟨"https://other.example"⟩ ⟨7⟩) := by
  have hcomes : (Thread.fresh (plain.ensureNetwork ⟨"https://dapp.example"⟩ fork)).Comes beforeFork
    [forkAccepted]
      (.ok ()) forkEnsured := .later rfl (.now rfl)
  have hregistry : (forkEnsured.advance 1000).registry = forkEnsured.registry := rfl
  obtain ⟨chain, hon, hrun⟩ := ensured_again ⟨"https://other.example"⟩ hcomes hregistry
  have hchain : (forkEnsured.advance 1000).registry.selectedChain = .ok ⟨7⟩ := rfl
  obtain rfl := Except.ok.inj (hon.selected.symm.trans hchain)
  exact ⟨hcomes, congrArg Prod.snd hrun⟩

end Gate

end WalletGate
