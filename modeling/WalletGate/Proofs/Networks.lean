import WalletGate.Proofs.Admission
import WalletGate.Proofs.Track

/-!
# What moves the networks, and what does not

The chain of a client is found in the registry, and so is the client that is selected.
Tasks never edit the clients that are registered.  What a task does while another holds the
slot, what comes from outside without editing the networks, and giving a task up leave the
selection alone too, where every change of the selection is made behind the slot
(`Crew.OnlyBehindSlot`).

A history is **calm** for a task from some point on if nothing the task itself did there
touched the networks.

* `Crew.custom_after` — without edits from outside the registered clients are always the same;
* `Crew.Guarded.sameNetworks` — while a task holds the slot, only it changes the selection;
* `Crew.Calm.sameNetworks` — so the networks are the same behind a calm stretch as before it.
-/

namespace WalletGate

variable {η α β : Type}

namespace Registry

/-- The chain of a client, if there is such a client. -/
def chainOf (id : ClientId) (r : Registry) : Except Fault ChainId :=
  (r.clientConfig id).map ClientConfig.chainId

/-- The same clients are registered, and the same one is selected. -/
def SameNetworks (r s : Registry) : Prop :=
  s.custom = r.custom ∧ s.selected = r.selected

theorem SameNetworks.refl (r : Registry) : r.SameNetworks r := ⟨rfl, rfl⟩

theorem SameNetworks.trans {r s t : Registry} (hrs : r.SameNetworks s) (hst : s.SameNetworks t) :
    r.SameNetworks t :=
  ⟨hst.1.trans hrs.1, hst.2.trans hrs.2⟩

/-- The chain selected is the chain of the client selected. -/
theorem selectedChain_eq (r : Registry) : r.selectedChain = r.chainOf r.selected := rfl

/-- Chains depend on the registered clients only. -/
theorem chainOf_congr {r s : Registry} (h : s.custom = r.custom) (id : ClientId) :
    s.chainOf id = r.chainOf id := by
  simp [chainOf, clientConfig, resolve, h]

theorem SameNetworks.chainOf {r s : Registry} (h : r.SameNetworks s) (id : ClientId) :
    s.chainOf id = r.chainOf id :=
  chainOf_congr h.1 id

theorem SameNetworks.selectedChain {r s : Registry} (h : r.SameNetworks s) :
    s.selectedChain = r.selectedChain := by
  rw [selectedChain_eq, selectedChain_eq, h.2, h.chainOf]

/-- A built-in client has the chain it always had. -/
theorem chainOf_builtIn {id : ClientId} {network : BuiltIn}
    (h : BuiltIn.ofClientId? id = some network)
    (r : Registry) : r.chainOf id = .ok network.chainId := by
  simp [chainOf, clientConfig, resolve, h, Except.map]

/-- Selecting a client registers none. -/
theorem custom_switchToCustom {id : ClientId} {r s : Registry} {n : Notice}
    (h : r.switchToCustom id = .ok (s, n)) : s.custom = r.custom := by
  unfold switchToCustom at h
  split at h
  · obtain ⟨rfl, _⟩ := Prod.mk.inj (Except.ok.inj h)
    rfl
  · simp at h

/-- Binding an origin leaves the networks alone. -/
theorem sameNetworks_bind {origin : Origin} {id : ClientId} {r s : Registry} {n : Notice}
    (h : r.bind origin id = .ok (s, n)) : r.SameNetworks s := by
  unfold Registry.bind at h
  split at h
  · obtain ⟨rfl, _⟩ := Prod.mk.inj (Except.ok.inj h)
    exact ⟨rfl, rfl⟩
  · simp at h

end Registry

namespace World

/-- What holds of the registry, and of whatever an operation makes of it, holds behind the
operation. -/
theorem registry_onRegistry {P : Registry → Prop}
    {act : Registry → Except Fault (Registry × Notice)}
    {w : World η} (hsame : P w.registry) (hdone : ∀ r n, act w.registry = .ok (r, n) → P r) :
    P (w.onRegistry act).2.registry := by
  unfold onRegistry
  split
  · next r n h => exact hdone r n h
  · exact hsame

@[simp] theorem registry_onDesk (act : Desk → Except Fault (Desk × List Notice)) (w : World η) :
    (w.onDesk act).2.registry = w.registry := by
  unfold onDesk
  split <;> rfl

/-- Binding an origin leaves the networks alone, whether it can be done or not. -/
theorem sameNetworks_bind (origin : Origin) (id : ClientId) (w : World η) :
    w.registry.SameNetworks (w.onRegistry (Registry.bind origin id)).2.registry :=
  registry_onRegistry (.refl _) fun _ _ => Registry.sameNetworks_bind

/-- **Tasks never edit the registered clients.** -/
theorem Becomes.custom_eq {w v : World η} (h : w.Becomes v) :
    v.registry.custom = w.registry.custom := by
  cases h with
  | called c =>
    cases c with
    | note n => rfl
    | queueLength queue => rfl
    | isQueueing => rfl
    | clientConfig id => rfl
    | selectedChain => rfl
    | switchToBuiltIn network => rfl
    | switchToCustom id =>
      exact registry_onRegistry (P := fun r => r.custom = w.registry.custom) rfl
        fun _ _ => Registry.custom_switchToCustom
    | bindOrigin origin id => exact (w.sameNetworks_bind origin id).1
    | draft origin fromChain toChain client => rfl
  | same => rfl
  | hosted host => rfl
  | parked request => rfl
  | concluded requester request ending => rfl
  | left requester id => rfl
  | entered queue => rfl
  | wentOn queue place => rfl
  | released queue => rfl
  | abandoned queue place => rfl

end World

/-- Giving a thread up leaves the registry alone. -/
theorem Thread.registry_cancel (t : Thread η α) (w : World η) :
    (t.cancel w).registry = w.registry := by
  induction t with
  | fresh p => rfl
  | held step next => rfl
  | asking requester deadline request next => rfl
  | waiting queue place job next => rfl
  | holding queue inner next ih => exact ih

/-- What comes from outside without editing the networks leaves them alone. -/
theorem Outside.sameNetworks {o : Outside η} (h : o.editsNetworks = false) (w : World η) :
    w.registry.SameNetworks (o.apply w).registry := by
  cases o with
  | accept id => simpa [apply] using .refl _
  | reject id reason => simpa [apply] using .refl _
  | rejectAll reason => exact .refl _
  | wait milliseconds => exact .refl _
  | setQueueing queueing => exact .refl _
  | host change => exact .refl _
  | addCustom id config => simp [editsNetworks] at h
  | removeCustom id => simp [editsNetworks] at h
  | switchToBuiltIn network => simp [editsNetworks] at h
  | switchToCustom id => simp [editsNetworks] at h
  | bindOrigin origin id => exact w.sameNetworks_bind origin id

namespace Crew

/-- Nobody edits the networks from outside. -/
def NoEdits (past : List (Act η α)) : Prop :=
  ∀ o, Act.outside o ∈ past → o.editsNetworks = false

/-- A task that changes the selection holds the slot of the queue when it does. -/
def OnlyBehindSlot (queue : Nat) (c : Crew η α) (past : List (Act η α)) : Prop :=
  ∀ later i earlier, past = later ++ .go i :: earlier →
    (c.after (.go i :: earlier)).world.registry.selected
      ≠ (c.after earlier).world.registry.selected →
    .runs ∈ (c.after earlier).placesOf queue i

theorem NoEdits.suffix {past h : List (Act η α)} (hedits : NoEdits past) (hh : h <:+ past) :
    NoEdits h :=
  fun o ho => hedits o (hh.subset ho)

theorem OnlyBehindSlot.suffix {queue : Nat} {c : Crew η α} {past h : List (Act η α)}
    (hslot : OnlyBehindSlot queue c past) (hh : h <:+ past) : OnlyBehindSlot queue c h := by
  obtain ⟨front, rfl⟩ := hh
  intro later i earlier heq
  exact hslot (front ++ later) i earlier (by rw [heq, List.append_assoc])

/-- **The registered clients are always the same.** -/
theorem custom_after {c : Crew η α} {past : List (Act η α)} (hedits : NoEdits past) :
    (c.after past).world.registry.custom = c.world.registry.custom := by
  induction past with
  | nil => rfl
  | cons a past ih =>
    have hstep := world_perform (a := a)
      (R := fun w v : World η => v.registry.custom = w.registry.custom) (fun _ => rfl)
      (fun _ _ _ huv hvw => hvw.trans huv) (fun _ _ h => h.custom_eq)
      (c.after past) fun o ho => (Outside.sameNetworks (hedits o (ho ▸ List.mem_cons_self)) _).1
    exact hstep.trans (ih fun o ho => hedits o (List.mem_cons_of_mem a ho))

/-- Nothing stands in the way of the task that holds the slot: at most one does, nobody
edits the networks, and whoever changes the selection holds the slot. -/
structure Guarded (queue : Nat) (c : Crew η α) (past : List (Act η α)) : Prop where
  alone : ∀ h, h <:+ past → (c.after h).running queue ≤ 1
  edits : NoEdits past
  slot : OnlyBehindSlot queue c past

theorem Guarded.suffix {queue : Nat} {c : Crew η α} {past h : List (Act η α)}
    (hg : Guarded queue c past) (hh : h <:+ past) : Guarded queue c h where
  alone h' hh' := hg.alone h' (hh'.trans hh)
  edits := hg.edits.suffix hh
  slot := hg.slot.suffix hh

/-- **Only the task that holds the slot changes the selection.** -/
theorem Guarded.sameNetworks {queue i : Nat} {c : Crew η α} {a : Act η α} {h : List (Act η α)}
    (hg : Guarded queue c (a :: h)) (hholds : .runs ∈ (c.after h).placesOf queue i)
    (hgo : a ≠ .go i) :
    (c.after h).world.registry.SameNetworks (c.after (a :: h)).world.registry := by
  cases a with
  | spawn name p => exact .refl _
  | go j =>
    have hji : j ≠ i := fun hj => hgo (hj ▸ rfl)
    have hcustom : (c.after (.go j :: h)).world.registry.custom
        = (c.after h).world.registry.custom :=
      (custom_after hg.edits).trans (custom_after (hg.suffix (List.suffix_cons _ h)).edits).symm
    refine ⟨hcustom, ?_⟩
    by_cases hselected : (c.after (.go j :: h)).world.registry.selected
      = (c.after h).world.registry.selected
    · exact hselected
    · have hj := hg.slot [] j h rfl hselected
      exact absurd (eq_of_runs (hg.alone h (List.suffix_cons _ h)) hj hholds) hji
  | drop j =>
    have hregistry : (c.after (.drop j :: h)).world.registry = (c.after h).world.registry := by
      rw [after_cons, perform, giveUp]
      split
      · rfl
      · next t _ => exact t.registry_cancel _
    exact hregistry ▸ .refl _
  | outside o => exact Outside.sameNetworks (hg.edits o List.mem_cons_self) _

/-- The task holds the slot all along, and nothing it does touches the networks. -/
inductive Calm (queue : Nat) (c : Crew η α) (i : Nat) (p : List (Act η α)) : List (Act η α) → Prop
  | start (holds : .runs ∈ (c.after p).placesOf queue i) : Calm queue c i p p
  | other {h : List (Act η α)} {a : Act η α} (before : Calm queue c i p h) (hgo : a ≠ .go i)
    (hdrop : a ≠ .drop i) : Calm queue c i p (a :: h)
  | own {h : List (Act η α)} (before : Calm queue c i p h)
    (same : (c.after h).world.registry.SameNetworks (c.after (.go i :: h)).world.registry)
    (holds : .runs ∈ (c.after (.go i :: h)).placesOf queue i) : Calm queue c i p (.go i :: h)

variable {queue i : Nat} {c : Crew η α} {p h : List (Act η α)}

theorem Calm.holds (hcalm : Calm queue c i p h) : .runs ∈ (c.after h).placesOf queue i := by
  induction hcalm with
  | start holds => exact holds
  | other _ hgo hdrop ih =>
    obtain ⟨t, ht, hruns⟩ := exists_thread?_of_mem ih
    rw [after_cons, placesOf, thread?_perform ht hgo hdrop]
    exact hruns
  | own _ _ holds => exact holds

/-- **The networks are the same behind a calm stretch as before it.** -/
theorem Calm.sameNetworks (hcalm : Calm queue c i p h) (hg : Guarded queue c h) :
    (c.after p).world.registry.SameNetworks (c.after h).world.registry := by
  induction hcalm with
  | start _ => exact .refl _
  | other before hgo _ ih =>
    exact (ih (hg.suffix (List.suffix_cons _ _))).trans (hg.sameNetworks before.holds hgo)
  | own _ same _ ih => exact (ih (hg.suffix (List.suffix_cons _ _))).trans same

end Crew

end WalletGate
