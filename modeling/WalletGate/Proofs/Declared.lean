import Mathlib.Data.List.Nodup
import WalletGate.Coordination.Registry
import WalletGate.Settings.Validation

/-!
# The registry that valid settings declare

The settings of networks are judged twice.  Validation walks them and names their first
flaw; the registry made of them walks them again, refuses some of them for reasons of its
own, and lets a client that comes later take the place of an earlier one with the same id.
Where validation found no flaw the two agree: the registry is made, and it knows exactly
what was declared.

* `NetworkSettings.check_eq_ok_iff` — what validation demands of custom clients and of the
  selection;
* `Registry.registers_of_distinct` — clients with distinct ids are all registered, each with
  its own record;
* `Registry.of_validate` — the registry of valid settings looks up what they declare, and
  nothing else.
-/

namespace WalletGate

/-- What validation demands of the settings of networks. -/
structure NetworkSettings.Consistent (n : NetworkSettings) : Prop where
  named : ∀ c ∈ n.custom, c.id.name ≠ ""
  free : ∀ c ∈ n.custom, BuiltIn.ofClientId? c.id = none
  distinct : (n.custom.map CustomNetwork.id).Nodup
  selected : (BuiltIn.ofClientId? n.selected).isSome ∨ n.selected ∈ n.custom.map CustomNetwork.id

/-- The walk along custom clients goes past a client exactly if its id is not empty, not
taken by a built-in network, and not seen before. -/
theorem checkCustom_cons_eq_ok_iff {seen all : List ClientId} {c : CustomNetwork}
    {rest : List CustomNetwork} :
    checkCustom seen (c :: rest) = .ok all ↔
      (c.id.name ≠ "" ∧ BuiltIn.ofClientId? c.id = none ∧ c.id ∉ seen) ∧
      checkCustom (c.id :: seen) rest = .ok all := by
  rw [checkCustom]
  by_cases hname : c.id.name = ""
  · simp [hname]
  · cases hfound : BuiltIn.ofClientId? c.id with
    | some network => simp [hname]
    | none => by_cases hseen : c.id ∈ seen <;> simp [hname, hseen]

/-- The walk comes to its end exactly if it goes past every client; then it has seen the ids
of all of them. -/
theorem checkCustom_eq_ok_iff {seen all : List ClientId} {cs : List CustomNetwork} :
    checkCustom seen cs = .ok all ↔
      (∀ c ∈ cs, c.id.name ≠ "" ∧ BuiltIn.ofClientId? c.id = none ∧ c.id ∉ seen) ∧
        (cs.map CustomNetwork.id).Nodup ∧ all = (cs.map CustomNetwork.id).reverse ++ seen := by
  induction cs generalizing seen with
  | nil =>
    rw [checkCustom, Except.ok.injEq]
    simpa using eq_comm
  | cons c rest ih =>
    rw [checkCustom_cons_eq_ok_iff, ih, List.map_cons, List.nodup_cons, List.forall_mem_cons]
    constructor
    · rintro ⟨hc, hrest, hdistinct, rfl⟩
      refine ⟨⟨hc, ?_⟩, ⟨?_, hdistinct⟩, by simp⟩
      · intro d hd
        obtain ⟨hdname, hdfree, hdseen⟩ := hrest d hd
        exact ⟨hdname, hdfree, fun hmem => hdseen (List.mem_cons_of_mem c.id hmem)⟩
      · intro hmem
        obtain ⟨d, hd, hid⟩ := List.mem_map.1 hmem
        exact (hrest d hd).2.2 (hid ▸ List.mem_cons_self)
    · rintro ⟨⟨hc, hrest⟩, ⟨hnew, hdistinct⟩, rfl⟩
      refine ⟨hc, ?_, hdistinct, by simp⟩
      intro d hd
      obtain ⟨hdname, hdfree, hdseen⟩ := hrest d hd
      refine ⟨hdname, hdfree, ?_⟩
      intro hmem
      rcases List.mem_cons.1 hmem with hid | hmem
      · exact hnew (hid ▸ List.mem_map_of_mem hd)
      · exact hdseen hmem

/-- **What validation demands of the settings of networks**, and nothing less. -/
theorem NetworkSettings.check_eq_ok_iff {n : NetworkSettings} : n.check = .ok
    () ↔ n.Consistent := by
  constructor
  · intro h
    unfold NetworkSettings.check at h
    cases hwalk : checkCustom [] n.custom with
    | error flaw =>
      rw [hwalk] at h
      exact nomatch h
    | ok all =>
      obtain ⟨hall, hdistinct, rfl⟩ := checkCustom_eq_ok_iff.1 hwalk
      rw [hwalk] at h
      change (if _ then _ else _) = _ at h
      split at h
      · next hknown =>
        exact ⟨fun c hc => (hall c hc).1, fun c hc => (hall c hc).2.1, hdistinct, by
          simpa using hknown⟩
      · exact nomatch h
  · intro h
    have hwalk : checkCustom [] n.custom = .ok ((n.custom.map CustomNetwork.id).reverse ++ []) :=
      checkCustom_eq_ok_iff.2 ⟨fun c hc => ⟨h.named c hc, h.free c hc, by simp⟩, h.distinct, rfl⟩
    unfold NetworkSettings.check
    rw [hwalk]
    exact if_pos (by simpa using h.selected)

/-- Valid settings are consistent in what they say about networks. -/
theorem Settings.consistent_of_validate {s : Settings} (h : s.validate = .ok ()) :
    s.networks.Consistent := by
  unfold Settings.validate Settings.check at h
  cases hqueue : s.queue.check with
  | error flaw =>
    rw [hqueue] at h
    exact nomatch h
  | ok u =>
    cases hnetworks : s.networks.check with
    | error flaw =>
      rw [hqueue] at h
      change (s.networks.check).mapError _ = _ at h
      rw [hnetworks] at h
      exact nomatch h
    | ok u => exact NetworkSettings.check_eq_ok_iff.1 hnetworks

namespace Registry

/-- Custom clients were registered, each with its own record, and nothing else has changed. -/
structure Registers (cs : List CustomNetwork) (r s : Registry) : Prop where
  known : ∀ c ∈ cs, s.custom c.id = some c.toConfig
  others : ∀ id, id ∉ cs.map CustomNetwork.id → s.custom id = r.custom id
  selected : s.selected = r.selected
  bindings : s.bindings = r.bindings

/-- **Clients with distinct ids are all registered**, unless one of them has the id of a
built-in network. -/
theorem registers_of_distinct {cs : List CustomNetwork}
    (hfree : ∀ c ∈ cs, BuiltIn.ofClientId? c.id = none)
    (hdistinct : (cs.map CustomNetwork.id).Nodup) (r : Registry) :
    ∃ s, registerAll cs r = .ok s ∧ Registers cs r s := by
  induction cs generalizing r with
  | nil => exact ⟨r, rfl, by simp, fun _ _ => rfl, rfl, rfl⟩
  | cons c rest ih =>
    rw [List.map_cons, List.nodup_cons] at hdistinct
    obtain ⟨s, hs, hrest⟩ := ih (fun d hd => hfree d (List.mem_cons_of_mem c hd)) hdistinct.2
      { r with custom := update r.custom c.id (some c.toConfig) }
    refine ⟨s, ?_, ?_, ?_, hrest.selected, hrest.bindings⟩
    · rw [registerAll, hfree c List.mem_cons_self]
      exact hs
    · intro d hd
      rcases List.mem_cons.1 hd with rfl | hd
      · -- no client behind it has its id, so its record stays
        rw [hrest.others _ hdistinct.1]
        simp [update]
      · exact hrest.known d hd
    · intro id hid
      rw [List.map_cons, List.mem_cons, not_or] at hid
      rw [hrest.others id hid.2]
      simp [update, hid.1]

/-- Of clients with distinct ids there are as many as there are ids. -/
theorem countIds_of_distinct {cs : List CustomNetwork} (h : (cs.map CustomNetwork.id).Nodup) :
    countIds cs = cs.length := by
  induction cs with
  | nil => rfl
  | cons c rest ih =>
    rw [List.map_cons, List.nodup_cons] at h
    have hnew : (rest.any fun d => d.id = c.id) = false := by
      rw [List.any_eq_false]
      intro d hd
      simpa using fun hid : d.id = c.id => h.1 (hid ▸ List.mem_map_of_mem hd)
    simp [countIds, hnew, ih h.2]

/-- A registered client is looked up with its record, if it has no id of a built-in network. -/
theorem clientConfig_of_custom {r : Registry} {id : ClientId} {config : ClientConfig}
    (hfree : BuiltIn.ofClientId? id = none) (h : r.custom id = some config) :
    r.clientConfig id = .ok config := by
  simp [clientConfig, resolve, hfree, h]

/-- A client that is neither built-in nor registered is not known. -/
theorem clientConfig_of_unknown {r : Registry} {id : ClientId}
    (hfree : BuiltIn.ofClientId? id = none)
    (h : r.custom id = none) : r.clientConfig id = .error (unknownClient id) := by
  simp [clientConfig, resolve, hfree, h]

/-- An id that is no built-in network's is not found among them. -/
theorem ofClientId_eq_none {id : ClientId} (h : ∀ network : BuiltIn, id ≠ network.clientId) :
    BuiltIn.ofClientId? id = none := by
  cases hfound : BuiltIn.ofClientId? id with
  | none => rfl
  | some network => exact absurd (BuiltIn.clientId_of_ofClientId hfound).symm (h network)

/-- **The registry of consistent settings is made**, with their clients registered and their
selection selected. -/
theorem ofSettings_of_consistent {n : NetworkSettings} (h : n.Consistent) :
    ∃ r, ofSettings n
        = .ok ({ r with selected := n.selected }, .registryReady n.selected n.custom.length) ∧
      Registers n.custom initial r := by
  obtain ⟨r, hr, hregisters⟩ := registers_of_distinct h.free h.distinct initial
  have hselected : ((BuiltIn.ofClientId? n.selected).isSome || (r.custom n.selected).isSome)
      = true := by
    rw [Bool.or_eq_true]
    refine h.selected.imp_right ?_
    intro hmem
    obtain ⟨c, hc, hid⟩ := List.mem_map.1 hmem
    rw [← hid, hregisters.known c hc]
    rfl
  refine ⟨r, ?_, hregisters⟩
  rw [ofSettings, hr, ← countIds_of_distinct h.distinct]
  exact if_pos hselected

/-- **Valid settings make a faithful registry.**  The registry of settings that were found
valid is made.  It looks up each declared client with the record declared for it, each
built-in client with its fixed chain, and knows no other client; the client selected is the
one the settings select, and it has a chain; and no origin is bound. -/
theorem of_validate {s : Settings} (h : s.validate = .ok ()) :
    ∃ r, ofSettings s.networks
        = .ok (r, .registryReady s.networks.selected s.networks.custom.length) ∧
      (∀ c ∈ s.networks.custom, r.clientConfig c.id = .ok ⟨c.chainId, c.rpcUrl, c.ticker⟩) ∧
      (∀ network : BuiltIn, r.clientConfig network.clientId = .ok ⟨network.chainId, none, none⟩) ∧
      (∀ id, (∀ network : BuiltIn, id ≠ network.clientId) → (∀ c ∈ s.networks.custom, id ≠ c.id) →
        r.clientConfig id
          = .error (.networkLookup ("unknown network client '" ++ id.name ++ "'"))) ∧
      r.selected = s.networks.selected ∧
      (∃ config, r.clientConfig s.networks.selected = .ok config ∧
        r.selectedChain = .ok config.chainId) ∧
      ∀ origin, r.bindings origin = none := by
  have hconsistent := Settings.consistent_of_validate h
  obtain ⟨t, ht, hregisters⟩ := ofSettings_of_consistent hconsistent
  generalize hr : ({ t with selected := s.networks.selected } : Registry) = r at ht
  have hdeclared : ∀ c ∈ s.networks.custom, r.clientConfig c.id = .ok c.toConfig := by
    intro c hc
    subst hr
    exact clientConfig_of_custom (hconsistent.free c hc) (hregisters.known c hc)
  have hbuiltIn : ∀ network : BuiltIn, r.clientConfig network.clientId
      = .ok ⟨network.chainId, none, none⟩ := by
    intro network
    rw [clientConfig, resolve_builtIn]
  have hselected : r.selected = s.networks.selected := by rw [← hr]
  refine ⟨r, ht, hdeclared, hbuiltIn, ?_, hselected, ?_, ?_⟩
  · intro id hother hundeclared
    refine clientConfig_of_unknown (ofClientId_eq_none hother) ?_
    subst hr
    exact hregisters.others id (by simpa [eq_comm] using hundeclared)
  · have hknown : ∃ config, r.clientConfig s.networks.selected = .ok config := by
      rcases hconsistent.selected with hsome | hmem
      · obtain ⟨network, hnetwork⟩ := Option.isSome_iff_exists.1 hsome
        exact ⟨_, BuiltIn.clientId_of_ofClientId hnetwork ▸ hbuiltIn network⟩
      · obtain ⟨c, hc, hid⟩ := List.mem_map.1 hmem
        exact ⟨_, hid ▸ hdeclared c hc⟩
    obtain ⟨config, hconfig⟩ := hknown
    refine ⟨config, hconfig, ?_⟩
    rw [selectedChain, hselected, hconfig]
    rfl
  · intro origin
    subst hr
    exact congrFun hregisters.bindings origin

/-- Settings that declare two clients for one chain, and select the second. -/
def twoDevnets : Settings :=
  ⟨.default, ⟨⟨"twin"⟩,
    [⟨⟨"devnet"⟩, ⟨0x539⟩, some "http://127.0.0.1:8545", some "ETH"⟩,
      ⟨⟨"twin"⟩, ⟨0x539⟩, none, none⟩]⟩⟩

/-- Both clients are looked up as they were declared. -/
theorem of_validate_twoDevnets :
    twoDevnets.validate = .ok () ∧
    ∃ r, ofSettings twoDevnets.networks = .ok (r, .registryReady ⟨"twin"⟩ 2) ∧
      r.clientConfig ⟨"devnet"⟩ = .ok ⟨⟨0x539⟩, some "http://127.0.0.1:8545", some "ETH"⟩ ∧
      r.selectedChain = .ok ⟨0x539⟩ := by
  have hvalid : twoDevnets.validate = .ok () := by decide +kernel
  obtain ⟨r, hr, hdeclared, _, _, hselected, _⟩ := of_validate hvalid
  have htwin : r.clientConfig twoDevnets.networks.selected = .ok ⟨⟨0x539⟩, none, none⟩ :=
    hdeclared ⟨⟨"twin"⟩, ⟨0x539⟩, none, none⟩ (by simp [twoDevnets])
  refine ⟨hvalid, r, hr, hdeclared ⟨⟨"devnet"⟩, ⟨0x539⟩, _, _⟩ (by simp [twoDevnets]), ?_⟩
  rw [selectedChain, hselected, htwin]
  rfl

end Registry

end WalletGate
