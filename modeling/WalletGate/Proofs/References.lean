import WalletGate.Proofs.Networks

/-!
# What the registry refers to

The registry names clients in three places: custom clients are registered under ids of their
own, one client is selected, and every origin may be bound to one.  The first two are kept
in order by every **edit**: no custom client has the id of a built-in one, and the client
that is selected is known (`Registry.Coherent`).  Bindings are not: a client is known when
an origin is bound to it, but it may be removed later, and the origin stays bound to it.

* `Registry.Edit.act_of_allowed`, `Registry.Edit.act_of_not_allowed` — when an edit is done
  and when it is refused;
* `Crew.edited_perform` — one act is at most one edit of the registry, and tasks only select
  and bind;
* `Crew.selection_resolves` — in every history the selected client has a chain;
* `Crew.binding_resolves_iff` — the client an origin is bound to can be looked up, unless it
  was removed while the origin was bound to it and has not been registered again.
-/

namespace WalletGate

variable {η α : Type}

namespace Registry

/-- What can be done to the registry. -/
inductive Edit where
  | addCustom (id : ClientId) (config : ClientConfig)
  | removeCustom (id : ClientId)
  | switchToBuiltIn (network : BuiltIn)
  | switchToCustom (id : ClientId)
  | bind (origin : Origin) (id : ClientId)

namespace Edit

/-- It is done, or it is refused. -/
def act : Edit → Registry → Except Fault (Registry × Notice)
  | addCustom id config => Registry.addCustom id config
  | removeCustom id => Registry.removeCustom id
  | switchToBuiltIn network => Registry.switchToBuiltIn network
  | switchToCustom id => Registry.switchToCustom id
  | bind origin id => Registry.bind origin id

/-- It may be done: nobody registers a built-in client, removes the one that is selected, or
names one that is not known. -/
def Allowed (r : Registry) : Edit → Prop
  | addCustom id _ => BuiltIn.ofClientId? id = none
  | removeCustom id => r.selected ≠ id ∧ (r.custom id).isSome
  | switchToBuiltIn _ => True
  | switchToCustom id => (r.custom id).isSome
  | bind _ id => (r.resolve id).isSome

/-- The registry behind it, when it is done. -/
def result (r : Registry) : Edit → Registry
  | addCustom id config => { r with custom := update r.custom id (some config) }
  | removeCustom id => { r with custom := update r.custom id none }
  | switchToBuiltIn network => { r with selected := network.clientId }
  | switchToCustom id => { r with selected := id }
  | bind origin id => { r with bindings := update r.bindings origin (some id) }

/-- The registered clients change. -/
def registers : Edit → Bool
  | addCustom _ _ => true
  | removeCustom _ => true
  | _ => false

/-- It comes from outside. -/
def outside : Edit → Outside η
  | addCustom id config => .addCustom id config
  | removeCustom id => .removeCustom id
  | switchToBuiltIn network => .switchToBuiltIn network
  | switchToCustom id => .switchToCustom id
  | bind origin id => .bindOrigin origin id

/-- An edit that may be done is done. -/
theorem act_of_allowed {e : Edit} {r : Registry} (h : e.Allowed r) :
    ∃ n, e.act r = .ok (e.result r, n) := by
  cases e with
  | addCustom id config =>
    rw [act, Registry.addCustom, if_neg (by simpa [Allowed] using h)]
    exact ⟨_, rfl⟩
  | removeCustom id =>
    obtain ⟨config, hconfig⟩ := Option.isSome_iff_exists.1 h.2
    rw [act, Registry.removeCustom, if_neg h.1, hconfig]
    exact ⟨_, rfl⟩
  | switchToBuiltIn network => exact ⟨_, rfl⟩
  | switchToCustom id =>
    obtain ⟨config, hconfig⟩ := Option.isSome_iff_exists.1 h
    rw [act, Registry.switchToCustom, hconfig]
    exact ⟨_, rfl⟩
  | bind origin id =>
    obtain ⟨config, hconfig⟩ := Option.isSome_iff_exists.1 h
    rw [act, Registry.bind, hconfig]
    exact ⟨_, rfl⟩

/-- An edit that may not be done is refused. -/
theorem act_of_not_allowed {e : Edit} {r : Registry} (h : ¬ e.Allowed r) :
    ∃ fault, e.act r = .error fault := by
  cases e with
  | addCustom id config =>
    rw [act, Registry.addCustom, if_pos (Option.ne_none_iff_isSome.1 h)]
    exact ⟨_, rfl⟩
  | removeCustom id =>
    rw [act, Registry.removeCustom]
    split
    · exact ⟨_, rfl⟩
    · next hselected =>
      rw [show r.custom id = none by simpa [Allowed, hselected] using h]
      exact ⟨_, rfl⟩
  | switchToBuiltIn network => exact absurd trivial h
  | switchToCustom id =>
    rw [act, Registry.switchToCustom, show r.custom id = none by simpa [Allowed] using h]
    exact ⟨_, rfl⟩
  | bind origin id =>
    rw [act, Registry.bind, show r.resolve id = none by simpa [Allowed] using h]
    exact ⟨_, rfl⟩

end Edit

/-- No custom client has the id of a built-in one, and the client that is selected is known. -/
structure Coherent (r : Registry) : Prop where
  custom : ∀ id, (r.custom id).isSome → BuiltIn.ofClientId? id = none
  selected : (r.resolve r.selected).isSome

/-- A client is known if it is built-in, or if it is registered. -/
theorem isSome_resolve_iff {r : Registry} {id : ClientId} :
    (r.resolve id).isSome ↔ (BuiltIn.ofClientId? id).isSome ∨ (r.custom id).isSome := by
  unfold resolve
  cases BuiltIn.ofClientId? id <;> simp

/-- A client can be looked up if it is known. -/
theorem exists_clientConfig_iff {r : Registry} {id : ClientId} :
    (∃ config, r.clientConfig id = .ok config) ↔ (r.resolve id).isSome := by
  unfold clientConfig
  cases r.resolve id <;> simp

theorem coherent_initial : initial.Coherent where
  custom id h := by simp [initial] at h
  selected := by rw [initial, resolve_builtIn]; rfl

/-- Settings register no client with the id of a built-in one, and bind nobody. -/
theorem of_registerAll {cs : List CustomNetwork} {r s : Registry} (h : registerAll cs r = .ok s)
    (hcustom : ∀ id, (r.custom id).isSome → BuiltIn.ofClientId? id = none) :
    (∀ id, (s.custom id).isSome → BuiltIn.ofClientId? id = none) ∧ s.bindings = r.bindings := by
  induction cs generalizing r with
  | nil => exact Except.ok.inj h ▸ ⟨hcustom, rfl⟩
  | cons c rest ih =>
    rw [registerAll] at h
    split at h
    · simp at h
    · next hfree =>
      have hnext : ∀ id, (update r.custom c.id (some c.toConfig) id).isSome →
          BuiltIn.ofClientId? id = none := by
        intro id hid
        by_cases hc : id = c.id
        · simpa [hc] using hfree
        · exact hcustom id (by simpa [update, hc] using hid)
      have hrest := ih h hnext
      exact hrest

/-- **Settings that are accepted make a coherent registry**, in which nobody is bound. -/
theorem of_ofSettings {n : NetworkSettings} {r : Registry} {notice : Notice}
    (h : ofSettings n = .ok (r, notice)) :
    r.Coherent ∧ ∀ origin, r.bindings origin = none := by
  unfold ofSettings at h
  cases hall : registerAll n.custom initial with
  | error fault =>
    rw [hall] at h
    exact nomatch h
  | ok s =>
    obtain ⟨hcustom, hbindings⟩ := of_registerAll hall coherent_initial.custom
    rw [hall] at h
    change (if _ then _ else _) = _ at h
    split at h
    · next hknown =>
      obtain ⟨rfl, _⟩ := Prod.mk.inj (Except.ok.inj h)
      refine ⟨⟨hcustom, isSome_resolve_iff.2 (by simpa using hknown)⟩, fun origin => ?_⟩
      exact congrFun hbindings origin
    · simp at h

/-- Nobody has used the registry, or it was made of settings that were accepted. -/
def IsNew (r : Registry) : Prop :=
  r = initial ∨ ∃ n notice, ofSettings n = .ok (r, notice)

theorem IsNew.coherent {r : Registry} (h : r.IsNew) : r.Coherent := by
  rcases h with rfl | ⟨n, notice, hmade⟩
  · exact coherent_initial
  · exact (of_ofSettings hmade).1

theorem IsNew.bindings {r : Registry} (h : r.IsNew) (origin : Origin) :
    r.bindings origin = none := by
  rcases h with rfl | ⟨n, notice, hmade⟩
  · rfl
  · exact (of_ofSettings hmade).2 origin

/-- **Every edit that is done keeps the registry coherent.** -/
theorem Coherent.result {r : Registry} {e : Edit} (h : r.Coherent) (hallowed : e.Allowed r) :
    (e.result r).Coherent := by
  cases e with
  | addCustom id config =>
    refine ⟨fun other hother => ?_, isSome_resolve_iff.2 ?_⟩
    · by_cases hid : other = id
      · exact hid ▸ hallowed
      · exact h.custom other (by simpa [Edit.result, update, hid] using hother)
    · refine (isSome_resolve_iff.1 h.selected).imp_right fun hselected => ?_
      by_cases hid : r.selected = id <;> simp [Edit.result, update, hid, hselected]
  | removeCustom id =>
    refine ⟨fun other hother => ?_, isSome_resolve_iff.2 ?_⟩
    · by_cases hid : other = id
      · simp [Edit.result, update, hid] at hother
      · exact h.custom other (by simpa [Edit.result, update, hid] using hother)
    · -- the client that is selected is not the one that goes
      refine (isSome_resolve_iff.1 h.selected).imp_right fun hselected => ?_
      simpa [Edit.result, update, hallowed.1] using hselected
  | switchToBuiltIn network =>
    refine ⟨h.custom, isSome_resolve_iff.2 (.inl ?_)⟩
    rw [Edit.result, BuiltIn.ofClientId_clientId]
    rfl
  | switchToCustom id => exact ⟨h.custom, isSome_resolve_iff.2 (.inr hallowed)⟩
  | bind origin id => exact ⟨h.custom, h.selected⟩

/-- In a coherent registry the selected client has a chain. -/
theorem Coherent.selectedChain {r : Registry} (h : r.Coherent) :
    ∃ chain, r.selectedChain = .ok chain := by
  obtain ⟨config, hconfig⟩ := Option.isSome_iff_exists.1 h.selected
  exact ⟨config.chainId, by simp [Registry.selectedChain, clientConfig, hconfig, Except.map]⟩

/-! What an edit does to the clients that are known, and to bindings. -/

namespace Edit

variable {e : Edit} {r : Registry} {id : ClientId}

/-- Only removing a client makes it unknown. -/
theorem eq_removeCustom (hknown : (r.resolve id).isSome)
    (hunknown : (e.result r).resolve id = none) :
    e = .removeCustom id := by
  rw [isSome_resolve_iff] at hknown
  rw [← Option.not_isSome_iff_eq_none, isSome_resolve_iff] at hunknown
  cases e with
  | removeCustom other =>
    by_cases hid : id = other
    · rw [hid]
    · simp [result, update, hid, hknown] at hunknown
  | addCustom other config =>
    by_cases hid : id = other <;> simp_all [result, update]
  | switchToBuiltIn network => exact absurd hknown hunknown
  | switchToCustom other => exact absurd hknown hunknown
  | bind origin other => exact absurd hknown hunknown

/-- Only registering a client makes it known. -/
theorem eq_addCustom (hunknown : r.resolve id = none) (hknown : ((e.result r).resolve id).isSome) :
    ∃ config, e = .addCustom id config := by
  rw [isSome_resolve_iff] at hknown
  rw [← Option.not_isSome_iff_eq_none, isSome_resolve_iff] at hunknown
  cases e with
  | addCustom other config =>
    by_cases hid : id = other
    · exact ⟨config, by rw [hid]⟩
    · exact absurd (by simpa [result, update, hid] using hknown) hunknown
  | removeCustom other =>
    by_cases hid : id = other <;> simp_all [result, update]
  | switchToBuiltIn network => exact absurd hknown hunknown
  | switchToCustom other => exact absurd hknown hunknown
  | bind origin other => exact absurd hknown hunknown

/-- An origin is bound to a client that is known, or was bound to it before. -/
theorem bound_or_known {origin : Origin} (hallowed : e.Allowed r)
    (h : (e.result r).bindings origin = some id) :
    r.bindings origin = some id ∨ ((e.result r).resolve id).isSome := by
  cases e with
  | bind other client =>
    by_cases horigin : origin = other
    · obtain rfl : client = id := by simpa [result, update, horigin] using h
      exact .inr hallowed
    · exact .inl (by simpa [result, update, horigin] using h)
  | addCustom other config => exact .inl h
  | removeCustom other => exact .inl h
  | switchToBuiltIn network => exact .inl h
  | switchToCustom other => exact .inl h

end Edit

end Registry

/-! ### One act, one edit -/

/-- Between two registries stands at most one edit. -/
def Registry.Edited (only : Registry.Edit → Prop) (r s : Registry) : Prop :=
  s = r ∨ ∃ e : Registry.Edit, only e ∧ e.Allowed r ∧ s = e.result r

namespace World

/-- An edit that may be done is done in the world. -/
theorem onRegistry_of_allowed {e : Registry.Edit} {w : World η} (h : e.Allowed w.registry) :
    (w.onRegistry e.act).1 = .ok () ∧ (w.onRegistry e.act).2.registry = e.result w.registry := by
  obtain ⟨n, hdone⟩ := Registry.Edit.act_of_allowed h
  rw [onRegistry, hdone]
  exact ⟨rfl, rfl⟩

/-- An edit that may not be done changes nothing in the world. -/
theorem onRegistry_of_not_allowed {e : Registry.Edit} {w : World η} (h : ¬ e.Allowed w.registry) :
    ∃ fault, w.onRegistry e.act = (.error fault, w) := by
  obtain ⟨fault, hrefused⟩ := Registry.Edit.act_of_not_allowed h
  exact ⟨fault, by rw [onRegistry, hrefused]⟩

/-- What an edit does to a world: all of it, or nothing. -/
theorem registry_edit (e : Registry.Edit) (w : World η) :
    (w.onRegistry e.act).2.registry = w.registry ∨
      e.Allowed w.registry ∧ (w.onRegistry e.act).2.registry = e.result w.registry := by
  by_cases h : e.Allowed w.registry
  · exact .inr ⟨h, (onRegistry_of_allowed h).2⟩
  · obtain ⟨fault, hsame⟩ := onRegistry_of_not_allowed h
    exact .inl (by rw [hsame])

/-- **Tasks only select and bind.** -/
theorem Becomes.edited {w v : World η} (h : w.Becomes v) :
    Registry.Edited (fun e => e.registers = false) w.registry v.registry := by
  cases h with
  | called c =>
    cases c with
    | switchToBuiltIn network =>
      exact (w.registry_edit (.switchToBuiltIn network)).imp_right fun h => ⟨_, rfl, h⟩
    | switchToCustom id =>
      exact (w.registry_edit (.switchToCustom id)).imp_right fun h => ⟨_, rfl, h⟩
    | bindOrigin origin id =>
      exact (w.registry_edit (.bind origin id)).imp_right fun h => ⟨_, rfl, h⟩
    | _ => exact .inl rfl
  | _ => exact .inl rfl

end World

/-- What comes from outside is at most the edit it says. -/
theorem Outside.edited (o : Outside η) (w : World η) :
    Registry.Edited (fun e => o = e.outside) w.registry (o.apply w).registry := by
  cases o with
  | accept id => exact .inl (by simp [apply])
  | reject id reason => exact .inl (by simp [apply])
  | rejectAll reason => exact .inl rfl
  | wait milliseconds => exact .inl rfl
  | setQueueing queueing => exact .inl rfl
  | host change => exact .inl rfl
  | addCustom id config =>
    exact (w.registry_edit (.addCustom id config)).imp_right fun h => ⟨_, rfl, h⟩
  | removeCustom id => exact (w.registry_edit (.removeCustom id)).imp_right fun h => ⟨_, rfl, h⟩
  | switchToBuiltIn network =>
    exact (w.registry_edit (.switchToBuiltIn network)).imp_right fun h => ⟨_, rfl, h⟩
  | switchToCustom id => exact (w.registry_edit (.switchToCustom id)).imp_right fun h => ⟨_, rfl, h⟩
  | bindOrigin origin id => exact (w.registry_edit (.bind origin id)).imp_right fun h => ⟨_, rfl, h⟩

namespace Crew

/-- **One act is at most one edit of the registry**, and an edit of the registered clients
comes from outside. -/
theorem edited_perform (c : Crew η α) (a : Act η α) :
    Registry.Edited (fun e => e.registers = true → a = .outside e.outside) c.world.registry
      (c.perform a).world.registry := by
  cases a with
  | spawn name p => exact .inl rfl
  | go i =>
    rw [perform]
    rcases world_go i c with hw | ⟨t, m, _, hm, hw⟩
    · exact .inl (by rw [hw])
    · rw [hw]
      refine (Thread.becomes_of_move hm).edited.imp_right ?_
      rintro ⟨e, hno, hdone⟩
      exact ⟨e, fun hyes => by simp [hno] at hyes, hdone⟩
  | drop i =>
    refine .inl ?_
    rw [perform, giveUp]
    split
    · rfl
    · next t _ => exact t.registry_cancel _
  | outside o =>
    refine (o.edited c.world).imp_right ?_
    rintro ⟨e, ho, hdone⟩
    exact ⟨e, fun _ => congrArg Act.outside ho, hdone⟩

/-- **All histories.**  A registry that starts coherent stays coherent. -/
theorem coherent_after {c : Crew η α} (h : c.world.registry.Coherent) (past : List (Act η α)) :
    (c.after past).world.registry.Coherent := by
  induction past with
  | nil => exact h
  | cons a past ih =>
    rcases (c.after past).edited_perform a with hsame | ⟨e, _, hallowed, hdone⟩
    · exact hsame.symm ▸ ih
    · exact hdone.symm ▸ ih.result hallowed

variable {c : Crew η α} {past : List (Act η α)}

/-- **The selection always resolves.**  In every history of a wallet whose registry nobody
had used, or was made of settings that were accepted: no custom client has the id of a
built-in one, the client selected is built-in or registered, and it has a chain.  An edit is
done exactly if it is allowed; if it is refused, nothing changes. -/
theorem selection_resolves (hstart : c.world.registry.IsNew) :
    (∀ network : BuiltIn, (c.after past).world.registry.custom network.clientId = none) ∧
    ((BuiltIn.ofClientId? (c.after past).world.registry.selected).isSome ∨
      ((c.after past).world.registry.custom (c.after past).world.registry.selected).isSome) ∧
    (∃ chain, (c.after past).world.registry.selectedChain = .ok chain) ∧
    ∀ e : Registry.Edit,
      (((c.after past).world.onRegistry e.act).1 = .ok () ↔
        e.Allowed (c.after past).world.registry) ∧
      ∀ fault, ((c.after past).world.onRegistry e.act).1 = .error fault →
        ((c.after past).world.onRegistry e.act).2 = (c.after past).world := by
  have hcoherent := coherent_after hstart.coherent past
  refine ⟨fun network => ?_, Registry.isSome_resolve_iff.1 hcoherent.selected,
    hcoherent.selectedChain, fun e => ?_⟩
  · refine Option.not_isSome_iff_eq_none.1 fun hcustom => ?_
    have hfree := hcoherent.custom _ hcustom
    simp [BuiltIn.ofClientId_clientId] at hfree
  · by_cases hallowed : e.Allowed (c.after past).world.registry
    · have hdone := (World.onRegistry_of_allowed hallowed).1
      exact ⟨iff_of_true hdone hallowed, fun fault hfault => by simp [hdone] at hfault⟩
    · obtain ⟨fault, hsame⟩ := World.onRegistry_of_not_allowed hallowed
      rw [hsame]
      exact ⟨iff_of_false (by simp) hallowed, fun _ _ => rfl⟩

/-- Settings that register one client twice, and select it. -/
def devnetTwice : NetworkSettings :=
  ⟨⟨"devnet"⟩, [⟨⟨"devnet"⟩, ⟨0x539⟩, none, none⟩, ⟨⟨"devnet"⟩, ⟨0x53a⟩, none, none⟩]⟩

/-- The client that is selected is not removed; after a switch to another one it is. -/
def devnetLeft : List (Act Unit Unit) :=
  [.outside (.removeCustom ⟨"devnet"⟩), .outside (.switchToBuiltIn .sepolia),
    .outside (.removeCustom ⟨"devnet"⟩)]

/-- The selection resolves all along, and a switch back to the client that was removed
changes nothing. -/
theorem selection_resolves_devnet :
    ∃ r notice, Registry.ofSettings devnetTwice = .ok (r, notice) ∧
      r.selectedChain = .ok ⟨0x53a⟩ ∧
      (∃ chain,
        ((ofWorld { World.start () with registry := r }).after
        devnetLeft).world.registry.selectedChain
        = .ok chain) ∧
      ((((ofWorld { World.start () with registry := r }).after devnetLeft).world.onRegistry
        (Registry.Edit.switchToCustom ⟨"devnet"⟩).act).2
          = ((ofWorld { World.start () with registry := r }).after devnetLeft :
            Crew Unit Unit).world) := by
  refine ⟨_, _, rfl, rfl, ?_⟩
  have hresolves :=
    @selection_resolves Unit Unit (ofWorld { World.start () with registry := _ }) devnetLeft
    (.inr ⟨devnetTwice, _, rfl⟩)
  exact ⟨hresolves.2.2.1, (hresolves.2.2.2 (.switchToCustom ⟨"devnet"⟩)).2 _ rfl⟩

/-! ### Bindings -/

/-- The client was removed while the origin was bound to it, and has not been registered
again. -/
def Removed (origin : Origin) (id : ClientId) (c : Crew η α) (past : List (Act η α)) : Prop :=
  ∃ later earlier, past = later ++ .outside (.removeCustom id) :: earlier ∧
    (c.after earlier).world.registry.bindings origin = some id ∧
    (Registry.Edit.removeCustom id).Allowed (c.after earlier).world.registry ∧
    ∀ config, .outside (.addCustom id config) ∉ later

/-- A client that somebody registers is known then, unless it was known before. -/
theorem known_addCustom (c : Crew η α) (id : ClientId) (config : ClientConfig) :
    ((c.perform (.outside (.addCustom id config))).world.registry.resolve id).isSome := by
  have hact : (c.perform (.outside (.addCustom id config))).world.registry
      = (c.world.onRegistry (Registry.Edit.addCustom id config).act).2.registry := rfl
  rw [hact, Registry.isSome_resolve_iff]
  by_cases hallowed : (Registry.Edit.addCustom id config).Allowed c.world.registry
  · rw [(World.onRegistry_of_allowed hallowed).2]
    exact .inr (by simp [Registry.Edit.result, Registry.update])
  · exact .inl (Option.ne_none_iff_isSome.1 hallowed)

/-- **A binding that does not resolve was left behind by a removal.** -/
theorem removed_of_unknown {origin : Origin} {id : ClientId}
    (hstart : c.world.registry.bindings origin = none)
    (hbound : (c.after past).world.registry.bindings origin = some id)
    (hunknown : (c.after past).world.registry.resolve id = none) : c.Removed origin id past := by
  induction past with
  | nil => simp [hstart] at hbound
  | cons a past ih =>
    -- nobody has just registered the client
    have hadd : ∀ config, a ≠ .outside (.addCustom id config) := by
      rintro config rfl
      have hknown := (c.after past).known_addCustom id config
      rw [← after_cons, hunknown] at hknown
      exact nomatch hknown
    have hlater : c.Removed origin id past → c.Removed origin id (a :: past) := by
      rintro ⟨later, earlier, rfl, hthen, hallowed, hnever⟩
      refine ⟨a :: later, earlier, rfl, hthen, hallowed, fun config hmem => ?_⟩
      rcases List.mem_cons.1 hmem with heq | hmem
      · exact hadd config heq.symm
      · exact hnever config hmem
    rcases (c.after past).edited_perform a with hsame | ⟨e, hact, hallowed, hdone⟩
    · rw [after_cons, hsame] at hbound hunknown
      exact hlater (ih hbound hunknown)
    · rw [after_cons, hdone] at hbound hunknown
      rcases Registry.Edit.bound_or_known hallowed hbound with hbefore | hknown
      · cases hcould : (c.after past).world.registry.resolve id with
        | none => exact hlater (ih hbefore hcould)
        | some config =>
          obtain rfl := Registry.Edit.eq_removeCustom (by rw [hcould]; rfl) hunknown
          exact ⟨[], past, by rw [hact rfl]; rfl, hbefore, hallowed, by simp⟩
      · simp [hunknown] at hknown

/-- **A client that was removed stays unknown** until it is registered again. -/
theorem unknown_of_removed {id : ClientId} {later earlier : List (Act η α)}
    (hcoherent : (c.after earlier).world.registry.Coherent)
    (hallowed : (Registry.Edit.removeCustom id).Allowed (c.after earlier).world.registry)
    (hnever : ∀ config, .outside (.addCustom id config) ∉ later) :
    (c.after (later ++ .outside (.removeCustom id) :: earlier)).world.registry.resolve id
      = none := by
  induction later with
  | nil =>
    have hact : (c.after (.outside (.removeCustom id) :: earlier)).world.registry
        = (Registry.Edit.removeCustom id).result (c.after earlier).world.registry :=
      (World.onRegistry_of_allowed hallowed).2
    rw [List.nil_append, hact, ← Option.not_isSome_iff_eq_none, Registry.isSome_resolve_iff]
    simp [Registry.Edit.result, Registry.update, hcoherent.custom id hallowed.2]
  | cons a later ih =>
    have hbefore := ih fun config hmem => hnever config (List.mem_cons_of_mem a hmem)
    rw [List.cons_append, after_cons]
    rcases edited_perform (c.after (later ++ .outside (.removeCustom id) :: earlier)) a
      with hsame | ⟨e, hact, _, hdone⟩
    · rw [hsame, hbefore]
    · rw [hdone]
      by_contra hknown
      obtain ⟨config, rfl⟩ :=
        Registry.Edit.eq_addCustom hbefore (Option.ne_none_iff_isSome.1 hknown)
      exact hnever config (by rw [hact rfl]; exact List.mem_cons_self)

/-- **When a binding resolves.**  In every history of a wallet whose registry nobody had
used, or was made of settings that were accepted: the client an origin is bound to can be
looked up, unless it was removed while the origin was bound to it and has not been
registered again since. -/
theorem binding_resolves_iff {origin : Origin} {id : ClientId} (hstart : c.world.registry.IsNew)
    (hbound : (c.after past).world.registry.bindings origin = some id) :
    (∃ config, (c.after past).world.registry.clientConfig id = .ok config) ↔
    ¬ c.Removed origin id past := by
  have hunknown : (c.after past).world.registry.resolve id = none ↔ c.Removed origin id past := by
    refine ⟨removed_of_unknown (hstart.bindings origin) hbound, ?_⟩
    rintro ⟨later, earlier, rfl, _, hallowed, hnever⟩
    exact unknown_of_removed (coherent_after hstart.coherent earlier) hallowed hnever
  rw [← hunknown, Registry.exists_clientConfig_iff, Option.isSome_iff_ne_none, ne_eq]

/-- A custom client. -/
def anvil : ClientId := ⟨"anvil"⟩

/-- A site. -/
def exampleSite : Origin := ⟨"https://dapp.example"⟩

/-- The client is registered. -/
def registerAnvil : Act Unit Unit := .outside (.addCustom anvil ⟨⟨0x7a69⟩, none, none⟩)

/-- The client is registered, the site is bound to it, and the client is removed. -/
def anvilRemoved : List (Act Unit Unit) :=
  [.outside (.removeCustom anvil), .outside (.bindOrigin exampleSite anvil), registerAnvil]

/-- The site is bound to the client that was removed; once it is registered again, the
binding resolves. -/
theorem binding_resolves_registeredAgain :
    (¬ ∃ config, ((ofWorld (.start ())).after anvilRemoved).world.registry.clientConfig anvil
      = .ok config) ∧
    ¬ (ofWorld (.start ())).Removed exampleSite anvil (registerAnvil :: anvilRemoved) := by
  have hremoved : (ofWorld (.start ())).Removed exampleSite anvil anvilRemoved :=
    ⟨[], _, rfl, rfl, ⟨by decide, rfl⟩, by simp⟩
  have hthen := @binding_resolves_iff Unit Unit (ofWorld (.start ())) anvilRemoved exampleSite anvil
    (.inl rfl) rfl
  have hagain :=
    @binding_resolves_iff Unit Unit (ofWorld (.start ())) (registerAnvil :: anvilRemoved)
      exampleSite anvil
    (.inl rfl) rfl
  exact ⟨fun hresolves => hthen.1 hresolves hremoved, hagain.1 ⟨_, rfl⟩⟩

/-- **A binding may dangle.**  The site stays bound to the client that was removed, and the
client cannot be looked up. -/
theorem dangling_binding :
    ((ofWorld (.start ())).after anvilRemoved).world.registry.bindings exampleSite = some anvil ∧
    ((ofWorld (.start ())).after anvilRemoved).world.registry.clientConfig anvil
      = .error (Registry.unknownClient anvil) :=
  ⟨rfl, rfl⟩

end Crew

end WalletGate
