import WalletGate.Proofs.ApprovedChain
import WalletGate.Proofs.Writes

/-!
# A switch is all or nothing

A network check writes twice: it selects the client, and it binds the origin to it.  Nothing
is taken back, so if the second write could be refused after the first, or the check be
given up between the two, half a switch would be left.  Neither happens.  The first write is
refused if the client is not known.  When it has been made, the client is known; only a
removal from outside makes a client unknown, and nobody edits the networks while the task is
just being resumed (`Crew.Undisturbed`).  So the second write is made, in the same stretch
in which the user's yes was heard.  A request is given up only where it waits, and there it
has written nothing.

The proof keeps a **tally** of a check: what the task has written since its request came to
the queue, at every place the check can be at.  All places before the user's yes is heard
have the empty tally, and so have all places from which the check fails.

* `Gate.Attends` — a request from the moment it comes to the queue until its check ends;
* `Gate.bind_of_known` — the second write is not refused;
* `Gate.Tally.go`, `Gate.Tally.other` — one step of the check keeps the tally, and so do the
  others;
* `Gate.all_or_nothing` — what a request has written, at every moment.
-/

namespace WalletGate

variable {η α : Type}

/-- The networks are edited from outside. -/
def Act.editsNetworks : Act η α → Bool
  | .outside o => o.editsNetworks
  | _ => false

/-- Nobody edits the networks from outside while the task is just being resumed. -/
def Crew.Undisturbed (c : Crew η α) (i : Nat) : List (Act η α) → Prop
  | [] => True
  | a :: past =>
    (a.editsNetworks = true → ((c.after past).thread? i).all Thread.isAtRest = true) ∧
      c.Undisturbed i past

instance decidableUndisturbed (c : Crew η α) (i : Nat) :
    (past : List (Act η α)) → Decidable (c.Undisturbed i past)
  | [] => inferInstanceAs (Decidable True)
  | _ :: past =>
    have := decidableUndisturbed c i past
    inferInstanceAs (Decidable (_ ∧ _))

/-- A thread that goes on with something waits where it would wait alone. -/
theorem Thread.waits_bind {β γ : Type} (f : β → Program η γ) (t : Thread η β) :
    (t.bind f).waits = t.waits := by
  cases t <;> rfl

namespace Gate

/-- A request from the moment it comes to the queue of the gate.  As long as it waits for
the slot there is no check yet; from then on this is left of its check. -/
inductive Attends (g : Gate η) (c : Crew η α) (i : Nat) (v : Visit η) (came : List (Act η α)) :
    Option (Thread η (Except Fault Unit)) → List (Act η α) → Prop
  | comes {next : Turn → Program η α}
    (ht : (c.after came).thread? i = some (.fresh (.enqueue g.queue (g.job v) next))) :
    Attends g c i v came none came
  | waits {h : List (Act η α)} {place : Waiter} {next : Turn → Program η α}
    (before : Attends g c i v came none h)
    (ht : (c.after (.go i :: h)).thread? i = some (.waiting g.queue place (g.job v) next)) :
    Attends g c i v came none (.go i :: h)
  | begins {h : List (Act η α)} {next : Turn → Program η α} (before : Attends g c i v came none h)
    (ht : (c.after (.go i :: h)).thread? i = some (.holding g.queue (.fresh (g.job v)) next)) :
    Attends g c i v came (some (.fresh (g.ensureNetwork v.origin v.client))) (.go i :: h)
  | goes {s : Thread η (Except Fault Unit)} {h : List (Act η α)}
    (before : Attends g c i v came (some s) h)
    (hs : s.ended? = none) : Attends g c i v came (some (s.after (c.after h).world)) (.go i :: h)
  | stays {o : Option (Thread η (Except Fault Unit))} {h : List (Act η α)} {a : Act η α}
    (before : Attends g c i v came o h) (hgo : a ≠ .go i) (hdrop : a ≠ .drop i) :
    Attends g c i v came o (a :: h)

/-- The user's yes was heard since the request came to the queue: its check waited for the
answer, and the answer with which it was resumed was yes. -/
def Resumed (g : Gate η) (c : Crew η α) (i : Nat) (v : Visit η)
    (came past : List (Act η α)) : Prop :=
  ∃ later earlier requester deadline request next reply, past = later ++ .go i :: earlier ∧
    g.Attends c i v came (some (.asking requester deadline request next)) earlier ∧
    (Thread.asking requester deadline request next).reply? (c.after earlier).world = some reply ∧
    reply.answer = .ok ()

theorem Resumed.cons {g : Gate η} {c : Crew η α} {i : Nat} {v : Visit η}
    {came past : List (Act η α)}
    (h : g.Resumed c i v came past) (a : Act η α) : g.Resumed c i v came (a :: past) := by
  obtain ⟨later, earlier, requester, deadline, request, next, reply, rfl, hheard⟩ := h
  exact ⟨a :: later, earlier, requester, deadline, request, next, reply, rfl, hheard⟩

namespace Attends

variable {g : Gate η} {c : Crew η α} {i : Nat} {v : Visit η} {came past : List (Act η α)}
  {o : Option (Thread η (Except Fault Unit))}

/-- A request that waits for the slot stands in front of the queue. -/
theorem thread?_of_none (h : g.Attends c i v came none past) :
    ∃ next, (c.after past).thread? i = some (.fresh (.enqueue g.queue (g.job v) next)) ∨
      ∃ place, (c.after past).thread? i = some (.waiting g.queue place (g.job v) next) := by
  generalize ho : none = o at h
  induction h with
  | comes ht => exact ⟨_, .inl ht⟩
  | waits before ht => exact ⟨_, .inr ⟨_, ht⟩⟩
  | begins => exact nomatch ho
  | goes => exact nomatch ho
  | stays before hgo hdrop ih =>
    obtain ⟨next, ht | ⟨place, ht⟩⟩ := ih ho
    · exact ⟨next, .inl (Crew.thread?_perform ht hgo hdrop)⟩
    · exact ⟨next, .inr ⟨place, Crew.thread?_perform ht hgo hdrop⟩⟩

/-- A check that is attended is a check. -/
theorem checks (hkind : v.kind = .requiresConfirmation) (h : g.Attends c i v came o past) :
    ∀ s, o = some s → ∃ begun, g.Checks c i v begun s past := by
  induction h with
  | comes => exact fun s hs => nomatch hs
  | waits => exact fun s hs => nomatch hs
  | begins before ht =>
    rintro s ⟨⟩
    exact ⟨_, hkind, ⟨_, ht⟩, .start⟩
  | goes before hended ih =>
    rintro s ⟨⟩
    obtain ⟨begun, hchecks⟩ := ih _ rfl
    exact ⟨begun, hkind, hchecks.begins, hchecks.leads.went hended⟩
  | stays before hgo hdrop ih =>
    intro s hs
    obtain ⟨begun, hchecks⟩ := ih s hs
    exact ⟨begun, hkind, hchecks.begins, hchecks.leads.stayed hgo hdrop⟩

/-- The task of an attended request is in its check. -/
theorem exists_around {s : Thread η (Except Fault Unit)} (hkind : v.kind = .requiresConfirmation)
    (h : g.Attends c i v came (some s) past) :
    ∃ next, (c.after past).thread? i = some (g.around v next s) := by
  obtain ⟨begun, hchecks⟩ := h.checks hkind s rfl
  exact hchecks.thread?_eq

/-- A request that is attended has its task. -/
theorem exists_thread? (hkind : v.kind = .requiresConfirmation) (h : g.Attends c i v came o past) :
    ∃ t, (c.after past).thread? i = some t := by
  cases o with
  | none =>
    obtain ⟨next, ht | ⟨place, ht⟩⟩ := h.thread?_of_none
    · exact ⟨_, ht⟩
    · exact ⟨_, ht⟩
  | some s =>
    obtain ⟨next, ht⟩ := h.exists_around hkind
    exact ⟨_, ht⟩

/-- **A request is attended** until its check has ended, unless it is given up. -/
theorem next (h : g.Attends c i v came o past) (hopen : ∀ s, o = some s → s.ended? = none)
    {a : Act η α} (hdrop : a ≠ .drop i) : ∃ o', g.Attends c i v came o' (a :: past) := by
  by_cases hgo : a = .go i
  · subst hgo
    cases o with
    | some s => exact ⟨_, h.goes (hopen s rfl)⟩
    | none =>
      obtain ⟨next, ht | ⟨place, ht⟩⟩ := h.thread?_of_none
      · -- it enters the queue, and has the slot at once or has to wait
        have hafter := Crew.thread?_go_self ht rfl
        rw [Thread.after, Thread.move, Program.move] at hafter
        rcases he : (c.after past).world.enter g.queue with ⟨_ | place, w⟩
        · rw [he] at hafter
          exact ⟨_, h.begins hafter⟩
        · rw [he] at hafter
          exact ⟨_, h.waits hafter⟩
      · have hafter := Crew.thread?_go_self ht rfl
        rw [Thread.after, Thread.move] at hafter
        split at hafter
        · next m hm =>
          split at hm
          · cases hm
            exact ⟨_, h.begins hafter⟩
          · simp at hm
        · exact ⟨_, h.waits hafter⟩
  · exact ⟨o, h.stays hgo hdrop⟩

end Attends

/-- The check is at a place before the user's yes is heard, and has not failed. -/
inductive Opening (queue : Nat) (classifier : Classifier) (flag : Program η Bool) (v : Visit η) :
    Thread η (Except Fault Unit) → Prop
  | looking : Opening queue classifier flag v
    (.fresh ((own queue classifier flag).ensureNetwork v.origin v.client))
  | seeing (target : ChainId) :
    Opening queue classifier flag v
    (.fresh ((own queue classifier flag).targeted v.origin v.client (.ok target)))
  | agreeing (chain : ChainId) :
    Opening queue classifier flag v
      (.fresh (.call (.note (.onSelectedNetwork v.origin chain)) fun _ => .done (.ok ())))
  | differing (current target : ChainId) :
    Opening queue classifier flag v
      (.fresh ((own queue classifier flag).changeNetwork v.origin v.client current target))
  | drafting (current target : ChainId) :
    Opening queue classifier flag v
      (.fresh (.call (.draft v.origin current target v.client) fun request =>
        .ask request ((own queue classifier flag).decided v.origin v.client current target)))
  | parking (current target : ChainId) (request : ApprovalRequest) :
    Opening queue classifier flag v
      (.fresh (.ask request ((own queue classifier flag).decided v.origin v.client current target)))
  | asking (current target : ChainId) (requester : Nat) (deadline : Option Nat)
    (request : ApprovalRequest) :
    Opening queue classifier flag v
      (.asking requester deadline request
        ((own queue classifier flag).decided v.origin v.client current target))
  /-- The client's chain was selected. -/
  | passed : Opening queue classifier flag v (.fresh (.done (.ok ())))

/-- The tally of a check: what its task has written since the request came to the queue, and
what is known there. -/
inductive Tally (queue : Nat) (classifier : Classifier) (flag : Program η Bool) (v : Visit η)
    (resumed : Prop) (r : Registry) : Thread η (Except Fault Unit) → List Registry.Edit → Prop
  | opening {s : Thread η (Except Fault Unit)} (place : Opening queue classifier flag v s) :
    Tally queue classifier flag v resumed r s []
  | failing {p : Program η (Except Fault Unit)} (fails : Fails p) :
    Tally queue classifier flag v resumed r (.fresh p) []
  | switching (current target : ChainId) (yes : resumed) :
    Tally queue classifier flag v resumed r
      (.fresh ((own queue classifier flag).decided v.origin v.client current target (.ok ()))) []
  | binding (current target : ChainId) (yes : resumed) (known : (r.resolve v.client).isSome) :
    Tally queue classifier flag v resumed r
      (.fresh ((own queue classifier flag).switched v.origin v.client current target (.ok ())))
      [.select v.client]
  | noting (current target : ChainId) (yes : resumed) :
    Tally queue classifier flag v resumed r
    (.fresh (bound v.origin v.client current target (.ok ())))
      [.select v.client, .bind v.origin v.client]
  | changed (yes : resumed) :
    Tally queue classifier flag v resumed r (.fresh (.done (.ok ())))
    [.select v.client, .bind v.origin v.client]

variable {queue : Nat} {classifier : Classifier} {flag : Program η Bool} {c : Crew η α} {i : Nat}
  {v : Visit η} {came h past : List (Act η α)} {s : Thread η (Except Fault Unit)} {resumed : Prop}
  {r : Registry}
  {es : List Registry.Edit} {o : Option (Thread η (Except Fault Unit))}

/-- Before the user's yes is heard the next move of a check asks for no edit. -/
theorem Opening.edit?_eq_none (hplace : Opening queue classifier flag v s) : s.edit? = none := by
  cases hplace with
  | looking =>
    rcases ensureNetwork_eq_call queue classifier flag v.origin v.client with ⟨f, hf⟩ | ⟨f, hf⟩
    · rw [hf]
      rfl
    · rw [hf]
      rfl
  | _ => rfl

/-- The selected chain was asked for, and is compared with the one wanted. -/
theorem tally_compared (target : ChainId) (answer : Except Fault ChainId) :
    Tally queue classifier flag v resumed r
      (.fresh ((own queue classifier flag).compared v.origin v.client target answer)) [] := by
  cases answer with
  | error fault => exact .failing (.done fault)
  | ok current =>
    rw [compared]
    split
    · exact .opening (.agreeing current)
    · exact .opening (.differing current target)

/-- **Before the user's yes is heard**, one move of a check leads to such a place again, to
the place where it is heard, or to failure. -/
theorem Opening.after (hplace : Opening queue classifier flag v s) (hs : s.ended? = none)
    (w : World η)
    (hyes : ∀ requester deadline request next reply, s = .asking requester deadline request next →
      s.reply? w = some reply → reply.answer = .ok () → resumed) :
    Tally queue classifier flag v resumed r (s.after w) [] := by
  cases hplace with
  | looking =>
    cases hclient : BuiltIn.ofClientId? v.client with
    | some network =>
      rw [ensureNetwork_of_builtIn queue classifier flag v.origin hclient]
      exact tally_compared network.chainId w.registry.selectedChain
    | none =>
      obtain ⟨f, hf, hok, herror⟩ := ensureNetwork_of_custom queue classifier flag v.origin hclient
      rw [hf]
      change Tally queue classifier flag v resumed r
        (.fresh (f (w.registry.clientConfig v.client))) []
      cases w.registry.clientConfig v.client with
      | error fault =>
        rw [herror]
        exact .failing (.note _ fault)
      | ok config =>
        rw [hok]
        exact .opening (.seeing config.chainId)
  | seeing target => exact tally_compared target w.registry.selectedChain
  | agreeing chain => exact .opening .passed
  | differing current target => exact .opening (.drafting current target)
  | drafting current target => exact .opening (.parking current target _)
  | parking current target request => exact .opening (.asking current target _ _ request)
  | asking current target requester deadline request =>
    unfold Thread.reply? at hyes
    rw [Thread.after, Thread.move]
    cases hlook : w.look requester deadline with
    | none => exact .opening (.asking current target requester deadline request)
    | some ending =>
      rw [hlook] at hyes
      change Tally queue classifier flag v resumed r
        (.fresh ((own queue classifier flag).decided v.origin v.client
        current target (w.conclude requester request ending).1)) []
      rw [Thread.answer_conclude]
      cases hsaid : (Reply.mk request w.desk.limit ending).answer with
      | error fault => exact .failing (.note _ fault)
      | ok u => exact .switching current target (hyes _ _ _ _ _ rfl rfl hsaid)
  | passed => simp [Thread.ended?] at hs

/-- A check in its task asks for the edit it would ask for alone. -/
theorem write?_of_around {next : Turn → Program η α}
    (ht : (c.after h).thread? i = some ((own queue classifier flag).around v next s))
    (hs : s.ended? = none) :
    (c.after h).write? i = s.edit?.bind (Registry.Edit.done? (c.after h).world.registry) := by
  rw [Crew.write?_of_thread? ht]
  exact congrArg (Option.bind · _) (Thread.edit?_bind _ hs)

/-- When the user's yes was heard the check asks for the selection of its client. -/
theorem edit?_switching (current target : ChainId) :
    (Thread.fresh
      ((own queue classifier flag).decided v.origin v.client current target (.ok ()))).edit?
      = some (.select v.client) := by
  unfold decided switchTo Registry.Edit.select
  cases BuiltIn.ofClientId? v.client with
  | some network => rfl
  | none => rfl

/-- A client has a chain exactly if it is known. -/
theorem exists_chainOf_iff {r : Registry} {id : ClientId} :
    (∃ chain, r.chainOf id = .ok chain) ↔ (r.resolve id).isSome := by
  rw [← Registry.exists_clientConfig_iff, Registry.chainOf]
  cases r.clientConfig id with
  | error fault => simp [Except.map]
  | ok config => simp [Except.map]

/-- **The second write is not refused**: an origin can be bound to a client that is known. -/
theorem bind_of_known (queue : Nat) (classifier : Classifier) (flag : Program η Bool)
    (current target : ChainId) {w : World η} (hknown : (w.registry.resolve v.client).isSome) :
    (Thread.fresh
      ((own queue classifier flag).switched v.origin v.client current target (.ok ()))).edit?.bind
        (Registry.Edit.done? w.registry) = some (.bind v.origin v.client) ∧
      (Thread.fresh
        ((own queue classifier flag).switched v.origin v.client current target (.ok ()))).after w
        = .fresh (bound v.origin v.client current target (.ok ())) := by
  have hallowed : (Registry.Edit.bind v.origin v.client).Allowed w.registry := hknown
  refine ⟨Registry.Edit.done?_of_allowed hallowed, ?_⟩
  have hanswer := (World.onRegistry_of_allowed hallowed).1
  change Thread.fresh (bound v.origin v.client current target
    (w.onRegistry (Registry.Edit.bind v.origin v.client).act).1) = _
  rw [hanswer]

/-- **One step of a check keeps the tally.** -/
theorem Tally.go {next : Turn → Program η α}
    (htally : Tally queue classifier flag v ((own queue classifier flag).Resumed c i v came h)
      (c.after h).world.registry s es)
    (hattends : (own queue classifier flag).Attends c i v came (some s) h)
    (ht : (c.after h).thread? i = some ((own queue classifier flag).around v next s))
    (hs : s.ended? = none) :
    Tally queue classifier flag v ((own queue classifier flag).Resumed c i v came (.go i :: h))
      (c.after (.go i :: h)).world.registry (s.after (c.after h).world)
      (es ++ ((c.after h).write? i).toList) := by
  have hwrite := write?_of_around ht hs
  cases htally with
  | opening hplace =>
    rw [hplace.edit?_eq_none] at hwrite
    rw [hwrite]
    refine hplace.after hs _ ?_
    rintro requester deadline request k reply rfl hreply hanswer
    exact ⟨[], h, requester, deadline, request, k, reply, rfl, hattends, hreply, hanswer⟩
  | failing hfails =>
    cases hfails with
    | done fault => simp [Thread.ended?] at hs
    | note n fault =>
      change _ = none at hwrite
      rw [hwrite]
      exact .failing (.done fault)
  | switching current target hyes =>
    rw [edit?_switching, Option.bind_some] at hwrite
    rcases registry_switching ht with ⟨hchain, hregistry, hafter⟩ | ⟨fault, hchain, -, hafter⟩
    · have hknown := exists_chainOf_iff.1 hchain
      rw [Registry.Edit.done?_of_allowed (Registry.Edit.allowed_select_iff.2 hknown)] at hwrite
      rw [hwrite, hafter, hregistry]
      exact .binding current target (hyes.cons _) hknown
    · have hunknown : ¬ (Registry.Edit.select v.client).Allowed (c.after h).world.registry := by
        rw [Registry.Edit.allowed_select_iff, ← exists_chainOf_iff]
        rintro ⟨chain, hok⟩
        cases hchain.symm.trans hok
      rw [Registry.Edit.done?_of_not_allowed hunknown] at hwrite
      rw [hwrite, hafter]
      exact .failing (.note _ fault)
  | binding current target hyes hknown =>
    obtain ⟨hbind, hafter⟩ := bind_of_known queue classifier flag current target hknown
    rw [hwrite, hbind, hafter]
    exact .noting current target (hyes.cons _)
  | noting current target hyes =>
    change _ = none at hwrite
    rw [hwrite]
    exact .changed (hyes.cons _)
  | changed hyes => simp [Thread.ended?] at hs

/-- **The others move.**  They leave the tally as it is; if the client was selected and is
to be bound, they leave it known, as long as nobody edits the networks. -/
theorem Tally.other {next : Turn → Program η α} {a : Act η α}
    (htally : Tally queue classifier flag v ((own queue classifier flag).Resumed c i v came h)
      (c.after h).world.registry s es)
    (hundisturbed : c.Undisturbed i (a :: h))
    (ht : (c.after h).thread? i = some ((own queue classifier flag).around v next s)) :
    Tally queue classifier flag v ((own queue classifier flag).Resumed c i v came (a :: h))
      (c.after (a :: h)).world.registry s es := by
  cases htally with
  | opening hplace => exact .opening hplace
  | failing hfails => exact .failing hfails
  | switching current target hyes => exact .switching current target (hyes.cons a)
  | binding current target hyes hknown =>
    refine .binding current target (hyes.cons a) ?_
    rw [Crew.after_cons]
    rcases (c.after h).edited_perform a with hsame | ⟨e, hact, hallowed, hdone⟩
    · rw [hsame]
      exact hknown
    · rw [hdone]
      by_contra hunknown
      obtain rfl := Registry.Edit.eq_removeCustom hknown (Option.not_isSome_iff_eq_none.1 hunknown)
      obtain rfl := hact rfl
      have hrest := hundisturbed.1 rfl
      rw [ht] at hrest
      exact nomatch hrest
  | noting current target hyes => exact .noting current target (hyes.cons a)
  | changed hyes => exact .changed (hyes.cons a)

/-- A request that waits for the slot writes nothing when it moves. -/
theorem Attends.writes_go_of_none (h : (own queue classifier flag).Attends c i v came none past) :
    c.writes i (.go i :: past) = c.writes i past := by
  have hwrite : (c.after past).write? i = none := by
    obtain ⟨next, ht | ⟨place, ht⟩⟩ := h.thread?_of_none
    · rw [Crew.write?_of_thread? ht]
      rfl
    · rw [Crew.write?_of_thread? ht]
      rfl
  rw [Crew.writes_go, hwrite]
  exact List.append_nil _

/-- **The tally is kept** from the moment the request comes to the queue until its check
ends. -/
theorem Attends.tally (hkind : v.kind = .requiresConfirmation) (hundisturbed : c.Undisturbed i past)
    (hattends : (own queue classifier flag).Attends c i v came o past) :
    ∃ es, c.writes i past = c.writes i came ++ es ∧ (o = none → es = []) ∧
      ∀ s, o = some s →
      Tally queue classifier flag v ((own queue classifier flag).Resumed c i v came past)
        (c.after past).world.registry s es := by
  induction hattends with
  | comes ht =>
    refine ⟨[], by rw [List.append_nil], fun _ => rfl, ?_⟩
    intro s hs
    exact nomatch hs
  | waits before ht ih =>
    obtain ⟨es, hwrites, hnone, -⟩ := ih hundisturbed.2
    obtain rfl := hnone rfl
    refine ⟨[], before.writes_go_of_none.trans hwrites, fun _ => rfl, ?_⟩
    intro s hs
    exact nomatch hs
  | begins before ht ih =>
    obtain ⟨es, hwrites, hnone, -⟩ := ih hundisturbed.2
    obtain rfl := hnone rfl
    refine ⟨[], before.writes_go_of_none.trans hwrites, fun _ => rfl, ?_⟩
    rintro s ⟨⟩
    exact .opening .looking
  | @goes s h before hs ih =>
    obtain ⟨es, hwrites, -, htally⟩ := ih hundisturbed.2
    obtain ⟨next, ht⟩ := before.exists_around hkind
    refine ⟨es ++ ((c.after h).write? i).toList, ?_, ?_, ?_⟩
    · rw [Crew.writes_go, hwrites, List.append_assoc]
    · intro hnone
      exact nomatch hnone
    · rintro s ⟨⟩
      exact (htally _ rfl).go before ht hs
  | stays before hgo hdrop ih =>
    obtain ⟨es, hwrites, hnone, htally⟩ := ih hundisturbed.2
    refine ⟨es, ?_, hnone, ?_⟩
    · rw [Crew.writes_of_ne hgo, hwrites]
    · rintro s rfl
      obtain ⟨next, ht⟩ := before.exists_around hkind
      exact (htally _ rfl).other hundisturbed ht

/-- Where a tally is not empty the user's yes was heard, and the client was selected; then
the origin was bound to it, or that is what the check does next. -/
theorem Tally.heard (htally : Tally queue classifier flag v resumed r s es) :
    es = [] ∨ resumed ∧ (es = [.select v.client, .bind v.origin v.client] ∨
      es = [.select v.client] ∧ (r.resolve v.client).isSome ∧ s.ended? = none ∧ s.waits = false ∧
        s.edit? = some (.bind v.origin v.client)) := by
  cases htally with
  | opening => exact .inl rfl
  | failing => exact .inl rfl
  | switching => exact .inl rfl
  | binding current target hyes hknown => exact .inr ⟨hyes, .inr ⟨rfl, hknown, rfl, rfl, rfl⟩⟩
  | noting current target hyes => exact .inr ⟨hyes, .inl rfl⟩
  | changed hyes => exact .inr ⟨hyes, .inl rfl⟩

/-- A check that waits has written nothing. -/
theorem Tally.eq_nil_of_waits (htally : Tally queue classifier flag v resumed r s es)
    (hwaits : s.waits = true) :
    es = [] := by
  cases htally with
  | opening => rfl
  | failing => rfl
  | switching => rfl
  | binding => exact nomatch hwaits
  | noting => exact nomatch hwaits
  | changed => exact nomatch hwaits

/-- A check that has failed has written nothing. -/
theorem Tally.eq_nil_of_failed {fault : Fault}
    (htally : Tally queue classifier flag v resumed r s es)
    (hended : s.ended? = some (.finished (.error fault))) : es = [] := by
  cases htally with
  | opening => rfl
  | failing => rfl
  | switching => rfl
  | binding => exact nomatch hended
  | noting => exact nomatch hended
  | changed => exact nomatch hended

/-- A request that is at rest before its check has ended has written nothing. -/
theorem Attends.eq_nil_of_isAtRest (hkind : v.kind = .requiresConfirmation)
    (hattends : (own queue classifier flag).Attends c i v came o past) (hnone : o = none → es = [])
    (htally : ∀ s, o = some s → Tally queue classifier flag v resumed r s es)
    (hrest : ((c.after past).thread? i).all Thread.isAtRest = true) : es = [] := by
  cases o with
  | none => exact hnone rfl
  | some s =>
    obtain ⟨next, ht⟩ := hattends.exists_around hkind
    rw [ht] at hrest
    exact (htally s rfl).eq_nil_of_waits ((Thread.waits_bind _ s).symm.trans hrest)

/-- **A switch is all or nothing.**  A request that needs confirmation came to the queue of
the gate, and nobody edits the networks from outside while it is just being resumed;
everything else may happen, in any order.  At every moment until its check ends, the request
has written nothing; or the user's yes was heard and it has both selected its client and
bound its origin to that client; or, between these two writes, it is just being resumed, and
its next move makes the second.  It has written nothing as long as it waits for the slot or
for the user, and nothing ever if it is given up there.  If its check fails, it has written
nothing, and the job ends with the fault of the check.  If its check ends at all, it has
written both or neither. -/
theorem all_or_nothing (hkind : v.kind = .requiresConfirmation)
    (hundisturbed : c.Undisturbed i past)
    (hattends : (own queue classifier flag).Attends c i v came o past) :
    ∃ es, c.writes i past = c.writes i came ++ es ∧
      (es = [] ∨ (own queue classifier flag).Resumed c i v came past ∧
        (es = [.select v.client, .bind v.origin v.client] ∨
          es = [.select v.client] ∧ ((c.after past).thread? i).all Thread.isAtRest = false ∧
            c.writes i (.go i :: past)
              = c.writes i came ++ [.select v.client, .bind v.origin v.client])) ∧
      (((c.after past).thread? i).all Thread.isAtRest = true →
        es = [] ∧ ∀ later, c.writes i (later ++ .drop i :: past) = c.writes i came) ∧
      (∀ s fault, o = some s → s.ended? = some (.finished (.error fault)) →
        es = [] ∧ ∃ next, (c.after past).thread? i
          = some (.holding queue (.fresh (.done (Turn.failed fault v.request v.response))) next)) ∧
      ∀ s e, o = some s → s.ended? = some e →
      es = [] ∨ es = [.select v.client, .bind v.origin v.client] := by
  obtain ⟨es, hwrites, hnone, htally⟩ := hattends.tally hkind hundisturbed
  refine ⟨es, hwrites, ?_, ?_, ?_, ?_⟩
  · cases o with
    | none => exact .inl (hnone rfl)
    | some s =>
      refine (htally s rfl).heard.imp_right (And.imp_right (Or.imp_right ?_))
      rintro ⟨rfl, hknown, hs, hwaits, hedit⟩
      obtain ⟨next, ht⟩ := hattends.exists_around hkind
      have hwrite : (c.after past).write? i = some (.bind v.origin v.client) := by
        rw [write?_of_around ht hs, hedit]
        exact Registry.Edit.done?_of_allowed (e := .bind v.origin v.client) hknown
      refine ⟨rfl, ?_, ?_⟩
      · rw [ht]
        exact (Thread.waits_bind _ s).trans hwaits
      · rw [Crew.writes_go, hwrites, hwrite, List.append_assoc]
        rfl
  · intro hrest
    obtain rfl := hattends.eq_nil_of_isAtRest hkind hnone htally hrest
    obtain ⟨t, ht⟩ := hattends.exists_thread? hkind
    refine ⟨rfl, fun later => ?_⟩
    calc c.writes i (later ++ .drop i :: past)
        = c.writes i past := Crew.writes_of_dropped ht later
      _ = c.writes i came := by rw [hwrites, List.append_nil]
  · rintro s fault rfl hended
    refine ⟨(htally s rfl).eq_nil_of_failed hended, ?_⟩
    obtain ⟨next, ht⟩ := hattends.exists_around hkind
    obtain ⟨a, rfl, ha⟩ | ⟨text, -, htext⟩ := Thread.eq_fresh_of_ended hended
    · cases ha
      exact ⟨next, ht⟩
    · exact nomatch htext
  · rintro s e rfl hended
    rcases (htally s rfl).heard with hnil | ⟨-, hboth | ⟨-, -, hopen, -⟩⟩
    · exact .inl hnil
    · exact .inr hboth
    · rw [hopen] at hended
      exact nomatch hended

/-- The request for the client is about to enter the queue. -/
def devnetArrival : List (Act Unit Turn) :=
  List.replicate 2 (.go 0) ++ [.spawn "first" devnetVisit.task, register ⟨0x539⟩]

/-- While the user is asked another client is selected directly, and the client is
registered anew. -/
def devnetReselected : List (Act Unit Turn) :=
  register ⟨7⟩ :: .outside (.switchToBuiltIn .sepolia) :: List.replicate 6 (.go 0) ++ devnetArrival

/-- The user says yes, and the check comes to its end. -/
def devnetChanged : List (Act Unit Turn) :=
  List.replicate 4 (.go 0) ++ .outside (.accept (.fresh 0)) :: devnetReselected

/-- Given up while the user is asked, the request has written nothing; if the user says yes,
it writes twice. -/
theorem all_or_nothing_devnet :
    (∀ later, newWallet.writes 0 (later ++ .drop 0 :: devnetReselected) = []) ∧
    newWallet.writes 0 devnetChanged = [.select devnet, .bind ⟨"https://dapp.example"⟩ devnet] := by
  have harrival : plain.Attends newWallet 0 devnetVisit devnetArrival none devnetArrival :=
    .comes rfl
  have hasked := ((((((harrival.begins rfl).goes rfl).goes rfl).goes rfl).goes rfl).goes rfl)
  have hreselected : plain.Attends newWallet 0 devnetVisit devnetArrival _ devnetReselected :=
    (hasked.stays (by simp) (by simp)).stays (by simp [register]) (by simp [register])
  have hchanged : plain.Attends newWallet 0 devnetVisit devnetArrival _ devnetChanged :=
    (((((hreselected.stays (by simp) (by simp)).goes rfl).goes rfl).goes rfl).goes rfl)
  obtain ⟨_, _, _, hrest, _⟩ := all_or_nothing rfl (by decide +kernel) hreselected
  obtain ⟨es, hwrites, _, _, _, hended⟩ := all_or_nothing rfl (by decide +kernel) hchanged
  refine ⟨(hrest rfl).2, ?_⟩
  rcases hended _ _ rfl rfl with rfl | rfl
  · have hsome : (newWallet.writes 0 devnetChanged).length = 2 := by decide +kernel
    rw [hwrites] at hsome
    exact nomatch hsome
  · exact hwrites

end Gate

end WalletGate
