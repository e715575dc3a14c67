import WalletGate.Proofs.References
import WalletGate.Proofs.Rule
import WalletGate.Proofs.Story

/-!
# What a task writes into the registry

A task writes into the registry one edit at a time: each move asks for at most one, and what
is refused writes nothing.  So everything a task has written by some moment is a list of
edits, computed from the history (`Crew.writes`), and whatever else happens leaves the list
alone.

* `Crew.writes_go`, `Crew.writes_of_ne` — only moves of a task add to what it has written;
* `Crew.writes_of_dropped` — a task that was given up writes nothing more;
* `Crew.registry_after` — the registry is what the edits of the tasks, and those from
  outside, made of it.
-/

namespace WalletGate

variable {η α β : Type}

namespace Registry.Edit

instance (r : Registry) (e : Edit) : Decidable (e.Allowed r) :=
  match e with
  | addCustom id _ => inferInstanceAs (Decidable (BuiltIn.ofClientId? id = none))
  | removeCustom id => inferInstanceAs (Decidable (r.selected ≠ id ∧ (r.custom id).isSome))
  | switchToBuiltIn _ => inferInstanceAs (Decidable True)
  | switchToCustom id => inferInstanceAs (Decidable (r.custom id).isSome)
  | bind _ id => inferInstanceAs (Decidable (r.resolve id).isSome)

deriving instance DecidableEq for Edit

/-- Selects a client, in the way that is meant for it. -/
def select (client : ClientId) : Edit :=
  match BuiltIn.ofClientId? client with
  | some network => switchToBuiltIn network
  | none => switchToCustom client

/-- A client may be selected if it is known. -/
theorem allowed_select_iff {client : ClientId} {r : Registry} :
    (select client).Allowed r ↔ (r.resolve client).isSome := by
  rw [isSome_resolve_iff, select]
  cases h : BuiltIn.ofClientId? client with
  | some network => simp [Allowed]
  | none => simp [Allowed]

/-- What is done of an edit: all of it if it is allowed, else nothing. -/
def done? (r : Registry) (e : Edit) : Option Edit :=
  if e.Allowed r then some e else none

theorem done?_of_allowed {e : Edit} {r : Registry} (h : e.Allowed r) : e.done? r = some e :=
  if_pos h

theorem done?_of_not_allowed {e : Edit} {r : Registry} (h : ¬ e.Allowed r) : e.done? r = none :=
  if_neg h

end Registry.Edit

/-- The registry behind the edit that was made, if one was. -/
def Registry.behind (r : Registry) (e : Option Registry.Edit) : Registry :=
  e.elim r (Registry.Edit.result r)

/-- The edit of the registry a call asks for. -/
def Call.edit? : Call β → Option Registry.Edit
  | switchToBuiltIn network => some (.switchToBuiltIn network)
  | switchToCustom id => some (.switchToCustom id)
  | bindOrigin origin id => some (.bind origin id)
  | _ => none

/-- The edit of the registry the next move of a thread asks for. -/
def Thread.edit? {α : Type} : Thread η α → Option Registry.Edit
  | fresh (.call k _) => k.edit?
  | holding _ inner _ => inner.edit?
  | _ => none

/-- The edit of the registry that comes from outside. -/
def Outside.edit? : Outside η → Option Registry.Edit
  | addCustom id config => some (.addCustom id config)
  | removeCustom id => some (.removeCustom id)
  | switchToBuiltIn network => some (.switchToBuiltIn network)
  | switchToCustom id => some (.switchToCustom id)
  | bindOrigin origin id => some (.bind origin id)
  | _ => none

namespace Crew

/-- The edit of the registry the next move of a task makes. -/
def write? (i : Nat) (c : Crew η α) : Option Registry.Edit :=
  ((c.thread? i).bind Thread.edit?).bind (Registry.Edit.done? c.world.registry)

/-- What a task has written into the registry, the first edit first. -/
def writes (c : Crew η α) (i : Nat) : List (Act η α) → List Registry.Edit
  | [] => []
  | .go j :: past =>
    if j = i then c.writes i past ++ ((c.after past).write? i).toList else c.writes i past
  | .spawn _ _ :: past => c.writes i past
  | .drop _ :: past => c.writes i past
  | .outside _ :: past => c.writes i past

/-- The edit of the registry an act makes. -/
def made? (c : Crew η α) : Act η α → Option Registry.Edit
  | .go i => c.write? i
  | .outside o => o.edit?.bind (Registry.Edit.done? c.world.registry)
  | .spawn _ _ => none
  | .drop _ => none

/-- Everything that was written into the registry, the first edit first. -/
def edits (c : Crew η α) : List (Act η α) → List Registry.Edit
  | [] => []
  | a :: past => c.edits past ++ ((c.after past).made? a).toList

end Crew

/-- An edit in the world is an edit of its registry. -/
theorem World.registry_onRegistry_edit (e : Registry.Edit) (w : World η) :
    (w.onRegistry e.act).2.registry = w.registry.behind (e.done? w.registry) := by
  by_cases h : e.Allowed w.registry
  · rw [(onRegistry_of_allowed h).2, Registry.Edit.done?_of_allowed h]
    rfl
  · obtain ⟨fault, hsame⟩ := onRegistry_of_not_allowed h
    rw [hsame, Registry.Edit.done?_of_not_allowed h]
    rfl

/-- The registry behind a call is the one behind the edit it asks for. -/
theorem Call.registry_answer (k : Call β) (w : World η) :
    (k.answer w).2.registry
      = w.registry.behind (k.edit?.bind (Registry.Edit.done? w.registry)) := by
  cases k with
  | switchToBuiltIn network => exact w.registry_onRegistry_edit (.switchToBuiltIn network)
  | switchToCustom id => exact w.registry_onRegistry_edit (.switchToCustom id)
  | bindOrigin origin id => exact w.registry_onRegistry_edit (.bind origin id)
  | _ => rfl

/-- The registry behind what comes from outside is the one behind the edit it is. -/
theorem Outside.registry_apply (o : Outside η) (w : World η) :
    (o.apply w).registry
      = w.registry.behind (o.edit?.bind (Registry.Edit.done? w.registry)) := by
  cases o with
  | accept id => simp [apply, edit?, Registry.behind]
  | reject id reason => simp [apply, edit?, Registry.behind]
  | addCustom id config => exact w.registry_onRegistry_edit (.addCustom id config)
  | removeCustom id => exact w.registry_onRegistry_edit (.removeCustom id)
  | switchToBuiltIn network => exact w.registry_onRegistry_edit (.switchToBuiltIn network)
  | switchToCustom id => exact w.registry_onRegistry_edit (.switchToCustom id)
  | bindOrigin origin id => exact w.registry_onRegistry_edit (.bind origin id)
  | _ => rfl

namespace Thread

variable {t : Thread η α} {w : World η} {m : Move η α}

/-- The registry behind a move is the one behind the edit the thread asks for. -/
theorem registry_of_moves (h : Moves w t m) :
    m.world.registry = w.registry.behind (t.edit?.bind (Registry.Edit.done? w.registry)) := by
  induction h with
  | call k next => exact k.registry_answer w
  | inside queue next _ ih => exact ih
  | _ => rfl

/-- A thread that does not move asks for nothing. -/
theorem edit?_of_not_move (h : t.move w = none) : t.edit? = none := by
  induction t with
  | fresh p =>
    cases p with
    | call k next => exact nomatch h
    | _ => rfl
  | holding queue inner next ih =>
    cases hended : inner.ended? with
    | some e =>
      rcases eq_fresh_of_ended hended with ⟨a, rfl, -⟩ | ⟨text, rfl, -⟩
      · rfl
      · rfl
    | none =>
      simp only [move, hended, Option.map_eq_none_iff] at h
      exact ih h
  | _ => rfl

/-- What a thread that goes on with something asks for is what it would ask for alone. -/
theorem edit?_bind (f : α → Program η β) (h : t.ended? = none) : (t.bind f).edit? = t.edit? := by
  cases t with
  | fresh p =>
    cases p with
    | done a => exact nomatch h
    | _ => rfl
  | _ => rfl

end Thread

namespace Crew

variable {c : Crew η α} {i : Nat} {past : List (Act η α)} {a : Act η α}

theorem write?_of_thread? {t : Thread η α} (h : c.thread? i = some t) :
    c.write? i = t.edit?.bind (Registry.Edit.done? c.world.registry) := by
  rw [write?, h]
  rfl

/-- **A move of a task** adds the edit it makes to what the task has written. -/
theorem writes_go (c : Crew η α) (i : Nat) (past : List (Act η α)) :
    c.writes i (.go i :: past) = c.writes i past ++ ((c.after past).write? i).toList :=
  if_pos rfl

/-- **Nothing else does.** -/
theorem writes_of_ne (h : a ≠ .go i) : c.writes i (a :: past) = c.writes i past := by
  cases a with
  | go j => exact if_neg fun hj => h (congrArg Act.go hj)
  | _ => rfl

/-- A task of which nothing is left leaves nothing either when it is to move or to be given
up. -/
theorem perform_of_gone (hgone : c.thread? i = none) (ha : a = .go i ∨ a = .drop i) :
    c.perform a = c := by
  rcases ha with rfl | rfl
  · exact go_of_gone hgone
  · rw [perform, giveUp, hgone]

/-- A task of which nothing is left writes nothing more, and stays as it is. -/
theorem writes_of_gone (hgone : (c.after past).thread? i = none)
    (hi : i < (c.after past).tasks.length) (later : List (Act η α)) :
    c.writes i (later ++ past) = c.writes i past ∧ (c.after (later ++ past)).thread? i = none ∧
      i < (c.after (later ++ past)).tasks.length := by
  induction later with
  | nil => exact ⟨rfl, hgone, hi⟩
  | cons a later ih =>
    obtain ⟨hwrites, hthread, hlt⟩ := ih
    have hlonger := Nat.lt_of_lt_of_le hlt (length_perform_le (c.after (later ++ past)) a)
    refine ⟨?_, ?_, hlonger⟩
    · rw [List.cons_append, ← hwrites]
      by_cases hgo : a = .go i
      · rw [hgo, writes_go, write?, hthread]
        exact List.append_nil _
      · exact writes_of_ne hgo
    · rw [List.cons_append, after_cons]
      by_cases ha : a = .go i ∨ a = .drop i
      · rw [perform_of_gone hthread ha, hthread]
      · rw [not_or] at ha
        rw [thread?_perform_of_lt hlt ha.1 ha.2, hthread]

/-- **A task that was given up writes nothing more.** -/
theorem writes_of_dropped {t : Thread η α} (ht : (c.after past).thread? i = some t)
    (later : List (Act η α)) :
    c.writes i (later ++ .drop i :: past) = c.writes i past := by
  have hgone : (c.after (.drop i :: past)).thread? i = none := by
    rw [after_cons, perform, giveUp, ht]
    exact thread?_put_self ht none _
  have hi : i < (c.after (.drop i :: past)).tasks.length :=
    Nat.lt_of_lt_of_le (lt_of_thread? ht) (length_perform_le (c.after past) (.drop i))
  exact (writes_of_gone hgone hi later).1

/-- The registry behind a move of a task is the one behind the edit the move makes. -/
theorem registry_go (i : Nat) (c : Crew η α) :
    (c.go i).world.registry = c.world.registry.behind (c.write? i) := by
  cases ht : c.thread? i with
  | none =>
    rw [go_of_gone ht, write?, ht]
    rfl
  | some t =>
    rw [write?_of_thread? ht]
    cases hm : t.move c.world with
    | some m =>
      rw [go_of_move ht hm, world_put]
      exact Thread.registry_of_moves (Thread.moves_of_move hm)
    | none =>
      rw [Thread.edit?_of_not_move hm]
      cases hended : t.ended? with
      | some e =>
        rw [go_of_ended ht hended, world_record, world_put]
        rfl
      | none =>
        rw [go_of_stuck ht hended hm]
        rfl

/-- **One act makes one edit** of the registry, or none. -/
theorem registry_perform (c : Crew η α) (a : Act η α) :
    (c.perform a).world.registry = c.world.registry.behind (c.made? a) := by
  cases a with
  | spawn name program => rfl
  | go i => exact registry_go i c
  | drop i =>
    rw [perform, giveUp]
    cases c.thread? i with
    | none => rfl
    | some t => exact t.registry_cancel c.world
  | outside o => exact o.registry_apply c.world

/-- **The registry is what the edits made of it**, one after another. -/
theorem registry_after (c : Crew η α) (past : List (Act η α)) :
    (c.after past).world.registry
      = (c.edits past).foldl Registry.Edit.result c.world.registry := by
  induction past with
  | nil => rfl
  | cons a past ih =>
    rw [after_cons, registry_perform, edits, List.foldl_append, ← ih]
    cases (c.after past).made? a <;> rfl

/-- What a task has written is among the edits, in their order. -/
theorem writes_sublist (c : Crew η α) (i : Nat) (past : List (Act η α)) :
    (c.writes i past).Sublist (c.edits past) := by
  induction past with
  | nil => exact .slnil
  | cons a past ih =>
    by_cases hgo : a = .go i
    · rw [hgo, writes_go]
      exact ih.append_right _
    · rw [writes_of_ne hgo]
      exact ih.trans (List.sublist_append_left _ _)

end Crew

end WalletGate
