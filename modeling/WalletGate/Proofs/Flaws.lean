import WalletGate.Proofs.Declared

/-!
# The first flaw of settings

Validation walks two lists of methods with one memory of what it has seen, then looks at the
timeout, then walks the custom clients with another memory, and stops at the first thing
that is wrong.  What it says can be told without any memory and without stopping: settings
have a list of **flaws**, one after another in the order in which they are written, each
found by comparing an item with the items before it.  Validation names the first of them,
and finds none exactly where everything that is demanded of settings holds.

* `inOrder` — the flaws of the items of a list, each judged by what stands before it;
* `walk_eq_firstOf` — a walk with a memory stops at the first flaw of its list, and both
  walks are such walks (`checkMethods_cons`, `checkCustom_cons`);
* `Settings.flaws_eq_nil_iff` — settings without a flaw are those in which everything that
  is demanded holds;
* `Settings.validate_documented` — what validation accepts, and what it says of everything else.
-/

namespace WalletGate

/-! ### What is demanded of settings -/

/-- The form of a method name: an ASCII letter, and behind it ASCII letters, digits and
underscores, up to the very end of the text. -/
def MethodForm (name : String) : Prop :=
  ∃ first rest, name.toList = first :: rest ∧ first.isAlpha = true ∧ ∀ c ∈ rest,
    c.isAlphanum = true ∨ c = '_'

/-- The id is the one of a built-in network. -/
def ClientId.IsBuiltIn (id : ClientId) : Prop :=
  ∃ network : BuiltIn, id = network.clientId

/-- What is demanded of settings. -/
structure Settings.Valid (s : Settings) : Prop where
  /-- Every listed method has the form of a method name. -/
  formed : ∀ m ∈ s.queue.confirmationMethods ++ s.queue.switchMethods, MethodForm m
  /-- No method is listed twice in the two lists together. -/
  once : (s.queue.confirmationMethods ++ s.queue.switchMethods).Nodup
  timeout : s.queue.approvalTimeout ≠ some 0
  named : ∀ c ∈ s.networks.custom, c.id.name ≠ ""
  free : ∀ c ∈ s.networks.custom, ¬ c.id.IsBuiltIn
  distinct : (s.networks.custom.map CustomNetwork.id).Nodup
  selected : s.networks.selected.IsBuiltIn ∨
    s.networks.selected ∈ s.networks.custom.map CustomNetwork.id

theorem isLetter_eq (c : Char) : isLetter c = c.isAlpha := by
  delta isLetter Char.isAlpha Char.isUpper Char.isLower
  simp [Char.le_def]

theorem isNameChar_eq (c : Char) : isNameChar c = (c.isAlphanum || c = '_') := by
  delta isNameChar Char.isAlphanum Char.isDigit
  simp [isLetter_eq, Char.le_def]

/-- The form of a method name can be found out. -/
theorem isMethodName_iff {name : String} : isMethodName name = true ↔ MethodForm name := by
  unfold isMethodName MethodForm
  cases name.toList with
  | nil => simp
  | cons first rest => simp [isLetter_eq, isNameChar_eq]

/-- Whether an id is a built-in network's can be found out too. -/
theorem isSome_ofClientId_iff {id : ClientId} :
    (BuiltIn.ofClientId? id).isSome = true ↔ id.IsBuiltIn := by
  rw [Option.isSome_iff_exists]
  constructor
  · rintro ⟨network, h⟩
    exact ⟨network, (BuiltIn.clientId_of_ofClientId h).symm⟩
  · rintro ⟨network, rfl⟩
    exact ⟨network, BuiltIn.ofClientId_clientId network⟩

instance (name : String) : Decidable (MethodForm name) :=
  decidable_of_iff _ isMethodName_iff

instance (id : ClientId) : Decidable id.IsBuiltIn :=
  decidable_of_iff _ isSome_ofClientId_iff

/-! ### The flaws of settings -/

section InOrder

variable {α : Type}

/-- The flaws of the items of a list, in their order.  What is wrong with an item may depend
on the items before it. -/
def inOrder (flaws : List α → α → List Flaw) (items : List α) : List Flaw :=
  items.zipIdx.flatMap fun place => flaws (items.take place.2) place.1

/-- The flaws of the first item come first; it stands before all others. -/
theorem inOrder_cons (flaws : List α → α → List Flaw) (a : α) (items : List α) :
    inOrder flaws (a :: items)
      = flaws [] a ++ inOrder (fun before => flaws (a :: before)) items := by
  unfold inOrder
  rw [List.zipIdx_cons, List.zipIdx_succ, List.flatMap_cons, List.flatMap_map]
  rfl

end InOrder

/-- What is wrong with a method that is listed behind others. -/
def methodFlaws (list : String) (before : List String) (m : String) : List Flaw :=
  (if MethodForm m then [] else [.badMethodName m list]) ++ if m
    ∈ before then [.repeatedMethod m list] else []

/-- What is wrong with a custom client that is declared behind others. -/
def customFlaws (before : List CustomNetwork) (c : CustomNetwork) : List Flaw :=
  (if c.id.name = "" then [.emptyCustomId] else []) ++
    (if c.id.IsBuiltIn then [.shadowsBuiltIn c.id] else []) ++
      if c.id ∈ before.map CustomNetwork.id then [.repeatedCustomId c.id] else []

/-- The flaws of the queue's settings: those of the confirmation methods, those of the
switch methods, the timeout. -/
def QueueSettings.flaws (q : QueueSettings) : List Flaw :=
  inOrder (methodFlaws "confirmation_methods") q.confirmationMethods ++
    inOrder (fun before => methodFlaws "network_switch_methods" (q.confirmationMethods ++ before))
    q.switchMethods ++
      if q.approvalTimeout = some 0 then [.zeroTimeout] else []

/-- The flaws of the networks' settings: those of the custom clients, the selection. -/
def NetworkSettings.flaws (n : NetworkSettings) : List Flaw :=
  inOrder customFlaws n.custom ++
    if n.selected.IsBuiltIn ∨ n.selected ∈ n.custom.map CustomNetwork.id then []
      else [.unknownSelection n.selected]

/-- All flaws of settings, in their order. -/
def Settings.flaws (s : Settings) : List Flaw := s.queue.flaws ++ s.networks.flaws

/-! ### Validation names the first flaw -/

section FirstOf

variable {α β : Type}

/-- The first flaw, or the value if there is none. -/
def firstOf (flaws : List Flaw) (a : α) : Except Flaw α :=
  match flaws with
  | [] => .ok a
  | flaw :: _ => .error flaw

/-- Where the second list is looked through only if there is nothing in the first, the first
flaw of both is found. -/
theorem firstOf_append {first second : List Flaw} {a : α} {b : β} {f : α → Except Flaw β}
    (h : f a = firstOf second b) : (firstOf first a).bind f = firstOf (first ++ second) b := by
  cases first with
  | nil => exact h
  | cons flaw later => rfl

/-- There is a value exactly if there is no flaw. -/
theorem firstOf_eq_ok_iff {flaws : List Flaw} {a b : α} :
    firstOf flaws a = .ok b ↔ flaws = [] ∧ a = b := by
  cases flaws <;> simp [firstOf]

end FirstOf

section Walk

variable {α κ : Type} {key : α → κ} {flaws : List α → α → List Flaw}
    {walk : List κ → List α → Except Flaw (List κ)}

/-- **A walk that looks for the flaws of one item after another stops at the first flaw of
the list**, if its memory holds what stands before them. -/
theorem walk_eq_firstOf (hend : ∀ seen, walk seen [] = .ok seen)
    (hstep : ∀ seen earlier a rest, (∀ k, k ∈ seen ↔ k ∈ earlier.map key) →
      walk seen (a :: rest) = (firstOf (flaws earlier a) ()).bind fun _ => walk
      (key a :: seen) rest)
    {seen : List κ} {earlier items : List α} (hseen : ∀ k, k ∈ seen ↔ k ∈ earlier.map key) :
    walk seen items
      = firstOf (inOrder (fun before => flaws (earlier ++ before)) items) ((items.map key).reverse
        ++ seen) := by
  induction items generalizing seen earlier with
  | nil => exact hend seen
  | cons a rest ih =>
    -- the memory has the key of the item, and the item now stands before the rest
    have hmore : ∀ k, k ∈ key a :: seen ↔ k ∈ (earlier ++ [a]).map key := by simp [hseen, or_comm]
    rw [hstep seen earlier a rest hseen, inOrder_cons, List.append_nil]
    refine firstOf_append ?_
    simpa using ih hmore

end Walk

/-- The walk along methods looks for the flaws of one method after another. -/
theorem checkMethods_cons {list m : String} {seen earlier rest : List String}
    (hseen : ∀ k, k ∈ seen ↔ k ∈ earlier) :
    checkMethods list seen (m :: rest)
      = (firstOf (methodFlaws list earlier m) ()).bind fun _ => checkMethods list
        (m :: seen) rest := by
  rw [checkMethods]
  by_cases hform : MethodForm m
  · by_cases hmem : m ∈ seen <;>
      simp [methodFlaws, isMethodName_iff.2 hform, hform, ← hseen, hmem, firstOf, Except.bind]
  · have hname : isMethodName m = false := by simpa using fun h => hform (isMethodName_iff.1 h)
    simp [methodFlaws, hname, hform, firstOf, Except.bind]

/-- The walk along custom clients looks for the flaws of one client after another. -/
theorem checkCustom_cons {c : CustomNetwork} {seen : List ClientId}
    {earlier rest : List CustomNetwork}
    (hseen : ∀ id, id ∈ seen ↔ id ∈ earlier.map CustomNetwork.id) :
    checkCustom seen (c :: rest)
      = (firstOf (customFlaws earlier c) ()).bind fun _ => checkCustom (c.id :: seen) rest := by
  rw [checkCustom]
  by_cases hname : c.id.name = ""
  · simp [customFlaws, hname, firstOf, Except.bind]
  · by_cases hbuiltIn : c.id.IsBuiltIn
    · simp [customFlaws, hname, hbuiltIn, isSome_ofClientId_iff, firstOf, Except.bind]
    · by_cases hmem : c.id ∈ seen <;>
        simp [customFlaws, hname, hbuiltIn, isSome_ofClientId_iff, ← hseen, hmem, firstOf,
          Except.bind, -List.mem_map]

/-- So the first stops at the first flaw of the methods. -/
theorem checkMethods_eq_firstOf {list : String} {seen earlier ms : List String}
    (hseen : ∀ m, m ∈ seen ↔ m ∈ earlier) :
    checkMethods list seen ms
      = firstOf (inOrder (fun before => methodFlaws list (earlier ++ before)) ms)
        (ms.reverse ++ seen) := by
  have hwalk := @walk_eq_firstOf String String id (methodFlaws list) (checkMethods list)
    (fun _ => rfl)
    (fun _ _ _ _ h => checkMethods_cons (by simpa using h)) seen earlier ms (by simpa using hseen)
  simpa using hwalk

/-- And the second at the first flaw of the custom clients. -/
theorem checkCustom_eq_firstOf {seen : List ClientId} {earlier cs : List CustomNetwork}
    (hseen : ∀ id, id ∈ seen ↔ id ∈ earlier.map CustomNetwork.id) :
    checkCustom seen cs
      = firstOf (inOrder (fun before => customFlaws (earlier ++ before)) cs)
          ((cs.map CustomNetwork.id).reverse ++ seen) :=
  walk_eq_firstOf (fun _ => rfl) (fun _ _ _ _ h => checkCustom_cons h) hseen

/-- **The check of the queue's settings finds their first flaw.** -/
theorem QueueSettings.check_eq_firstOf (q : QueueSettings) : q.check = firstOf q.flaws () := by
  have hconfirmation : checkMethods "confirmation_methods" [] q.confirmationMethods
      = firstOf (inOrder (methodFlaws "confirmation_methods") q.confirmationMethods)
          (q.confirmationMethods.reverse ++ []) :=
    checkMethods_eq_firstOf fun _ => Iff.rfl
  have hswitch : checkMethods "network_switch_methods" (q.confirmationMethods.reverse ++ [])
    q.switchMethods
      = firstOf (inOrder
          (fun before => methodFlaws "network_switch_methods" (q.confirmationMethods ++ before))
          q.switchMethods) (q.switchMethods.reverse ++ (q.confirmationMethods.reverse ++ [])) :=
    checkMethods_eq_firstOf (by simp)
  have htimeout : (if q.approvalTimeout = some 0 then .error .zeroTimeout else .ok ())
      = firstOf (if q.approvalTimeout = some 0 then [.zeroTimeout] else []) () := by
    split <;> rfl
  unfold QueueSettings.check QueueSettings.flaws
  rw [hconfirmation, List.append_assoc]
  refine firstOf_append ?_
  rw [hswitch]
  exact firstOf_append htimeout

/-- **The check of the networks' settings finds their first flaw.** -/
theorem NetworkSettings.check_eq_firstOf (n : NetworkSettings) : n.check = firstOf n.flaws () := by
  have hcustom : checkCustom [] n.custom
      = firstOf (inOrder customFlaws n.custom) ((n.custom.map CustomNetwork.id).reverse ++ []) :=
    @checkCustom_eq_firstOf [] [] n.custom (by simp)
  unfold NetworkSettings.check NetworkSettings.flaws
  rw [hcustom]
  refine firstOf_append ?_
  by_cases hselected : n.selected.IsBuiltIn ∨ n.selected ∈ n.custom.map CustomNetwork.id
  · rw [if_pos hselected]
    exact if_pos (by simpa [isSome_ofClientId_iff] using hselected)
  · rw [if_neg hselected]
    exact if_neg (by simpa [isSome_ofClientId_iff] using hselected)

/-- So does the check of all settings. -/
theorem Settings.check_eq_firstOf (s : Settings) : s.check = firstOf s.flaws () := by
  unfold Settings.check Settings.flaws
  rw [QueueSettings.check_eq_firstOf]
  exact firstOf_append s.networks.check_eq_firstOf

/-! ### Settings without a flaw -/

/-- Methods have no flaw behind others exactly if they have the form of method names, and
none of them is listed twice or was listed before. -/
theorem inOrder_methodFlaws_eq_nil_iff {list : String} {earlier ms : List String} :
    inOrder (fun before => methodFlaws list (earlier ++ before)) ms = [] ↔
      (∀ m ∈ ms, MethodForm m ∧ m ∉ earlier) ∧ ms.Nodup := by
  induction ms generalizing earlier with
  | nil => simp [inOrder]
  | cons m rest ih =>
    have hrest : (fun before => methodFlaws list (earlier ++ m :: before))
        = fun before => methodFlaws list ((earlier ++ [m]) ++ before) := by simp
    have hfirst : methodFlaws list earlier m = [] ↔ MethodForm m ∧ m ∉ earlier := by
      simp [methodFlaws]
    rw [inOrder_cons, List.append_nil, List.append_eq_nil_iff, hrest, ih, hfirst,
      List.forall_mem_cons, List.nodup_cons]
    constructor
    · rintro ⟨hm, hall, hnodup⟩
      refine ⟨⟨hm, fun x hx => ⟨(hall x hx).1, fun h => (hall x hx).2 (List.mem_append_left _ h)⟩⟩,
        ?_, hnodup⟩
      exact fun hmem => (hall m hmem).2 (List.mem_append_right _ List.mem_cons_self)
    · rintro ⟨⟨hm, hall⟩, hnew, hnodup⟩
      refine ⟨hm, fun x hx => ⟨(hall x hx).1, fun h => ?_⟩, hnodup⟩
      rcases List.mem_append.1 h with hearlier | hlast
      · exact (hall x hx).2 hearlier
      · exact hnew (List.mem_singleton.1 hlast ▸ hx)

/-- What is demanded of the queue's settings. -/
theorem QueueSettings.flaws_eq_nil_iff {q : QueueSettings} :
    q.flaws = [] ↔ (∀ m ∈ q.confirmationMethods ++ q.switchMethods, MethodForm m) ∧
      (q.confirmationMethods ++ q.switchMethods).Nodup ∧ q.approvalTimeout ≠ some 0 := by
  have hconfirmation : inOrder (methodFlaws "confirmation_methods") q.confirmationMethods = [] ↔
      (∀ m ∈ q.confirmationMethods, MethodForm m ∧ m ∉ []) ∧ q.confirmationMethods.Nodup :=
    @inOrder_methodFlaws_eq_nil_iff _ [] q.confirmationMethods
  unfold QueueSettings.flaws
  rw [List.append_eq_nil_iff, List.append_eq_nil_iff, hconfirmation, inOrder_methodFlaws_eq_nil_iff,
    List.nodup_append', List.disjoint_right, List.forall_mem_append]
  simp only [List.not_mem_nil, not_false_eq_true, and_true, forall_and, ite_eq_right_iff,
    reduceCtorEq, imp_false]
  tauto

/-- What is demanded of the networks' settings, in other words. -/
theorem NetworkSettings.consistent_iff {n : NetworkSettings} :
    n.Consistent ↔ (∀ c ∈ n.custom, c.id.name ≠ "") ∧ (∀ c ∈ n.custom, ¬ c.id.IsBuiltIn) ∧
      (n.custom.map CustomNetwork.id).Nodup ∧
        (n.selected.IsBuiltIn ∨ n.selected ∈ n.custom.map CustomNetwork.id) := by
  have hfree (id : ClientId) : BuiltIn.ofClientId? id = none ↔ ¬ id.IsBuiltIn := by
    rw [← isSome_ofClientId_iff, Option.not_isSome_iff_eq_none]
  simp only [← @isSome_ofClientId_iff n.selected, ← hfree]
  exact ⟨fun h => ⟨h.named, h.free, h.distinct, h.selected⟩,
    fun h => ⟨h.1, h.2.1, h.2.2.1, h.2.2.2⟩⟩

/-- **Settings without a flaw are valid**, and no others. -/
theorem Settings.flaws_eq_nil_iff {s : Settings} : s.flaws = [] ↔ s.Valid := by
  have hnetworks : s.networks.flaws = [] ↔ s.networks.Consistent := by
    rw [← NetworkSettings.check_eq_ok_iff, NetworkSettings.check_eq_firstOf, firstOf_eq_ok_iff]
    simp
  unfold Settings.flaws
  rw [List.append_eq_nil_iff, hnetworks, QueueSettings.flaws_eq_nil_iff,
    NetworkSettings.consistent_iff]
  constructor
  · rintro ⟨⟨hformed, honce, htimeout⟩, hnamed, hfree, hdistinct, hselected⟩
    exact ⟨hformed, honce, htimeout, hnamed, hfree, hdistinct, hselected⟩
  · intro h
    exact ⟨⟨h.formed, h.once, h.timeout⟩, h.named, h.free, h.distinct, h.selected⟩

/-- Settings are accepted exactly if everything that is demanded holds. -/
theorem Settings.validate_eq_ok_iff {s : Settings} : s.validate = .ok () ↔ s.Valid := by
  rw [← Settings.flaws_eq_nil_iff, Settings.validate, Settings.check_eq_firstOf]
  cases s.flaws with
  | nil => simp [firstOf, Except.mapError]
  | cons flaw later => simp [firstOf, Except.mapError]

/-- Settings are refused exactly if they have a flaw, and with the fault of the first one. -/
theorem Settings.validate_eq_error_iff {s : Settings} {fault : Fault} :
    s.validate = .error fault ↔ ∃ flaw later, s.flaws = flaw :: later ∧
      fault = .config flaw.message := by
  rw [Settings.validate, Settings.check_eq_firstOf]
  cases s.flaws with
  | nil => simp [firstOf, Except.mapError]
  | cons flaw later => simp [firstOf, Except.mapError, Flaw.toFault, eq_comm]

/-- **Validation accepts the settings in which everything that is demanded holds**, and no
others.  Of any others it names the first flaw: those of the confirmation methods, of the
switch methods, of the timeout, of the custom clients and of the selection, in this order,
and of one item in the order in which they are listed for it. -/
theorem Settings.validate_documented (s : Settings) :
    (s.validate = .ok () ↔ s.Valid) ∧
      ∀ fault, s.validate = .error fault ↔ ∃ flaw later, s.flaws = flaw :: later ∧
      fault = .config flaw.message :=
  ⟨Settings.validate_eq_ok_iff, fun _ => Settings.validate_eq_error_iff⟩

/-- Settings in which a good deal is wrong: `9lives` has the wrong form and is listed twice,
the timeout is zero, and a custom client takes the id of a built-in network. -/
def muddled : Settings :=
  ⟨⟨true, ["eth_sign", "9lives"], ["eth_sign", "9lives"], some 0⟩,
    ⟨⟨"nowhere"⟩, [⟨⟨"mainnet"⟩, ⟨1⟩, none, none⟩]⟩⟩

/-- Seven things are wrong with them. -/
example : muddled.flaws =
    [.badMethodName "9lives" "confirmation_methods",
      .repeatedMethod "eth_sign" "network_switch_methods",
      .badMethodName "9lives" "network_switch_methods",
      .repeatedMethod "9lives" "network_switch_methods", .zeroTimeout,
      .shadowsBuiltIn ⟨"mainnet"⟩, .unknownSelection ⟨"nowhere"⟩] := by
  decide +kernel

end WalletGate
