import Mathlib.Data.List.Perm.Basic
import WalletGate.Classifier
import WalletGate.Proofs.Flaws

/-!
# Valid settings classify without ambiguity

A classifier is made of two lists, and where both list a method it takes the side of the
switch methods.  For the lists of valid settings there is no side to be taken: validation
keeps one memory along both lists, so no method is in both.  The class of a method is then
the list it is in, whichever list is looked through first and however either of them is
ordered; and as everything that is listed has the form of a method name, nothing else is
ever queued.

* `Classifier.classify_eq_iff` — the class of a method, for any two lists;
* `Classifier.classify_congr` — only what is listed matters, not the order;
* `Classifier.unambiguous` — for the lists of valid settings, nothing matters but which list
  a method is in.
-/

namespace WalletGate

namespace Classifier

variable {c : Classifier} {m : String}

/-- The class of a method, if the confirmation methods are looked through first. -/
def classifyConfirmationFirst (c : Classifier) (method : String) : MethodClass :=
  if c.confirmationMethods.contains method then .requiresConfirmation
  else if c.switchMethods.contains method then .isNetworkSwitchRequest
  else .bypass

/-- The class of a method, as it is listed: what both lists hold is a switch method. -/
theorem classify_eq_iff (kind : MethodClass) : c.classify m = kind ↔
    match kind with
    | .isNetworkSwitchRequest => m ∈ c.switchMethods
    | .requiresConfirmation => m ∈ c.confirmationMethods ∧ m ∉ c.switchMethods
    | .bypass => m ∉ c.confirmationMethods ∧ m ∉ c.switchMethods := by
  by_cases hswitch : m ∈ c.switchMethods
  · cases kind <;> simp [classify, hswitch]
  · by_cases hconfirmation : m ∈ c.confirmationMethods <;> cases kind <;>
      simp [classify, hswitch, hconfirmation]

/-- A method is queued exactly if it is listed. -/
theorem isQueued_classify_iff :
    (c.classify m).isQueued = true ↔ m ∈ c.confirmationMethods ∨ m ∈ c.switchMethods := by
  have hbypass := classify_eq_iff (c := c) (m := m) .bypass
  cases hkind : c.classify m with
  | bypass => simpa [MethodClass.isQueued, not_or] using hbypass.1 hkind
  | requiresConfirmation =>
    simpa [MethodClass.isQueued] using .inl ((classify_eq_iff .requiresConfirmation).1 hkind).1
  | isNetworkSwitchRequest =>
    simpa [MethodClass.isQueued] using .inr ((classify_eq_iff .isNetworkSwitchRequest).1 hkind)

/-- **Only what is listed matters**, not the order. -/
theorem classify_congr {d : Classifier}
    (hconfirmation : ∀ m, m ∈ c.confirmationMethods ↔ m ∈ d.confirmationMethods)
    (hswitch : ∀ m, m ∈ c.switchMethods ↔ m ∈ d.switchMethods) : c.classify = d.classify := by
  funext m
  simp only [classify, List.contains_iff_mem, hconfirmation, hswitch]

/-- **Where no method is in both lists it does not matter which is looked through first.** -/
theorem classify_eq_confirmationFirst (h : c.confirmationMethods.Disjoint c.switchMethods)
    (m : String) :
    c.classify m = c.classifyConfirmationFirst m := by
  by_cases hswitch : m ∈ c.switchMethods
  · have hconfirmation : m ∉ c.confirmationMethods := fun hmem => h hmem hswitch
    simp [classify, classifyConfirmationFirst, hswitch, hconfirmation]
  · simp [classify, classifyConfirmationFirst, hswitch]

/-- **Valid settings classify without ambiguity.**  The class of a method says which list it
is in, and no method is in both.  So the two lists may be looked through in the other order,
and each may be ordered in any way: every method keeps its class.  What has not the form of
a method name is never queued. -/
theorem unambiguous {s : Settings} (h : s.validate = .ok ()) :
    (∀ m, ((ofSettings s.queue).classify m = .isNetworkSwitchRequest ↔ m ∈ s.queue.switchMethods) ∧
      ((ofSettings s.queue).classify m = .requiresConfirmation ↔ m ∈ s.queue.confirmationMethods) ∧
      ((ofSettings s.queue).classify m = .bypass ↔
        m ∉ s.queue.confirmationMethods ∧ m ∉ s.queue.switchMethods) ∧
      ¬ (m ∈ s.queue.confirmationMethods ∧ m ∈ s.queue.switchMethods) ∧
      (ofSettings s.queue).classify m = (ofSettings s.queue).classifyConfirmationFirst m ∧
      (¬ MethodForm m → ((ofSettings s.queue).classify m).isQueued = false)) ∧
    ∀ confirmation switch, confirmation.Perm s.queue.confirmationMethods →
      switch.Perm s.queue.switchMethods →
      (ofSettings { s.queue with confirmationMethods := confirmation, switchMethods :=
        switch }).classify
        = (ofSettings s.queue).classify := by
  have hvalid := Settings.validate_eq_ok_iff.1 h
  have hdisjoint : s.queue.confirmationMethods.Disjoint s.queue.switchMethods :=
    (List.nodup_append'.1 hvalid.once).2.2
  refine ⟨fun m =>
    ⟨classify_eq_iff .isNetworkSwitchRequest, ?_, classify_eq_iff .bypass, ?_, ?_, ?_⟩, ?_⟩
  · rw [classify_eq_iff .requiresConfirmation]
    exact and_iff_left_of_imp fun hmem => hdisjoint hmem
  · exact fun hboth => hdisjoint hboth.1 hboth.2
  · exact classify_eq_confirmationFirst hdisjoint m
  · intro hform
    rw [← Bool.not_eq_true, isQueued_classify_iff]
    exact fun hlisted => hform (hvalid.formed m (List.mem_append.2 hlisted))
  · intro confirmation switch hconfirmation hswitch
    exact classify_congr (fun _ => hconfirmation.mem_iff) fun _ => hswitch.mem_iff

/-- The settings of a wallet that also confirms permissions, and knows a second way to
switch. -/
def extended : Settings :=
  ⟨⟨true, ["eth_sign", "wallet_grantPermissions"],
    ["wallet_switchEthereumChain", "wallet_useChain2"], some 30⟩, .default⟩

/-- With the lists the other way round each method keeps its class; what no method can be
called is not queued. -/
theorem unambiguous_extended :
    extended.validate = .ok () ∧
    (ofSettings extended.queue).classifyConfirmationFirst "wallet_useChain2"
      = .isNetworkSwitchRequest ∧
    ((ofSettings extended.queue).classify "eth_sign\n").isQueued = false ∧
    (ofSettings { extended.queue with
      confirmationMethods := ["wallet_grantPermissions", "eth_sign"]
      switchMethods := ["wallet_useChain2", "wallet_switchEthereumChain"] }).classify "eth_sign"
        = .requiresConfirmation := by
  have hvalid : extended.validate = .ok () := by decide +kernel
  obtain ⟨hclasses, hordered⟩ := unambiguous hvalid
  refine ⟨hvalid, ?_, ?_, ?_⟩
  · rw [← (hclasses "wallet_useChain2").2.2.2.2.1, (hclasses "wallet_useChain2").1]
    simp [extended]
  · exact (hclasses "eth_sign\n").2.2.2.2.2 (by decide +kernel)
  · rw [hordered _ _ (List.Perm.swap _ _ _) (List.Perm.swap _ _ _), (hclasses "eth_sign").2.1]
    simp [extended]

end Classifier

end WalletGate
