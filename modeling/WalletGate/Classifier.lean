import WalletGate.Json.Reader
import WalletGate.Settings.Basic

/-!
# Which methods are queued

A method falls into one of three **classes**.  Most bypass the admission queue.  Those that
need the user's confirmation are queued and run on the network they were issued for.  Those
that change the network themselves are queued too, but no network is asked for first.

A classifier is two lists of methods; one that stands in both counts as changing the network.
-/

namespace WalletGate

/-- How requests for a method are admitted. -/
inductive MethodClass where
  /-- At once, outside of the queue. -/
  | bypass
  /-- Through the queue, on the network the request was issued for. -/
  | requiresConfirmation
  /-- Through the queue, on whatever network is selected. -/
  | isNetworkSwitchRequest
  deriving DecidableEq, Repr, Inhabited

namespace MethodClass

/-- The written form of a class. -/
def name : MethodClass → String
  | bypass => "Bypass"
  | requiresConfirmation => "RequiresConfirmation"
  | isNetworkSwitchRequest => "IsNetworkSwitchRequest"

/-- The classes by their written forms. -/
def names : List (String × MethodClass) :=
  [bypass, requiresConfirmation, isNetworkSwitchRequest].map fun c => (c.name, c)

/-- Reads a class. -/
def read : Json.Spot → Reading.Result MethodClass :=
  Json.readVariant names

/-- Requests of this class go through the queue. -/
def isQueued : MethodClass → Bool
  | bypass => false
  | requiresConfirmation | isNetworkSwitchRequest => true

end MethodClass

/-- The two lists that decide a method's class. -/
structure Classifier where
  confirmationMethods : List String
  switchMethods : List String
  deriving DecidableEq, Repr

namespace Classifier

/-- The classifier of the queue's settings. -/
def ofSettings (q : QueueSettings) : Classifier :=
  ⟨q.confirmationMethods, q.switchMethods⟩

/-- The classifier when nobody wrote any settings. -/
def default : Classifier := ofSettings .default

/-- The class of a method. -/
def classify (c : Classifier) (method : String) : MethodClass :=
  if c.switchMethods.contains method then .isNetworkSwitchRequest
  else if c.confirmationMethods.contains method then .requiresConfirmation
  else .bypass

end Classifier

end WalletGate
