import WalletGate.ChainId

/-!
# Network clients and origins

A **network client** is an endpoint the wallet can send requests through; it is named by a
`ClientId` and serves one chain.  An **origin** is the caller a request comes from,
for instance a site's address.

Both names are plain texts, kept apart by their types.
-/

namespace WalletGate

/-- The name of a network client. -/
structure ClientId where
  name : String
  deriving DecidableEq, Repr, Inhabited

/-- The caller a request comes from. -/
structure Origin where
  name : String
  deriving DecidableEq, Repr, Inhabited

/-- Origins and client ids are ordered by their texts, character by character. -/
instance : LT Origin := ⟨fun a b => a.name < b.name⟩

instance (a b : Origin) : Decidable (a < b) := inferInstanceAs (Decidable (a.name < b.name))

/-- Origins in the order of their texts. -/
def Origin.sort (origins : List Origin) : List Origin :=
  origins.mergeSort fun a b => !decide (b < a)

/-- What is known about a network client. -/
structure ClientConfig where
  chainId : ChainId
  rpcUrl : Option String
  ticker : Option String
  deriving DecidableEq, Repr, Inhabited

end WalletGate
