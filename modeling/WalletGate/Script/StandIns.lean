import WalletGate.Gate
import WalletGate.Script.Stage

/-!
# Scripted collaborators

A gate may be given stand-ins for its collaborators.  Each call to one of them records a
line and takes the next prepared answer of its part.  The selected chain and the chains of
custom clients are fixed.
-/

namespace WalletGate.Script

/-- What the stand-ins know. -/
structure Cast where
  /-- The text the selected chain is read from. -/
  selected : String
  custom : ClientId → Option ChainId

/-- The stand-ins as collaborators. -/
def Cast.collaborators (cast : Cast) (isQueueing : Program Stage Bool) : Collaborators Stage where
  isQueueing := isQueueing
  clientConfig id :=
    (play "lookup" ("lookup " ++ id.name)).bind fun
      | .error fault => .done (.error fault)
      | .ok () =>
        match cast.custom id with
        | some chain => .done (.ok ⟨chain, none, none⟩)
        | none => .done (.error (Registry.unknownClient id))
  selectedChain :=
    (play "select" "selected").bind fun
      | .error fault => .done (.error fault)
      | .ok () => .done (ChainId.parse cast.selected)
  approve request :=
    play "approve"
      ("approval " ++ request.origin.name ++ " " ++ request.proposal.fromChain.display ++ " -> "
      ++ request.proposal.toChain.display ++ " " ++ request.proposal.toClient.name)
  switchToBuiltIn network := play "switch" ("switch built-in " ++ network.name)
  switchToCustom id := play "switch" ("switch custom " ++ id.name)
  bindOrigin origin id := play "bind" ("bind " ++ origin.name ++ " " ++ id.name)

end WalletGate.Script
