/-!
# Faults: every way a request can fail

A **fault** names its cause.  Its wording (`Fault.message`) and the number a caller is told
(`Fault.code`) are functions of the cause, fixed here once for the whole library.

The codes follow the JSON-RPC convention: a request that lacks a field is an invalid request, a
declined approval is the user's own refusal, an unanswered method is unknown, and all else is an
internal failure.
-/

namespace WalletGate

/-- Why something could not be done.  All but the two missing-field faults carry a detail. -/
inductive Fault where
  /-- The request names no origin. -/
  | missingOrigin
  /-- The request names no network client. -/
  | missingNetworkClientId
  /-- The user declined, with the reason given. -/
  | approvalDeclined (reason : String)
  /-- The approval desk failed for another cause than a decline. -/
  | approval (detail : String)
  /-- A network client could not be found. -/
  | networkLookup (detail : String)
  /-- The selection or an origin's binding could not be changed. -/
  | switchActuation (detail : String)
  /-- Nobody answered in time. -/
  | timeout (detail : String)
  /-- No handler answered the request. -/
  | methodNotFound (method : String)
  /-- The settings could not be loaded or are inconsistent. -/
  | config (detail : String)
  /-- A text could not be read as the value it should hold. -/
  | serialization (detail : String)
  /-- Anything else. -/
  | internal (detail : String)
  deriving DecidableEq, Repr, Inhabited

namespace Fault

/-- The code of a request that is not a valid one. -/
def invalidRequestCode : Int := -32600

/-- The code of a method nobody answers. -/
def methodNotFoundCode : Int := -32601

/-- The code of a failure inside the wallet. -/
def internalErrorCode : Int := -32603

/-- The code of a request the user refused. -/
def userRejectedCode : Int := 4001

/-- The wording of a fault. -/
def message : Fault → String
  | missingOrigin => "Request object is lacking an 'origin'"
  | missingNetworkClientId => "Request object is lacking a 'networkClientId'"
  | approvalDeclined reason => "user rejected the request: " ++ reason
  | approval detail => "approval error: " ++ detail
  | networkLookup detail => "network lookup error: " ++ detail
  | switchActuation detail => "network switch error: " ++ detail
  | timeout detail => "timeout: " ++ detail
  | methodNotFound method => "method not found: " ++ method
  | config detail => "config error: " ++ detail
  | serialization detail => "serialization error: " ++ detail
  | internal detail => "internal error: " ++ detail

/-- The number a caller is told for a fault. -/
def code : Fault → Int
  | missingOrigin | missingNetworkClientId => invalidRequestCode
  | approvalDeclined _ => userRejectedCode
  | methodNotFound _ => methodNotFoundCode
  | approval _ | networkLookup _ | switchActuation _ | timeout _ | config _ | serialization _
  | internal _ => internalErrorCode

end Fault

end WalletGate
