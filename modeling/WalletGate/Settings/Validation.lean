import WalletGate.Fault
import WalletGate.Settings.Basic

/-!
# Which settings are consistent

Settings are **valid** when every listed method has the form of a method name and is listed
once in the two lists together, the approval timeout is not zero, the custom clients have
distinct ids that are neither empty nor taken by a built-in network, and the selected client
is built-in or declared.

Validation walks the settings in one order — confirmation methods, switch methods, timeout,
custom clients, selection — and names the first thing that is wrong (`Flaw`).

* `isMethodName` — a letter, then letters, digits and underscores;
* `Settings.validate` — the first flaw, if there is one.
-/

namespace WalletGate

/-- An ASCII letter. -/
def isLetter (c : Char) : Bool :=
  ('A' ≤ c && c ≤ 'Z') || ('a' ≤ c && c ≤ 'z')

/-- A character a method name may go on with. -/
def isNameChar (c : Char) : Bool :=
  isLetter c || ('0' ≤ c && c ≤ '9') || c = '_'

/-- The text has the form of a method name. -/
def isMethodName (name : String) : Bool :=
  match name.toList with
  | [] => false
  | c :: rest => isLetter c && rest.all isNameChar

/-- What is wrong with settings. -/
inductive Flaw where
  | badMethodName (method list : String)
  | repeatedMethod (method list : String)
  | zeroTimeout
  | emptyCustomId
  | shadowsBuiltIn (id : ClientId)
  | repeatedCustomId (id : ClientId)
  | unknownSelection (id : ClientId)
  deriving DecidableEq, Repr

/-- The wording of a flaw. -/
def Flaw.message : Flaw → String
  | badMethodName method list => "invalid method name '" ++ method ++ "' in '" ++ list ++ "'"
  | repeatedMethod method list =>
    "duplicate method '" ++ method ++ "' found in '" ++ list ++ "' (already classified)"
  | zeroTimeout => "approval_timeout_secs must be positive (got 0)"
  | emptyCustomId => "custom network id must not be empty"
  | shadowsBuiltIn id => "custom network '" ++ id.name ++ "' shadows a built-in network"
  | repeatedCustomId id => "duplicate custom network '" ++ id.name ++ "'"
  | unknownSelection id =>
    "selected network '" ++ id.name ++ "' is neither built-in nor a declared custom network"

/-- A flaw is a fault of the settings. -/
def Flaw.toFault (flaw : Flaw) : Fault := .config flaw.message

/-- Walks a list of methods, the ones seen before in `seen`; gives all seen at the end. -/
def checkMethods (list : String) : List String → List String → Except Flaw (List String)
  | seen, [] => .ok seen
  | seen, m :: rest =>
    if !isMethodName m then .error (.badMethodName m list)
    else if seen.contains m then .error (.repeatedMethod m list)
    else checkMethods list (m :: seen) rest

/-- The queue's settings have no flaw. -/
def QueueSettings.check (q : QueueSettings) : Except Flaw Unit := do
  let seen ← checkMethods "confirmation_methods" [] q.confirmationMethods
  let _ ← checkMethods "network_switch_methods" seen q.switchMethods
  if q.approvalTimeout = some 0 then .error .zeroTimeout else .ok ()

/-- Walks the custom clients, the ids seen before in `seen`; gives all seen at the end. -/
def checkCustom : List ClientId → List CustomNetwork → Except Flaw (List ClientId)
  | seen, [] => .ok seen
  | seen, c :: rest =>
    if c.id.name = "" then .error .emptyCustomId
    else if (BuiltIn.ofClientId? c.id).isSome then .error (.shadowsBuiltIn c.id)
    else if seen.contains c.id then .error (.repeatedCustomId c.id)
    else checkCustom (c.id :: seen) rest

/-- The networks' settings have no flaw. -/
def NetworkSettings.check (n : NetworkSettings) : Except Flaw Unit := do
  let seen ← checkCustom [] n.custom
  if (BuiltIn.ofClientId? n.selected).isSome || seen.contains n.selected then .ok ()
  else .error (.unknownSelection n.selected)

/-- The settings have no flaw. -/
def Settings.check (s : Settings) : Except Flaw Unit := do
  s.queue.check
  s.networks.check

/-- The settings are consistent, or the fault that names their first flaw. -/
def Settings.validate (s : Settings) : Except Fault Unit :=
  s.check.mapError Flaw.toFault

end WalletGate
