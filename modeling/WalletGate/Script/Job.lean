import WalletGate.Script.Stage

/-!
# Scripted jobs

A scripted job of a queue records its start, does its actions in order, and records its end.
It ends with a value or with a fault; a job that breaks down records no end.
-/

namespace WalletGate.Script

/-- An action of a scripted job. -/
inductive JobAction where
  /-- Waits at a gate. -/
  | gate (name : String)
  /-- Records a text. -/
  | say (text : String)
  /-- Records the length of the queue. -/
  | queueLength
  /-- Sets the job's value. -/
  | value (v : Json)
  /-- Ends the job with a fault. -/
  | fail (fault : Fault)
  /-- Breaks down. -/
  | panic (text : String)
  /-- Runs another job of the same queue and waits for it. -/
  | nested (body : List JobAction)

/-- What a job ends with. -/
abbrev JobResult := Except Fault Json

/-- Records the end of a job. -/
def endJob (name : String) (result : JobResult) : Program Stage JobResult :=
  (record ("end " ++ name)).bind fun _ => .done result

mutual

/-- Does one action of a job and goes on with its value, or ends the job. -/
def doJobAction (queue : Nat) (name : String) (value : Json) :
    JobAction → (Json → Program Stage JobResult) → Program Stage JobResult
  | .gate gate, next => (waitAt gate).bind fun _ => next value
  | .say text, next => (record (name ++ ": " ++ text)).bind fun _ => next value
  | .queueLength, next =>
    (Program.perform (.queueLength queue)).bind fun n =>
      (record (name ++ ": len " ++ toString n)).bind fun _ => next value
  | .value v, next => next v
  | .fail fault, _ => endJob name (.error fault)
  | .panic text, _ => .panic text
  | .nested body, next =>
    let inner := name ++ "/"
    .enqueue queue ((record ("start " ++ inner)).bind fun _ => doJobActions queue inner .null body)
      fun _ => next value

/-- Does the actions of a job in order. -/
def doJobActions (queue : Nat) (name : String) (value : Json) :
    List JobAction → Program Stage JobResult
  | [] => endJob name (.ok value)
  | a :: more => doJobAction queue name value a fun value => doJobActions queue name value more

end

/-- A scripted job, submitted to a queue. -/
def job (queue : Nat) (name : String) (body : List JobAction) : Program Stage JobResult :=
  .queued queue ((record ("start " ++ name)).bind fun _ => doJobActions queue name .null body)

end WalletGate.Script
