import WalletGate.Coordination.Program

/-!
# The stage: a host for scripted programs

A **script** is a short list of actions that plays a part in a wallet: a job of the queue, a
handler of the pipeline, a collaborator of the gate.  The **stage** is the host state
scripts share.  It records what happens as lines of text, holds the gates scripts wait at —
opened from outside, and open for good — and hands out prepared answers, one after another,
the last one for ever.
-/

namespace WalletGate

/-- A prepared answer of a part: after waiting at a gate, if it names one, it is a fault or
all is well. -/
structure PreparedAnswer where
  gate : Option String
  fault : Option Fault
  deriving DecidableEq, Repr, Inhabited

/-- The host state that scripts share. -/
structure Stage where
  /-- The gates that are open. -/
  opened : List String
  /-- What was recorded, latest first. -/
  lines : List String
  /-- The answers still to be given, by part. -/
  prepared : List (String × List PreparedAnswer)
  deriving Repr

namespace Stage

/-- A stage on which nothing has happened. -/
def empty : Stage := ⟨[], [], []⟩

/-- Opens a gate. -/
def openGate (gate : String) (s : Stage) : Stage := { s with opened := gate :: s.opened }

/-- Records a line. -/
def record (line : String) (s : Stage) : Stage := { s with lines := line :: s.lines }

/-- The lines recorded so far, earliest first, are taken away. -/
def takeLines (s : Stage) : List String × Stage := (s.lines.reverse, { s with lines := [] })

/-- A part's answers after one was given: the last one stays. -/
def used : List PreparedAnswer → List PreparedAnswer
  | [] => []
  | [a] => [a]
  | _ :: rest => rest

/-- The next answer of a part; a part without prepared answers answers well. -/
def nextAnswer (part : String) (s : Stage) : PreparedAnswer × Stage :=
  match s.prepared.lookup part with
  | some (a :: rest) =>
    (a, { s with
      prepared := s.prepared.map fun p => if p.1 = part then (p.1, used (a :: rest)) else p })
  | _ => (⟨none, none⟩, s)

end Stage

namespace Script

/-- Records a line. -/
def record (line : String) : Program Stage Unit :=
  .hosted fun s => ((), s.record line)

/-- Waits at a gate. -/
def waitAt (gate : String) : Program Stage Unit :=
  .awaiting fun s => if s.opened.contains gate then some ((), s) else none

/-- Plays a part once: a line is recorded, and the part's next answer is given. -/
def play (part line : String) : Program Stage (Except Fault Unit) :=
  (Program.hosted fun s => (s.record line).nextAnswer part).bind fun a =>
    let finish : Program Stage (Except Fault Unit) :=
      .done (match a.fault with
        | some fault => .error fault
        | none => .ok ())
    match a.gate with
    | some gate => (waitAt gate).bind fun _ => finish
    | none => finish

end Script

end WalletGate
