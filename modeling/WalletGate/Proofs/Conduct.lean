import WalletGate.Gate
import WalletGate.Proofs.Beside

/-!
# What a handler can do

To the pipeline a handler is a function of its request, its response and the handlers behind
it, and could do anything with them.  The handlers of a wallet are meant to do less: they
look at the request and the response that all of them share, write into them, and hand them
on.  A **conduct** is such a handler, written out step by step.  There is no step that
changes the id of the response.  Everything else is open: each step may depend on all that
the world answered before and on what the handlers behind have left, a conduct may hand on
any number of times, and it may end well or with a fault before that, between or behind it.
It may also hand on a request and a response of its own, and look at what comes back;
nothing is written into the shared ones then.

What happens to a request on its way is told by **incidents**, in the order in which they
happen.  A pipeline may keep a **journal** of them beside the host: each handler puts down
what it does.  Apart from that it is the same pipeline and runs in the same way.  What
stands in the journal, at the end or at any moment before, is a passage through the
conducts.

* `Conduct.toHandler` — a conduct as a handler;
* `Conduct.journaled`, `Pipeline.journaled` — the same handlers, with a journal;
* `Conduct.Goes`, `Pipeline.Passes` — how far a request has got, through one conduct or
  several, and what happened;
* `Pipeline.tells_dispatch` — what is put down in the journal is what passes through.
-/

namespace WalletGate

variable {η α β : Type}

/-- Something a handler writes. -/
inductive Write where
  /-- Another request in place of the present one, its id included. -/
  | request (request : Request)
  /-- A result, or that there is none. -/
  | result (value : Option Json)
  /-- An error, or that there is none. -/
  | error (value : Option RpcError)
  | version (text : String)

/-- The request behind a write. -/
def Write.onRequest : Write → Request → Request
  | request new, _ => new
  | _, old => old

/-- The response behind a write. -/
def Write.onResponse : Write → Response → Response
  | request _, s => s
  | result value, s => { s with result := value }
  | error value, s => { s with error := value }
  | version text, s => { s with jsonrpc := text }

/-- A handler, step by step. -/
inductive Conduct (η : Type) : Type 1 where
  /-- Ends, well or with a fault. -/
  | done (outcome : Except Fault Unit)
  /-- Runs a program and goes on with its value. -/
  | run {β : Type} (p : Program η β) (next : β → Conduct η)
  /-- Looks at the request and the response. -/
  | look (next : Request → Response → Conduct η)
  /-- Writes into the request or the response. -/
  | write (w : Write) (next : Conduct η)
  /-- Hands the request and the response on and goes on with how that ended. -/
  | handOn (next : Except Fault Unit → Conduct η)
  /-- Hands on a request and a response of its own and goes on with what came back. -/
  | handOnOwn (request : Request) (response : Response) (next : Turn → Conduct η)
  /-- Does something while holding a queue's slot and goes on with how that ended. -/
  | enqueue (queue : Nat) (job : Conduct η) (next : Except Fault Unit → Conduct η)

/-- A conduct as a handler. -/
def Conduct.toHandler : Conduct η → Handler η
  | done outcome, q, s, _ => .done ⟨outcome, q, s⟩
  | run p next, q, s, rest => p.bind fun b => (next b).toHandler q s rest
  | look next, q, s, rest => (next q s).toHandler q s rest
  | write w next, q, s, rest => next.toHandler (w.onRequest q) (w.onResponse s) rest
  | handOn next, q, s, rest =>
    (rest q s).bind fun turn => (next turn.outcome).toHandler turn.request turn.response rest
  | handOnOwn request response next, q, s, rest =>
    (rest request response).bind fun turn => (next turn).toHandler q s rest
  | enqueue queue job next, q, s, rest =>
    .enqueue queue (job.toHandler q s rest) fun turn =>
      (next turn.outcome).toHandler turn.request turn.response rest

/-! ### Incidents and the journal -/

/-- Something that happens to a request on its way through handlers. -/
inductive Incident where
  /-- The handler with this number was entered, with this request. -/
  | entered (k : Nat) (request : Request)
  /-- The handler with this number handed on. -/
  | handedOn (k : Nat)
  /-- Something was written into the request or the response. -/
  | wrote (w : Write)
  /-- Something was written into a request or a response that one of the handlers has made for
  itself. -/
  | tried (w : Write)
  /-- The handler with this number came to its end. -/
  | left (k : Nat) (outcome : Except Fault Unit)

/-- An incident as it is told behind a handler that handed on a request and a response of
its own. -/
def Incident.aside : Incident → Incident
  | wrote w => tried w
  | incident => incident

theorem Incident.aside_aside (d : Incident) : d.aside.aside = d.aside := by cases d <;> rfl

/-- What is put down on the way of a request. -/
structure Journal where
  /-- How many handlers have handed on something of their own and wait for it, one behind the
  other. -/
  apart : Nat
  /-- What has happened, in order. -/
  incidents : List Incident

namespace Journal

/-- Nothing has happened. -/
def blank : Journal := ⟨0, []⟩

/-- An incident as it is to be put down now. -/
def worded (j : Journal) (d : Incident) : Incident := if j.apart = 0 then d else d.aside

/-- Puts down what happens. -/
def tell (d : Incident) (j : Journal) : Journal :=
  { j with incidents := j.incidents ++ [j.worded d] }

/-- A handler hands on something of its own. -/
def setApart (j : Journal) : Journal := { j with apart := j.apart + 1 }

/-- It has got it back. -/
def setBack (j : Journal) : Journal := { j with apart := j.apart - 1 }

/-- The journal when all this has happened. -/
def tellAll (log : List Incident) (j : Journal) : Journal :=
  { j with incidents := j.incidents ++ log.map j.worded }

@[simp] theorem tellAll_nil (j : Journal) : j.tellAll [] = j := by simp [tellAll]

theorem tellAll_append (first second : List Incident) (j : Journal) :
    j.tellAll (first ++ second) = (j.tellAll first).tellAll second := by
  simp only [tellAll, List.map_append, List.append_assoc]
  rfl

theorem incidents_blank (log : List Incident) : (blank.tellAll log).incidents = log := by
  have hworded : blank.worded = id := rfl
  rw [tellAll, hworded, List.map_id]
  rfl

/-- What happens apart is told aside. -/
theorem incidents_setApart (log : List Incident) (j : Journal) :
    (j.setApart.tellAll log).incidents = (j.tellAll (log.map Incident.aside)).incidents := by
  have haside : ∀ d, j.setApart.worded d = j.worded d.aside := by
    intro d
    unfold worded setApart
    simp [Incident.aside_aside]
  simp only [tellAll, List.map_map]
  exact congrArg (j.incidents ++ ·) (List.map_congr_left fun d _ => haside d)

/-- And then the journal goes on as before. -/
theorem setBack_setApart (log : List Incident) (j : Journal) :
    (j.setApart.tellAll log).setBack = j.tellAll (log.map Incident.aside) := by
  have hincidents := incidents_setApart log j
  calc (j.setApart.tellAll log).setBack = ⟨j.apart, (j.setApart.tellAll log).incidents⟩ := rfl
    _ = j.tellAll (log.map Incident.aside) := by rw [hincidents]; rfl

end Journal

/-- The same conduct, with a journal in which it puts down that it hands on and what it
writes. -/
def Conduct.journaled (k : Nat) : Conduct η → Conduct (η × Journal)
  | done outcome => done outcome
  | run p next => run p.beside fun b => (next b).journaled k
  | look next => look fun q s => (next q s).journaled k
  | write w next => run (.keep (Journal.tell (.wrote w))) fun _ => write w (next.journaled k)
  | handOn next =>
    run (.keep (Journal.tell (.handedOn k))) fun _ => handOn fun outcome =>
      (next outcome).journaled k
  | handOnOwn request response next =>
    run (.keep (Journal.tell (.handedOn k))) fun _ => run (.keep Journal.setApart) fun _ =>
      handOnOwn request response fun turn => run (.keep Journal.setBack) fun _ =>
        (next turn).journaled k
  | enqueue queue job next =>
    enqueue queue (job.journaled k) fun outcome => (next outcome).journaled k

/-- The same handler, with a journal in which is put down that it is entered and how it ends. -/
def Handler.journaled (k : Nat) (handler : Handler (η × Journal)) : Handler (η × Journal) :=
  fun request response rest =>
    (Program.keep (Journal.tell (.entered k request))).bind fun _ =>
      (handler request response rest).bind fun turn =>
        (Program.keep (Journal.tell (.left k turn.outcome))).bind fun _ => .done turn

/-- These conducts as handlers with a journal; the first has the given number. -/
def Pipeline.journaled : Nat → List (Conduct η) → List (Handler (η × Journal))
  | _, [] => []
  | k, c :: cs => Handler.journaled k (c.journaled k).toHandler :: journaled (k + 1) cs

/-- The journal has gone on with what is `told` of something under way. -/
def Journal.Reaches (told : Option α → List Incident → Prop) (j s : Journal) : Prop :=
  ∃ log, told none log ∧ s.incidents = (j.tellAll log).incidents

/-- The journal has gone on with what is `told` of something that has ended with a value. -/
def Journal.Closes (told : Option α → List Incident → Prop) (j : Journal) (a : α)
    (s : Journal) : Prop :=
  ∃ log, told (some a) log ∧ s = j.tellAll log

/-- A program, and the same one with a journal: whatever the journal is when it begins, it
goes on with what is `told`. -/
def Program.Tells (told : Option α → List Incident → Prop) (p : Program η α)
    (p' : Program (η × Journal) α) : Prop :=
  ∀ j : Journal, p.Beside (j.Reaches told) p' j (j.Closes told)

namespace Program.Tells

variable {told : Option β → List Incident → Prop} {first : Option α → List Incident → Prop}
  {second : α → Option β → List Incident → Prop} {p : Program η α} {p' : Program (η × Journal) α}
  {f : α → Program η β} {f' : α → Program (η × Journal) β}

/-- What is told from some point on is told behind what happened before. -/
theorem onward {q : Program η β} {q' : Program (η × Journal) β}
    {later : Option β → List Incident → Prop} (h : q.Tells later q') (before : List Incident)
    (hon : ∀ r log, later r log → told r (before ++ log)) (j : Journal) :
    q.Beside (j.Reaches told) q' (j.tellAll before) (j.Closes told) := by
  refine (h (j.tellAll before)).mono ?_ ?_
  · rintro s ⟨log, hlog, hs⟩
    exact ⟨before ++ log, hon none log hlog, by rw [hs, Journal.tellAll_append]⟩
  · rintro b s ⟨log, hlog, rfl⟩
    exact ⟨before ++ log, hon (some b) log hlog, by rw [Journal.tellAll_append]⟩

/-- More may be told. -/
theorem mono {q : Program η β} {q' : Program (η × Journal) β}
    {later : Option β → List Incident → Prop} (h : q.Tells later q')
    (hon : ∀ r log, later r log → told r log) : q.Tells told q' := fun j => by
  have honward := h.onward [] hon j
  rwa [Journal.tellAll_nil] at honward

theorem done {b : β} (h : told (some b) []) : (Program.done b : Program η β).Tells told (.done b) :=
  fun j => .done ⟨[], h, j.tellAll_nil.symm⟩

/-- Nothing is told of a program that keeps no journal. -/
theorem of_beside (hpause : first none []) (hends : ∀ a, p.Returns a → first (some a) []) :
    p.Tells first p.beside := by
  intro j
  refine (Beside.of_beside ⟨[], hpause, by rw [j.tellAll_nil]⟩ p).mono (fun _ h => h) ?_
  rintro a _ ⟨rfl, hreturns⟩
  exact ⟨[], hends a hreturns, (Journal.tellAll_nil _).symm⟩

/-- What is told of a composed program is told of its parts, one after the other. -/
theorem bind (h : p.Tells first p') (hf : ∀ a, (f a).Tells (second a) (f' a))
    (hpause : ∀ log, first none log → told none log)
    (hon : ∀ a before, first (some a) before → ∀ r log, second a r log → told r (before ++ log)) :
    (p.bind f).Tells told (p'.bind f') := by
  intro j
  refine ((h j).mono ?_ fun _ _ h => h).bind ?_
  · rintro s ⟨log, hlog, hs⟩
    exact ⟨log, hpause log hlog, hs⟩
  · rintro a _ ⟨before, hbefore, rfl⟩
    exact (hf a).onward before (hon a before hbefore) j

/-- Something happens first. -/
theorem tell (d : Incident) {q : Program η β} {q' : Unit → Program (η × Journal) β}
    (h : q.Tells (fun r log => told r (d :: log)) (q' ())) :
    q.Tells told ((keep (Journal.tell d)).bind q') :=
  fun j => .keep (h.onward [d] (fun _ _ hlog => hlog) j)

/-- Something is done apart. -/
theorem apart (h : p.Tells first p') (hf : ∀ a, (f a).Tells (second a) (f' a))
    (hpause : ∀ log, first none log → told none (log.map Incident.aside))
    (hon : ∀ a before, first (some a) before → ∀ r log, second a r log →
      told r (before.map Incident.aside ++ log)) :
    (p.bind f).Tells told ((keep Journal.setApart).bind fun _ => p'.bind fun a =>
      (keep Journal.setBack).bind fun _ => f' a) := by
  intro j
  refine .keep (((h j.setApart).mono ?_ fun _ _ h => h).bind ?_)
  · rintro s ⟨log, hlog, hs⟩
    exact ⟨log.map Incident.aside, hpause log hlog, by rw [hs, Journal.incidents_setApart]⟩
  · rintro a _ ⟨before, hbefore, rfl⟩
    refine .keep ?_
    rw [Journal.setBack_setApart]
    exact (hf a).onward _ (hon a before hbefore) j

/-- Something is done inside a slot. -/
theorem enqueue {queue : Nat} (h : p.Tells first p') (hf : ∀ a, (f a).Tells (second a) (f' a))
    (hwaits : told none []) (hpause : ∀ log, first none log → told none log)
    (hon : ∀ a before, first (some a) before → ∀ r log, second a r log → told r (before ++ log)) :
    (Program.enqueue queue p f).Tells told (.enqueue queue p' f') := by
  intro j
  refine .enqueue ⟨[], hwaits, by rw [j.tellAll_nil]⟩ ((h j).mono ?_ fun _ _ h => h) ?_
  · rintro s ⟨log, hlog, hs⟩
    exact ⟨log, hpause log hlog, hs⟩
  · rintro a _ ⟨before, hbefore, rfl⟩
    exact (hf a).onward before (hon a before hbefore) j

end Program.Tells

/-! ### The way of a request -/

/-- A request goes through a conduct.  The conduct has the number `k`, and `behind` tells
what can come of it if a request is handed on.  There is a turn if the conduct has come to
its end; without one it is under way, or was given up there.  The incidents are all that
have happened so far, in it and behind it. -/
inductive Conduct.Goes (k : Nat)
    (behind : Request → Response → Option Turn → List Incident → Prop) :
    Conduct η → Request → Response → Option Turn → List Incident → Prop where
  /-- It has got this far. -/
  | pause (c : Conduct η) (q : Request) (s : Response) : Goes k behind c q s none []
  | done (outcome : Except Fault Unit) (q : Request) (s : Response) :
    Goes k behind (.done outcome) q s (some ⟨outcome, q, s⟩) []
  | run {β : Type} {p : Program η β} {next : β → Conduct η} {q : Request} {s : Response}
    {r : Option Turn} {log : List Incident} (b : β) :
    p.Returns b → Goes k behind (next b) q s r log → Goes k behind (.run p next) q s r log
  | look {next : Request → Response → Conduct η} {q : Request} {s : Response} {r : Option Turn}
    {log : List Incident} :
    Goes k behind (next q s) q s r log → Goes k behind (.look next) q s r log
  | write {w : Write} {next : Conduct η} {q : Request} {s : Response} {r : Option Turn}
    {log : List Incident} :
    Goes k behind next (w.onRequest q) (w.onResponse s) r log →
    Goes k behind (.write w next) q s r (.wrote w :: log)
  | handOn {next : Except Fault Unit → Conduct η} {q : Request} {s : Response} {r : Option Turn}
    {inner log : List Incident} (turn : Turn) :
    behind q s (some turn) inner →
    Goes k behind (next turn.outcome) turn.request turn.response r log →
    Goes k behind (.handOn next) q s r (.handedOn k :: (inner ++ log))
  | handOnPause {next : Except Fault Unit → Conduct η} {q : Request} {s : Response}
    {inner : List Incident} :
    behind q s none inner → Goes k behind (.handOn next) q s none (.handedOn k :: inner)
  | handOnOwn {request : Request} {response : Response} {next : Turn → Conduct η} {q : Request}
    {s : Response} {r : Option Turn} {inner log : List Incident} (turn : Turn) :
    behind request response (some turn) inner → Goes k behind (next turn) q s r log →
    Goes k behind (.handOnOwn request response next) q s r
      (.handedOn k :: (inner.map Incident.aside ++ log))
  | handOnOwnPause {request : Request} {response : Response} {next : Turn → Conduct η} {q : Request}
    {s : Response} {inner : List Incident} :
    behind request response none inner →
    Goes k behind (.handOnOwn request response next) q s none
      (.handedOn k :: inner.map Incident.aside)
  | enqueue {queue : Nat} {job : Conduct η} {next : Except Fault Unit → Conduct η} {q : Request}
    {s : Response} {r : Option Turn} {inner log : List Incident} (turn : Turn) :
    Goes k behind job q s (some turn) inner →
    Goes k behind (next turn.outcome) turn.request turn.response r log →
    Goes k behind (.enqueue queue job next) q s r (inner ++ log)
  | enqueuePause {queue : Nat} {job : Conduct η} {next : Except Fault Unit → Conduct η}
    {q : Request} {s : Response} {inner : List Incident} :
    Goes k behind job q s none inner → Goes k behind (.enqueue queue job next) q s none inner

/-- What is put down when a handler has come to its end, or has not. -/
def Incident.leaving (k : Nat) : Option Turn → List Incident
  | some turn => [.left k turn.outcome]
  | none => []

/-- A request passes through conducts, the first of which has the given number. -/
def Pipeline.Passes :
    Nat → List (Conduct η) → Request → Response → Option Turn → List Incident → Prop
  | _, [], q, s, r, log => r = some (.well q s) ∧ log = []
  | k, c :: cs, q, s, r, log =>
    ∃ inner, log = .entered k q :: (inner ++ Incident.leaving k r) ∧
      c.Goes k (Passes (k + 1) cs) q s r inner

/-- **The journal of a conduct tells how a request goes through it**, if the journal of the
handlers behind does. -/
theorem Conduct.tells_toHandler {k : Nat}
    {behind : Request → Response → Option Turn → List Incident → Prop} {rest : Rest η}
    {rest' : Rest (η × Journal)} (hrest : ∀ q s, (rest q s).Tells (behind q s) (rest' q s))
    (c : Conduct η) (q : Request) (s : Response) :
    (c.toHandler q s rest).Tells (c.Goes k behind q s) ((c.journaled k).toHandler q s rest') := by
  induction c generalizing q s with
  | done outcome => exact .done (.done outcome q s)
  | run p next ih =>
    have hp : p.Tells (fun r log => log = [] ∧ ∀ b, r = some b → p.Returns b) p.beside :=
      .of_beside ⟨rfl, by simp⟩ fun b hb => ⟨rfl, fun _ heq => Option.some.inj heq ▸ hb⟩
    refine hp.bind (fun b => ih b q s) ?_ ?_
    · rintro _ ⟨rfl, -⟩
      exact .pause _ q s
    · rintro b _ ⟨rfl, hb⟩ r log hlog
      exact .run b (hb b rfl) hlog
  | look next ih => exact (ih q s q s).mono fun r log hlog => .look hlog
  | write w next ih => exact .tell (.wrote w) ((ih _ _).mono fun r log hlog => .write hlog)
  | handOn next ih =>
    refine .tell (.handedOn k) ((hrest q s).bind (fun turn => ih _ _ _) ?_ ?_)
    · exact fun log hlog => .handOnPause hlog
    · exact fun turn before hbefore r log hlog => .handOn turn hbefore hlog
  | handOnOwn request response next ih =>
    refine .tell (.handedOn k) ((hrest request response).apart (fun turn => ih turn q s) ?_ ?_)
    · exact fun log hlog => .handOnOwnPause hlog
    · exact fun turn before hbefore r log hlog => .handOnOwn turn hbefore hlog
  | enqueue queue job next ihjob ih =>
    refine (ihjob q s).enqueue (fun turn => ih _ _ _) (.pause _ q s) ?_ ?_
    · exact fun log hlog => .enqueuePause hlog
    · exact fun turn before hbefore r log hlog => .enqueue turn hbefore hlog

/-- A handler that is entered puts that down first, and how it ends last. -/
theorem Handler.tells_journaled {k : Nat} {q : Request} {s : Response} {handler : Handler η}
    {handler' : Handler (η × Journal)} {rest : Rest η} {rest' : Rest (η × Journal)}
    {goes : Option Turn → List Incident → Prop}
    (h : (handler q s rest).Tells goes (handler' q s rest')) :
    (handler q s rest).Tells
      (fun r log => ∃ inner, log = .entered k q :: (inner ++ Incident.leaving k r) ∧ goes r inner)
      (Handler.journaled k handler' q s rest') := by
  have hleft (turn : Turn) : (Program.done turn : Program η Turn).Tells
      (fun r log => r = some turn ∧ log = [.left k turn.outcome])
      ((Program.keep (Journal.tell (.left k turn.outcome))).bind fun _ => .done turn) :=
    .tell (.left k turn.outcome) (.done ⟨rfl, rfl⟩)
  have hends : ((handler q s rest).bind .done).Tells
      (fun r log => ∃ inner, log = inner ++ Incident.leaving k r ∧ goes r inner)
      ((handler' q s rest').bind fun turn =>
        (Program.keep (Journal.tell (.left k turn.outcome))).bind fun _ => .done turn) := by
    refine h.bind hleft ?_ ?_
    · exact fun log hlog => ⟨log, (List.append_nil log).symm, hlog⟩
    · rintro turn before hbefore r log ⟨rfl, rfl⟩
      exact ⟨before, rfl, hbefore⟩
  rw [Program.bind_self] at hends
  refine .tell (.entered k q) (hends.mono ?_)
  rintro r log ⟨inner, rfl, hgoes⟩
  exact ⟨inner, rfl, hgoes⟩

namespace Pipeline

/-- **The journal of a pipeline of conducts tells how a request passes through it.** -/
theorem tells_dispatch (cs : List (Conduct η)) (k : Nat) (q : Request) (s : Response) :
    (dispatch (cs.map Conduct.toHandler) q s).Tells (Passes k cs q s)
      (dispatch (journaled k cs) q s) := by
  induction cs generalizing k q s with
  | nil => exact .done ⟨rfl, rfl⟩
  | cons c cs ih => exact Handler.tells_journaled (c.tells_toHandler (ih (k + 1)) q s)

/-- What is told of a turn is told of the answer made of it. -/
theorem tells_handle (cs : List (Conduct η)) (request : Request) :
    (handle (cs.map Conduct.toHandler) request).Tells
      (fun r log => ∃ reached, Passes 0 cs request (.forRequest request) reached log ∧
        r = reached.map answer)
      (handle (journaled 0 cs) request) := by
  have hanswer (turn : Turn) : ((report turn).bind fun _ => .done (answer turn)).Tells
      (fun r log => r = some (answer turn) ∧ log = [])
      ((report turn).bind fun _ => .done (answer turn) : Program (η × Journal) Response) := by
    unfold report
    split
    · exact .done ⟨rfl, rfl⟩
    · exact fun j => .call fun _ => .done ⟨[], ⟨rfl, rfl⟩, j.tellAll_nil.symm⟩
  refine (tells_dispatch cs 0 request (.forRequest request)).bind hanswer ?_ ?_
  · exact fun log hlog => ⟨none, hlog, rfl⟩
  · rintro turn before hbefore r log ⟨rfl, rfl⟩
    exact ⟨some turn, by rwa [List.append_nil], rfl⟩

end Pipeline

end WalletGate
