import WalletGate.Proofs.Serial

/-!
# A request that fails leaves no trace

Two runs of a wallet serve the same queued requests in the same order, and the approvals
have the same outcomes, but that in the first run one more task takes part, at any place in
the order.  However that task ends — it is turned away or refused, it breaks down, it is
given up at any moment — if it has not changed the network then the others cannot tell that
it was there (`Episode.isolated`): each of them asks the same in both runs, and comes to the
same end if it is told the same.

Only where the user does not decide are two requesters never told the same.  A request whose
approval has timed out in both runs is refused in both, but each refusal names the approval
of its own run (`Wallet.Alike`, `Episode.undecided_differ`).

The argument goes along the roll of the first run.  The two runs leave the same registry
behind every task that is in both, because it finds the same registry in both
(`Wallet.Went.alike`); and the odd task leaves the registry as it found it
(`Wallet.Phase.effect_of_over`).
-/

namespace WalletGate

variable {η : Type}

/-! ### What is told -/

/-- The wait for an answer ended with a decision. -/
def Desk.Ending.isDecided : Desk.Ending → Bool
  | decided _ => true
  | _ => false

/-- What a requester makes of a decision is the same whatever it asked for. -/
theorem Reply.answer_of_isDecided {ending : Desk.Ending} (h : ending.isDecided = true)
    (first second : ApprovalRequest) (limit : Option Nat) :
    (Reply.mk first limit ending).answer = (Reply.mk second limit ending).answer := by
  cases ending with
  | decided verdict => cases verdict <;> rfl
  | dropped => simp [Desk.Ending.isDecided] at h
  | timedOut => simp [Desk.Ending.isDecided] at h

/-- Where the user has not decided the requester is refused. -/
theorem Reply.exists_fault {reply : Reply} (h : reply.ending.isDecided = false) :
    ∃ fault, reply.answer = .error fault := by
  obtain ⟨request, limit, ending⟩ := reply
  cases ending with
  | decided verdict => simp [Desk.Ending.isDecided] at h
  | dropped => exact ⟨_, rfl⟩
  | timedOut => exact ⟨_, rfl⟩

namespace Wallet

/-- The end of the task of a request that was refused. -/
def refused (request : Request) (fault : Fault) : TaskEnd Response :=
  endOf (.finished (.failed fault request (.forRequest request)))

/-- Two runs make the same of a request: the same end.  Where the user did not decide on its
approval in either, the request was refused in both, and each refusal names the approval of
its own run. -/
inductive Alike (request : Request) (first second : Story Response) : Prop
  | same (ended : first.ended = second.ended)
  | undecided {reply reply' : Reply} {fault fault' : Fault} (heard : first.heard = [reply])
    (heard' : second.heard = [reply']) (ending : reply.ending = reply'.ending)
    (limit : reply.limit = reply'.limit) (undecided : reply.ending.isDecided = false)
    (told : reply.answer = .error fault) (told' : reply'.answer = .error fault')
    (ended : first.ended = some (refused request fault))
    (ended' : second.ended = some (refused request fault'))

/-- **Equal answers give equal ends.** -/
theorem Alike.ended_eq {request : Request} {first second : Story Response}
    (h : Alike request first second) (hanswers : first.answers = second.answers) :
    first.ended = second.ended := by
  cases h with
  | same ended => exact ended
  | @undecided reply reply' fault fault' heard heard' _ _ _ told told' ended ended' =>
    obtain rfl : fault = fault' := by
      simpa [Story.answers, heard, heard', told, told'] using hanswers
    exact ended.trans ended'.symm

variable {W : Wallet η} {v : Visit η} {found now : Registry}

/-- What leaves the selection as it was leaves nothing. -/
theorem effect_of_kept {questions : List Question} {answers : List (Except Fault Unit)}
    {course : Course Turn} (h : (W.course v found).Comes questions answers course)
    (hkept : course.registry.selected = found.selected) :
    v.effect answers found = found := by
  rw [registry_of_comes h] at hkept
  rcases of_comes h with ⟨_, rfl, _⟩ | ⟨_, answer, _, hdiffers, _, rfl, _⟩
  · rfl
  · cases answer with
    | error fault => rfl
    | ok u =>
      -- the client that was asked for has another chain than the one selected
      have hclient : v.client = found.selected := hkept
      exact absurd (hclient ▸ found.selectedChain_eq.symm) hdiffers

/-- **A task that is over and did not change the network** left the registry as it found it. -/
theorem Phase.effect_of_over {s : Story Response} {begun : Prop}
    (h : W.Phase v found now s begun none)
    (hkept : s.switched = false) : v.effect s.answers found = found := by
  cases h with
  | gaveUp yet quiet ended dropped =>
    rw [quiet.answers_eq]
    rfl
  | completed turn went ended dropped => exact effect_of_kept went.comes (went.kept hkept)
  | cancelled turn comes kept ended dropped => exact effect_of_kept comes (kept hkept)

/-- **Two runs make the same of a request** that finds the same registry in both, and is
told the same if it asks. -/
theorem Went.alike {request : Request} {first second : Story Response} {e e' : TaskEnd Turn}
    {r r' : Registry} (hv : W.visit? request = some v) (h : W.Went v found first e r)
    (h' : W.Went v found second e' r')
    (hended : first.ended = some (endOf e)) (hended' : second.ended = some (endOf e'))
    (hlimit : ∀ reply ∈ first.heard, ∀ reply' ∈ second.heard, reply.limit = reply'.limit)
    (htold : first.heard ≠ [] → second.heard ≠ [] →
      first.heard.map Reply.ending = second.heard.map Reply.ending) :
    first.questions = second.questions ∧ v.effect first.answers found
      = v.effect second.answers found ∧
      Alike request first second := by
  obtain ⟨origin, client, _, _, _, rfl⟩ := of_visit? hv
  rcases of_comes h.comes with ⟨hasked, hheard, hends⟩ |
    ⟨question, answer, hasks, _, hasked, hheard, hends⟩ <;>
    rcases of_comes h'.comes with ⟨hasked', hheard', hends'⟩ |
      ⟨question', answer', hasks', _, hasked', hheard', hends'⟩
  · obtain ⟨rfl, rfl⟩ := Course.ends.inj (hends.trans hends'.symm)
    exact ⟨hasked.trans hasked'.symm, by rw [hheard, hheard'], .same (hended.trans hended'.symm)⟩
  · nomatch hends.trans hasks'
  · nomatch hends'.trans hasks
  · -- the user was asked the same in both
    obtain ⟨-, rfl, -⟩ := Course.asks.inj (hasks.symm.trans hasks')
    obtain ⟨reply, hreply, rfl⟩ := List.map_eq_singleton_iff.1 hheard
    obtain ⟨reply', hreply', rfl⟩ := List.map_eq_singleton_iff.1 hheard'
    have hsame : reply.ending = reply'.ending := by simpa [hreply, hreply'] using htold
    have hlimits : reply.limit = reply'.limit := hlimit _ (by simp [hreply]) _ (by simp [hreply'])
    refine ⟨hasked.trans hasked'.symm, ?_⟩
    cases hdecided : reply.ending.isDecided with
    | true =>
      have hanswer : reply.answer = reply'.answer := by
        obtain ⟨request, limit, ending⟩ := reply
        obtain ⟨request', limit', ending'⟩ := reply'
        obtain rfl : ending = ending' := hsame
        obtain rfl : limit = limit' := hlimits
        exact Reply.answer_of_isDecided hdecided _ _ _
      rw [← hanswer] at hends'
      obtain ⟨rfl, -⟩ := Course.ends.inj (hends.trans hends'.symm)
      exact ⟨by rw [hheard, hheard', hanswer], .same (hended.trans hended'.symm)⟩
    | false =>
      obtain ⟨fault, hfault⟩ := Reply.exists_fault hdecided
      obtain ⟨fault', hfault'⟩ := Reply.exists_fault (hsame ▸ hdecided)
      rw [hfault] at hends hheard
      rw [hfault'] at hends' hheard'
      obtain ⟨rfl, -⟩ := Course.ends.inj hends
      obtain ⟨rfl, -⟩ := Course.ends.inj hends'
      refine ⟨by rw [hheard, hheard']; rfl, ?_⟩
      exact .undecided hreply hreply' hsame hlimits hdecided hfault hfault' hended hended'

end Wallet

/-! ### Two runs -/

/-- A history, with the requests of its tasks and the world it starts in. -/
structure Episode (η : Type) : Type 1 where
  requests : Nat → Request
  start : World η
  past : List (Act η Response)

namespace Episode

variable {W : Wallet η} {E F : Episode η} {v : Visit η} {r i : Nat}

/-- The crew behind the history. -/
def final (E : Episode η) : Crew η Response := (Crew.ofWorld E.start).after E.past

/-- The tasks that came to the queue, in the order in which they came. -/
def roll (W : Wallet η) (E : Episode η) : List Nat := (Crew.ofWorld E.start).roll W.queue E.past

/-- The tasks whose jobs started, in the order in which they started. -/
def served (W : Wallet η) (E : Episode η) : List Nat := (Crew.ofWorld E.start).served W.queue E.past

/-- The story of a task. -/
def story (i : Nat) (E : Episode η) : Story Response := (Crew.ofWorld E.start).story i E.past

/-- The registry that these tasks left, one after another. -/
def left (W : Wallet η) (E : Episode η) (tasks : List Nat) : Registry :=
  Wallet.left E.requests W (Crew.ofWorld E.start) E.past tasks

/-- The history is a run of the wallet, and all its tasks are over. -/
structure Complete (W : Wallet η) (E : Episode η) : Prop where
  run : W.Run E.requests E.start E.past
  gone : ∀ i, E.final.thread? i = none

/-- Two stories have the same outcome of the approval, if it was asked for in both. -/
def SameOutcome (first second : Story Response) : Prop :=
  first.heard ≠ [] → second.heard ≠ [] →
    first.heard.map Reply.ending = second.heard.map Reply.ending

instance (first second : Story Response) : Decidable (SameOutcome first second) :=
  inferInstanceAs (Decidable (first.heard ≠ [] → second.heard ≠ [] →
    first.heard.map Reply.ending = second.heard.map Reply.ending))

/-- **Two runs over the same queued requests**, in the same order, none of them given up and
each with the same outcome of its approval; but in the first run task `r` takes part as
well, and does not change the network. -/
structure WithAndWithout (W : Wallet η) (r : Nat) (E F : Episode η) : Prop where
  first : E.Complete W
  second : F.Complete W
  registry : E.start.registry = F.start.registry
  limit : E.start.desk.limit = F.start.desk.limit
  requests : ((E.roll W).filter (· ≠ r)).map E.requests = (F.roll W).map F.requests
  kept : (E.story r).switched = false
  stays : ∀ i ∈ E.roll W, i ≠ r → (E.story i).dropped = false
  stays' : ∀ j ∈ F.roll W, (F.story j).dropped = false
  outcome : ∀ i j, (i, j) ∈ ((E.roll W).filter (· ≠ r)).zip (F.roll W) →
    SameOutcome (E.story i) (F.story j)

namespace Complete

/-- In a complete run every task on the roll is over. -/
theorem phase (h : E.Complete W) {before behind : List Nat}
    (hsplit : E.roll W = before ++ i :: behind) :
    ∃ v, W.visit? (E.requests i) = some v ∧
      W.Phase v (E.left W before) E.final.world.registry (E.story i) (i ∈ E.served W) none := by
  obtain ⟨v, hv, hphase⟩ := h.run.inTurn.phase hsplit
  exact ⟨v, hv, h.gone i ▸ hphase⟩

/-- A task on the roll that was not given up came to its end. -/
theorem went (h : E.Complete W) {before behind : List Nat}
    (hsplit : E.roll W = before ++ i :: behind)
    (hstays : (E.story i).dropped = false) : ∃ v e s, W.visit? (E.requests i) = some v ∧
      W.Went v (E.left W before) (E.story i) e s ∧ (E.story i).ended = some (Wallet.endOf e) ∧
      i ∈ E.served W := by
  obtain ⟨v, hv, hphase⟩ := h.phase hsplit
  cases hphase with
  | gaveUp yet quiet ended dropped => simp [hstays] at dropped
  | cancelled turn comes kept ended dropped => simp [hstays] at dropped
  | completed turn went ended dropped => exact ⟨v, _, _, hv, went, ended, turn⟩

/-- The registry behind a complete run is the one that the tasks on the roll left. -/
theorem registry_eq (h : E.Complete W) : E.final.world.registry = E.left W (E.roll W) := by
  refine h.run.inTurn.registry fun i hruns => ?_
  obtain ⟨t, ht, _⟩ := Crew.exists_thread?_of_mem hruns
  exact absurd (ht.symm.trans (h.gone i)) nofun

/-- Those on the roll that are not given up are all served, in their order. -/
theorem filter_served (h : E.Complete W) {p : Nat → Bool}
    (hstays : ∀ i ∈ E.roll W, p i = true → (E.story i).dropped = false) :
    (E.served W).filter p = (E.roll W).filter p := by
  refine ((Crew.inOrder h.run.idle h.run.few).served.filter p).eq_of_length_le ?_
  refine (List.subperm_of_subset (h.run.inTurn.nodup.filter p) fun i hi => ?_).length_le
  obtain ⟨hi, hp⟩ := List.mem_filter.1 hi
  obtain ⟨before, behind, hsplit⟩ := List.append_of_mem hi
  obtain ⟨_, _, _, _, _, _, hserved⟩ := h.went hsplit (hstays i hi hp)
  exact List.mem_filter.2 ⟨hserved, hp⟩

/-- One more task leaves its effect. -/
theorem left_append (hv : W.visit? (E.requests i) = some v) (tasks : List Nat) :
    E.left W (tasks ++ [i]) = v.effect (E.story i).answers (E.left W tasks) :=
  Wallet.left_append_singleton hv

/-- **Along the rolls** of two runs: from places where they left the same registry on, they
make the same of every request that is in both, and leave the same registry in the end. -/
theorem alike (h : E.Complete W) (h' : F.Complete W)
    (hlimit : E.start.desk.limit = F.start.desk.limit)
    (hkept : (E.story r).switched = false) {before before' behind behind' : List Nat}
    (hroll : E.roll W = before ++ behind) (hroll' : F.roll W = before' ++ behind')
    (hrequests : (behind.filter (· ≠ r)).map E.requests = behind'.map F.requests)
    (hstays : ∀ i ∈ behind, i ≠ r → (E.story i).dropped = false)
    (hstays' : ∀ j ∈ behind', (F.story j).dropped = false)
    (houtcome : ∀ i j, (i, j) ∈ (behind.filter (· ≠ r)).zip behind' →
      SameOutcome (E.story i) (F.story j))
    (hleft : E.left W before = F.left W before') :
    E.left W (E.roll W) = F.left W (F.roll W) ∧ ∀ i j,
      (i, j) ∈ (behind.filter (· ≠ r)).zip behind' →
      (E.story i).questions = (F.story j).questions ∧
      Wallet.Alike (E.requests i) (E.story i) (F.story j) := by
  induction behind generalizing before before' behind' with
  | nil =>
    obtain rfl : behind' = [] := by simpa using hrequests.symm
    refine ⟨?_, fun i j hmem => by simp at hmem⟩
    rw [hroll, hroll', List.append_nil, List.append_nil, hleft]
  | cons i behind ih =>
    by_cases hi : i = r
    · -- the odd task left nothing
      subst hi
      obtain ⟨v, hv, hphase⟩ := h.phase hroll
      have hnothing : E.left W (before ++ [i]) = E.left W before := by
        rw [left_append hv, hphase.effect_of_over hkept]
      have hothers : (i :: behind).filter (· ≠ i) = behind.filter (· ≠ i) := by simp
      rw [hothers] at hrequests houtcome ⊢
      exact ih (by rw [hroll, List.append_assoc, List.singleton_append]) hroll' hrequests
        (fun j hj => hstays j (List.mem_cons_of_mem i hj)) hstays' houtcome (hnothing.trans hleft)
    · have hothers : (i :: behind).filter (· ≠ r) = i :: behind.filter (· ≠ r) := by simp [hi]
      rw [hothers] at hrequests houtcome ⊢
      obtain ⟨j, behind', rfl, hrequest, hrequests⟩ := List.map_eq_cons_iff.1 hrequests.symm
      obtain ⟨v, e, s, hv, hwent, hended, _⟩ := h.went hroll (hstays i List.mem_cons_self hi)
      obtain ⟨v', e', s', hv', hwent', hended', _⟩ := h'.went hroll' (hstays' j List.mem_cons_self)
      obtain rfl : v' = v := Option.some.inj (hv'.symm.trans (hrequest ▸ hv))
      have hlimits : ∀ reply ∈ (E.story i).heard, ∀ reply' ∈ (F.story j).heard, reply.limit
          = reply'.limit :=
        fun reply hreply reply' hreply' => by
          rw [Crew.limit_of_mem_heard hreply, Crew.limit_of_mem_heard hreply']
          exact hlimit
      obtain ⟨hasked, heffect, halike⟩ := hwent.alike hv (hleft ▸ hwent') hended hended' hlimits
        (houtcome i j List.mem_cons_self)
      have hone : E.roll W = (before ++ [i]) ++ behind := by
        rw [hroll, List.append_assoc, List.singleton_append]
      have hone' : F.roll W = (before' ++ [j]) ++ behind' := by
        rw [hroll', List.append_assoc, List.singleton_append]
      obtain ⟨hfinal, hrest⟩ := ih hone hone' hrequests.symm
        (fun k hk => hstays k (List.mem_cons_of_mem i hk))
        (fun k hk => hstays' k (List.mem_cons_of_mem j hk))
        (fun k l hkl => houtcome k l (List.mem_cons_of_mem _ hkl))
        (by rw [left_append hv, left_append hv', heffect, hleft])
      refine ⟨hfinal, fun k l hkl => ?_⟩
      rcases List.mem_cons.1 hkl with heq | hkl
      · obtain ⟨rfl, rfl⟩ := Prod.mk.inj heq
        exact ⟨hasked, halike⟩
      · exact hrest k l hkl

end Complete

/-! ### With and without a request that is given up -/

/-- Three requests, the second of which is given up while the user is asked. -/
def withOne : Episode Unit := ⟨Wallet.sendings Wallet.threeNetworks, .start (), Wallet.oneGivenUp⟩

/-- The first and the third of them; the third comes only when the user has approved of the
first. -/
def withoutOne : Episode Unit where
  requests := Wallet.sendings [.sepolia, .sepolia]
  start := .start ()
  past :=
    List.replicate 8 (.go 1)
      ++ (List.replicate 12 (.go 0) ++ (Wallet.arrives [.sepolia, .sepolia] 1 ++
    .outside (.accept (.fresh 0)) :: (Wallet.arrives [.sepolia, .sepolia] 0 ++ [])))

theorem complete_withOne : withOne.Complete Wallet.teller :=
  ⟨Wallet.run_oneGivenUp, Wallet.over_oneGivenUp⟩

theorem complete_withoutOne : withoutOne.Complete Wallet.teller where
  run := {
    idle := rfl
    queueing := rfl
    few := by decide +kernel
    keeps :=
      Wallet.keeps_replicate_go 8 1 <| Wallet.keeps_replicate_go 12 0 <|
        Wallet.keeps_arrives (by decide +kernel)
        ⟨rfl, Wallet.keeps_arrives rfl trivial⟩ }
  gone := Wallet.thread?_eq_none_of_forall (by decide +kernel)

theorem roll_withOne : withOne.roll Wallet.teller = [0, 1, 2] := by decide +kernel

theorem roll_withoutOne : withoutOne.roll Wallet.teller = [0, 1] := by decide +kernel

theorem withAndWithout_one : WithAndWithout Wallet.teller 1 withOne withoutOne where
  first := complete_withOne
  second := complete_withoutOne
  registry := rfl
  limit := rfl
  requests := by
    rw [roll_withOne, roll_withoutOne]
    rfl
  kept := by decide +kernel
  stays := by decide +kernel
  stays' := by decide +kernel
  outcome := by
    have hpairs :
      ∀ p ∈ ((withOne.roll Wallet.teller).filter (· ≠ 1)).zip (withoutOne.roll Wallet.teller),
        SameOutcome (withOne.story p.1) (withoutOne.story p.2) := by decide +kernel
    exact fun i j hmem => hpairs (i, j) hmem

/-- **A request that fails leaves no trace.**  Of two runs over the same queued requests, in
the same order and with the same outcomes of approvals, one has a task more that does not
change the network.  Every other request asks the same in both, and comes to the same end if
it is told the same.  It is told the same unless the user decided on it in neither run; then
it is refused in both, each time with the approval of its own run.  The others are served in
the same order, and the networks are left the same. -/
theorem isolated (h : WithAndWithout W r E F) :
    (∀ i j, (i, j) ∈ ((E.roll W).filter (· ≠ r)).zip (F.roll W) →
      (E.story i).questions = (F.story j).questions ∧
      ((E.story i).answers = (F.story j).answers → (E.story i).ended = (F.story j).ended) ∧
      Wallet.Alike (E.requests i) (E.story i) (F.story j)) ∧
    (E.served W).filter (· ≠ r) = (E.roll W).filter (· ≠ r) ∧ F.served W = F.roll W ∧
    E.final.world.registry = F.final.world.registry := by
  obtain ⟨hfinal, halike⟩ := h.first.alike h.second h.limit h.kept (List.nil_append _).symm
    (List.nil_append _).symm h.requests h.stays h.stays' h.outcome h.registry
  refine ⟨fun i j hmem => ?_, ?_, ?_, ?_⟩
  · obtain ⟨hasked, hsame⟩ := halike i j hmem
    exact ⟨hasked, hsame.ended_eq, hsame⟩
  · exact h.first.filter_served fun i hi hp => h.stays i hi (by simpa using hp)
  · have hserved := h.second.filter_served (p := fun _ => true) fun j hj _ => h.stays' j hj
    rwa [List.filter_true, List.filter_true] at hserved
  · rw [h.first.registry_eq, h.second.registry_eq, hfinal]

/-- The request that is given up was asked about, and the others ask, answer and leave what
they do without it. -/
theorem isolated_one :
    (withOne.story 1).asked ≠ [] ∧ (withOne.story 1).dropped = true ∧
      (withOne.story 0).questions = (withoutOne.story 0).questions ∧
      (withOne.story 0).ended = (withoutOne.story 0).ended ∧
      Wallet.Alike (withOne.requests 2) (withOne.story 2) (withoutOne.story 1) ∧
      withOne.final.world.registry = withoutOne.final.world.registry := by
  obtain ⟨halike, _, _, hregistry⟩ := isolated withAndWithout_one
  obtain ⟨hasked, hended, _⟩ := halike 0 0 (by decide +kernel)
  obtain ⟨_, _, hlast⟩ := halike 2 1 (by decide +kernel)
  exact ⟨by decide +kernel, by decide +kernel, hasked, hended (by decide +kernel), hlast, hregistry⟩

/-! ### Where nobody decides -/

/-- A world in which the user has a second to decide. -/
def hurried : World Unit := { World.start () with desk := Desk.empty (some 1000) }

/-- The user declines the first of two requests, and does not decide on the second in time. -/
def lateWithOne : Episode Unit where
  requests := Wallet.sendings [.sepolia, .goerli]
  start := hurried
  past := List.replicate 8 (.go 1) ++ .outside (.wait 1000) :: (List.replicate 8 (.go 1) ++
    (List.replicate 12 (.go 0) ++ .outside (.reject (.fresh 0) "no") ::
      (Wallet.arrives [.sepolia, .goerli] 1 ++ (Wallet.arrives [.sepolia, .goerli] 0 ++ []))))

/-- Only the second request comes, and the user does not decide in time. -/
def lateWithoutOne : Episode Unit where
  requests := Wallet.sendings [.goerli]
  start := hurried
  past := List.replicate 8 (.go 0) ++ .outside (.wait 1000) :: (Wallet.arrives [.goerli] 0 ++ [])

theorem complete_lateWithOne : lateWithOne.Complete Wallet.teller where
  run := {
    idle := rfl
    queueing := rfl
    few := by decide +kernel
    keeps :=
      Wallet.keeps_replicate_go 8 1 ⟨rfl, Wallet.keeps_replicate_go 8 1 <|
        Wallet.keeps_replicate_go 12 0 ⟨rfl, Wallet.keeps_arrives (by decide +kernel) <|
          Wallet.keeps_arrives rfl trivial⟩⟩ }
  gone := Wallet.thread?_eq_none_of_forall (by decide +kernel)

theorem complete_lateWithoutOne : lateWithoutOne.Complete Wallet.teller where
  run := {
    idle := rfl
    queueing := rfl
    few := by decide +kernel
    keeps := Wallet.keeps_replicate_go 8 0 ⟨rfl, Wallet.keeps_arrives rfl trivial⟩ }
  gone := Wallet.thread?_eq_none_of_forall (by decide +kernel)

theorem withAndWithout_late : WithAndWithout Wallet.teller 0 lateWithOne lateWithoutOne where
  first := complete_lateWithOne
  second := complete_lateWithoutOne
  registry := rfl
  limit := rfl
  requests := by
    have hroll : lateWithOne.roll Wallet.teller = [0, 1] := by decide +kernel
    have hroll' : lateWithoutOne.roll Wallet.teller = [0] := by decide +kernel
    rw [hroll, hroll']
    rfl
  kept := by decide +kernel
  stays := by decide +kernel
  stays' := by decide +kernel
  outcome := by
    have hpairs : ∀ p ∈ ((lateWithOne.roll Wallet.teller).filter (· ≠ 0)).zip
        (lateWithoutOne.roll Wallet.teller),
        SameOutcome (lateWithOne.story p.1) (lateWithoutOne.story p.2) := by decide +kernel
    exact fun i j hmem => hpairs (i, j) hmem

/-- The text of the error that a task ended with. -/
def errorText : TaskEnd Response → Option String
  | .finished response => response.error.map RpcError.message
  | .panicked _ => none

/-- **Two that were not decided on are told apart.**  The same request times out in both
runs; the error names the second approval of the one, and the first approval of the other. -/
theorem undecided_differ :
    WithAndWithout Wallet.teller 0 lateWithOne lateWithoutOne ∧
      (1, 0) ∈ ((lateWithOne.roll Wallet.teller).filter (· ≠ 0)).zip
        (lateWithoutOne.roll Wallet.teller) ∧
      (lateWithOne.story 1).heard.map Reply.ending = [.timedOut] ∧
      (lateWithoutOne.story 0).heard.map Reply.ending = [.timedOut] ∧
      (lateWithOne.story 1).ended ≠ (lateWithoutOne.story 0).ended := by
  have htexts : (lateWithOne.story 1).ended.bind errorText
      ≠ (lateWithoutOne.story 0).ended.bind errorText := by decide +kernel
  exact ⟨withAndWithout_late, by decide +kernel, by decide +kernel, by decide +kernel,
    fun hended => htexts (congrArg (Option.bind · errorText) hended)⟩

end Episode

end WalletGate
