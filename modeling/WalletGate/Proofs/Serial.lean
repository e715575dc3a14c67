import WalletGate.Proofs.Turns

/-!
# Queued requests are served as if one after another

In a run of a wallet tasks wait for the host, for the user and for one another in any
interleaving.  None of it can be told from the outside: the registry and the responses are
those of serving the queued requests one strictly after another, in the order in which they
came to the queue, each on the registry the one before it left and each told what it was
told (`Wallet.serializable`).

* `Wallet.InTurn.registry_of_rest` — where all tasks are at rest the registry is what those
  on the roll left;
* `Wallet.Phase.alone_of_over` — a task that is over ended as it would have ended alone.
-/

namespace WalletGate

variable {η : Type}

namespace Wallet

variable {W : Wallet η} {requests : Nat → Request} {w : World η} {past : List (Act η Response)}

/-- The task of a request, as it is put down when its history is over. -/
def booking (requests : Nat → Request) (c : Crew η Response) (past : List (Act η Response))
    (i : Nat) : Booking :=
  ⟨requests i, (c.story i past).answers, (c.story i past).dropped⟩

/-- The tasks on the roll, put down in the order in which they came. -/
def docket (requests : Nat → Request) (W : Wallet η) (c : Crew η Response)
    (past : List (Act η Response)) :
    List Booking :=
  (c.roll W.queue past).map (booking requests c past)

/-- What the tasks of a docket leave when they are served one after another is what they
left. -/
theorem settled_map_booking {c : Crew η Response} (tasks : List Nat) :
    W.settled (tasks.map (booking requests c past)) c.world.registry
      = left requests W c past tasks := by
  rw [settled, left, List.foldl_map]
  rfl

/-- **A task that is over** ended as its request would have ended alone; it has no end if it
was given up. -/
theorem Phase.alone_of_over {v : Visit η} {found now : Registry} {s : Story Response} {begun : Prop}
    {request : Request} (h : W.Phase v found now s begun none) (hv : W.visit? request = some v) :
    (W.alone ⟨request, s.answers, s.dropped⟩ found).1 = s.ended ∧
    (s.ended = none ↔ s.dropped = true) := by
  rw [alone, hv]
  cases h with
  | gaveUp yet quiet ended dropped => simp [ended, dropped]
  | cancelled turn comes kept ended dropped => simp [ended, dropped]
  | @completed e r turn went ended dropped =>
    refine ⟨?_, by simp [ended, dropped]⟩
    simp only [dropped, went.comes.hear_eq, ended, Bool.false_eq_true, if_false]
    cases e <;> rfl

/-- **Where all tasks are at rest** the registry is what those on the roll left. -/
theorem InTurn.registry_of_rest {c : Crew η Response} (h : InTurn requests W c past)
    (horder : c.InOrder W.queue past) (hrest : (c.after past).AtRest) :
    (c.after past).world.registry = left requests W c past (c.roll W.queue past) := by
  by_cases hruns : ∃ i, .runs ∈ (c.after past).placesOf W.queue i
  · obtain ⟨i, hi⟩ := hruns
    obtain ⟨t, ht, hmem⟩ := Crew.exists_thread?_of_mem hi
    exact h.registry_of_runs horder ht hmem (hrest.isAtRest ht)
  · exact h.registry fun i hi => hruns ⟨i, hi⟩

/-- What the requests of a docket heard when they were served among others, they hear when
they are served alone. -/
theorem InTurn.comes_of_docket {c : Crew η Response} (h : InTurn requests W c past)
    {earlier later : List Booking}
    {b : Booking} (hsplit : docket requests W c past = earlier ++ b :: later) :
    ∃ v questions course, W.visit? b.request = some v ∧
      (W.course v (W.settled earlier c.world.registry)).Comes questions b.heard course := by
  obtain ⟨before, rest, hroll, rfl, hrest⟩ := List.map_eq_append_iff.1 hsplit
  obtain ⟨i, behind, rfl, rfl, rfl⟩ := List.map_eq_cons_iff.1 hrest
  obtain ⟨v, hv, hphase⟩ := h.phase hroll
  obtain ⟨questions, course, hcomes⟩ := hphase.exists_comes
  exact ⟨v, questions, course, hv, by rwa [settled_map_booking]⟩

/-! ### Three sites -/

/-- The turn of a request that is answered with the chain selected. -/
def chainTurn (request : Request) (response : Response) : Except Fault ChainId → Turn
  | .ok chain => .well request { response with result := some (.text chain.display) }
  | .error fault => .failed fault request response

/-- A wallet that answers every request with the chain selected. -/
def teller : Wallet Unit where
  queue := 0
  classifier := .default
  behind := [fun request response _ =>
    (Program.perform .selectedChain).bind fun chain => .done (chainTurn request response chain)]
  computed request response r := .finished (chainTurn request response r.selectedChain)
  onlyReads _ _ := ⟨rfl, fun _ => trivial⟩
  computes _ _ _ := by
    rintro _ s ⟨rfl, rfl⟩
    rfl

/-- A site sends transactions, each through the next of these networks. -/
def sendings (networks : List BuiltIn) (i : Nat) : Request :=
  (Visit.sending ((networks[i]?).getD .mainnet).clientId Pipeline.nothing (η := Unit)).request

/-- The task of a request is created and goes as far as it can. -/
def arrives (networks : List BuiltIn) (i : Nat) : List (Act Unit Response) :=
  List.replicate 9 (.go i) ++ [.spawn "task" (teller.task (sendings networks i))]

theorem keeps_arrives {networks : List BuiltIn} {i : Nat} {c : Crew Unit Response}
    {past : List (Act Unit Response)}
    (hi : (c.after past).tasks.length = i) (h : teller.Keeps (sendings networks) c past) :
    teller.Keeps (sendings networks) c (arrives networks i ++ past) := by
  subst hi
  rw [arrives, List.append_assoc]
  exact keeps_replicate_go _ _ ⟨rfl, h⟩

/-- The networks of three requests. -/
def threeNetworks : List BuiltIn := [.sepolia, .goerli, .sepolia]

/-- The first request is approved, the second is given up while the user is asked, the third
needs no approval. -/
def oneGivenUp : List (Act Unit Response) :=
  List.replicate 8 (.go 2) ++ .drop 1 :: (List.replicate 8 (.go 1) ++ (List.replicate 12 (.go 0) ++
    .outside (.accept (.fresh 0)) :: (arrives threeNetworks 2 ++ (arrives threeNetworks 1 ++
      (arrives threeNetworks 0 ++ [])))))

theorem run_oneGivenUp : teller.Run (sendings threeNetworks) (.start ()) oneGivenUp where
  idle := rfl
  queueing := rfl
  few := by decide +kernel
  keeps :=
    keeps_replicate_go 8 2 <| keeps_drop (by decide +kernel) <| keeps_replicate_go 8 1 <|
      keeps_replicate_go 12 0
      ⟨rfl, keeps_arrives (by decide +kernel) <| keeps_arrives (by decide +kernel) <|
        keeps_arrives rfl trivial⟩

/-- Where nothing is left of any task that was created, nothing is left of any task. -/
theorem thread?_eq_none_of_forall {c : Crew η Response}
    (h : ∀ i < c.tasks.length, (c.thread? i).isNone = true) (i : Nat) : c.thread? i = none := by
  rcases Nat.lt_or_ge i c.tasks.length with hi | hi
  · exact Option.isNone_iff_eq_none.1 (h i hi)
  · exact Crew.thread?_of_length_le hi

theorem over_oneGivenUp : ∀ i, ((Crew.ofWorld (.start ())).after oneGivenUp).thread? i = none :=
  thread?_eq_none_of_forall (by decide +kernel)

/-- **Serializability.**  In every run of a wallet: where all tasks are at rest the registry
is the one that the queued requests leave when they are served one strictly after another,
in the order in which they came, each with the answer it was given; each of them that is
over has ended as it ends there, or was given up; and no queued request that came to its end
is missing. -/
theorem serializable (h : W.Run requests w past) :
    (((Crew.ofWorld w).after past).AtRest →
      (W.serially (docket requests W (Crew.ofWorld w) past) w.registry).2
        = ((Crew.ofWorld w).after past).world.registry) ∧
    (∀ n i : Nat, ((Crew.ofWorld w).roll W.queue past)[n]? = some i →
      ((Crew.ofWorld w).after past).thread? i = none →
      (W.serially (docket requests W (Crew.ofWorld w) past) w.registry).1[n]?
          = some ((Crew.ofWorld w).story i past).ended ∧
        (((Crew.ofWorld w).story i past).ended = none ↔
          ((Crew.ofWorld w).story i past).dropped = true)) ∧
    ∀ i, ((Crew.ofWorld w).story i past).ended ≠ none → W.visit? (requests i) ≠ none →
      i ∈ (Crew.ofWorld w).roll W.queue past := by
  have hturn := h.inTurn
  obtain ⟨hregistry, hends⟩ :=
    serially_eq (r := w.registry) fun earlier b later hsplit => hturn.comes_of_docket hsplit
  refine ⟨fun hrest => ?_, fun n i hi hover => ?_, fun i hended hqueued => ?_⟩
  · rw [hregistry, docket, hturn.registry_of_rest (Crew.inOrder h.idle h.few) hrest]
    exact settled_map_booking _
  · obtain ⟨hn, hget⟩ := List.getElem?_eq_some_iff.1 hi
    have hroll : (Crew.ofWorld w).roll W.queue past
        = ((Crew.ofWorld w).roll W.queue past).take n ++ i
          :: ((Crew.ofWorld w).roll W.queue past).drop (n + 1) := by
      rw [← hget, ← List.drop_eq_getElem_cons hn, List.take_append_drop]
    obtain ⟨v, hv, hphase⟩ := hturn.phase hroll
    rw [hover] at hphase
    obtain ⟨halone, hgivenUp⟩ := hphase.alone_of_over hv
    refine ⟨?_, hgivenUp⟩
    have hend := hends _ _ _ ((congrArg (List.map _) hroll).trans List.map_append)
    have hfound : W.settled ((((Crew.ofWorld w).roll W.queue past).take n).map
        (booking requests (Crew.ofWorld w) past)) w.registry = _ := settled_map_booking _
    rw [List.length_map, List.length_take_of_le (Nat.le_of_lt hn)] at hend
    rw [hend, ← halone, ← hfound]
    rfl
  · by_contra hnew
    exact hqueued ((hturn.apart i hnew).ended hended)

/-- The second request is given up and counts as nothing: the networks and the answer to the
third are those of serving the three one after another. -/
theorem serializable_oneGivenUp :
    (Crew.ofWorld (.start ())).roll 0 oneGivenUp = [0, 1, 2] ∧
      ((Crew.ofWorld (.start ())).story 1 oneGivenUp).dropped = true ∧
      (teller.serially
        (docket (sendings threeNetworks) teller (Crew.ofWorld (.start ())) oneGivenUp)
        Registry.initial).2 = ((Crew.ofWorld (.start ())).after oneGivenUp).world.registry ∧
      (teller.serially
        (docket (sendings threeNetworks) teller (Crew.ofWorld (.start ())) oneGivenUp)
        Registry.initial).1[2]? = some ((Crew.ofWorld (.start ())).story 2 oneGivenUp).ended := by
  have hserial := serializable run_oneGivenUp
  exact ⟨by decide +kernel, by decide +kernel, hserial.1 (by decide +kernel),
    (hserial.2.1 2 2 (by decide +kernel) (over_oneGivenUp 2)).1⟩

end Wallet

end WalletGate
