import WalletGate.Json.Reader
import WalletGate.Proofs.Legible

/-!
# Free values, written and read

A free value is read as it is written, but for the order of its members: the members of
every object come back in the order of their names, and of several with one name the last
(`Json.sorted`).  What was read is in that order already, so it comes back as it is; and it
is nested no deeper than there was room for.

* `readFree_ofJson` — a value that is not too deep is read, in order;
* `of_readFree` — what was read is in order, and not too deep;
* `readText_render` — a value with legible numbers is read from its text as it is read at hand.
-/

namespace WalletGate.Json

open Reading

/-! ### The order of members -/

/-- Every name comes before those behind it. -/
def InOrder (members : List (String × Json)) : Prop :=
  members.Pairwise fun m n => m.1 < n.1

/-- Of two names one comes first, or they are the same. -/
theorem lt_of_not_lt {a b : String} (h : ¬ a < b) (hne : a ≠ b) : b < a := by
  rw [← String.not_le]
  intro hle
  exact hne (String.le_antisymm hle (String.not_lt.1 h))

/-- A member behind all others is put at the end. -/
theorem insertMember_of_last {key : String} {value : Json} {members : List (String × Json)}
    (h : ∀ m ∈ members, m.1 < key) :
    insertMember key value members = members ++ [(key, value)] := by
  induction members with
  | nil => rfl
  | cons m members ih =>
    obtain ⟨k, v⟩ := m
    have hk : k < key := h (k, v) (by simp)
    have hne : key ≠ k := fun heq => String.lt_irrefl k (heq ▸ hk)
    rw [insertMember, if_neg (String.lt_asymm hk), if_neg hne, ih fun m hm => h m (by simp [hm])]
    rfl

/-- Nothing else comes in with a member. -/
theorem mem_insertMember {key : String} {value : Json} {members : List (String × Json)}
    {m : String × Json}
    (h : m ∈ insertMember key value members) : m = (key, value) ∨ m ∈ members := by
  induction members with
  | nil => exact .inl (by simpa [insertMember] using h)
  | cons n members ih =>
    obtain ⟨k, v⟩ := n
    unfold insertMember at h
    split at h
    · simpa using h
    · split at h
      · rcases List.mem_cons.1 h with rfl | hm
        · exact .inl rfl
        · exact .inr (by simp [hm])
      · rcases List.mem_cons.1 h with rfl | hm
        · exact .inr (by simp)
        · exact (ih hm).imp id fun hm => by simp [hm]

/-- Members in order stay in order when one is put in. -/
theorem inOrder_insertMember {key : String} {value : Json} {members : List (String × Json)}
    (h : InOrder members) :
    InOrder (insertMember key value members) := by
  induction members with
  | nil => simp [insertMember, InOrder]
  | cons n members ih =>
    obtain ⟨k, v⟩ := n
    obtain ⟨hfirst, hrest⟩ := List.pairwise_cons.1 h
    unfold insertMember
    split
    · next hlt =>
      refine List.pairwise_cons.2 ⟨fun m hm => ?_, h⟩
      rcases List.mem_cons.1 hm with rfl | hm
      · exact hlt
      · exact String.lt_trans hlt (hfirst m hm)
    · next hnlt =>
      split
      · next heq =>
        subst heq
        exact List.pairwise_cons.2 ⟨hfirst, hrest⟩
      · next hne =>
        refine List.pairwise_cons.2 ⟨fun m hm => ?_, ih hrest⟩
        rcases mem_insertMember hm with rfl | hm
        · exact lt_of_not_lt hnlt hne
        · exact hfirst m hm

/-- Putting members in one after another, in order, puts them at the end. -/
theorem foldl_insertMember (acc : List (String × Json)) {members : List (String × Json)}
    (h : InOrder (acc ++ members)) :
    members.foldl (fun acc m => insertMember m.1 m.2 acc) acc = acc ++ members := by
  induction members generalizing acc with
  | nil => simp
  | cons m members ih =>
    have hlast : ∀ n ∈ acc, n.1 < m.1 := fun n hn => (List.pairwise_append.1 h).2.2 n hn m (by simp)
    have hacc : InOrder (acc ++ [m] ++ members) := by
      rwa [List.append_assoc, List.singleton_append]
    rw [List.foldl_cons, insertMember_of_last hlast, ih _ hacc, List.append_assoc,
      List.singleton_append]

/-- Members in order are left as they are. -/
theorem sortMembers_of_inOrder {members : List (String × Json)} (h : InOrder members) :
    sortMembers members = members :=
  foldl_insertMember [] h

/-- Sorted members are in order, and every one of them was there before. -/
theorem sortMembers_spec (members : List (String × Json)) :
    InOrder (sortMembers members) ∧ ∀ m ∈ sortMembers members, m ∈ members := by
  have hfold : ∀ acc : List (String × Json), InOrder acc →
      InOrder (members.foldl (fun acc m => insertMember m.1 m.2 acc) acc) ∧
        ∀ m ∈ members.foldl (fun acc m => insertMember m.1 m.2 acc) acc, m ∈ acc ∨ m ∈ members := by
    induction members with
    | nil => exact fun acc hacc => ⟨hacc, fun m hm => .inl hm⟩
    | cons n members ih =>
      intro acc hacc
      obtain ⟨horder, hmem⟩ := ih _ (inOrder_insertMember hacc)
      refine ⟨horder, fun m hm => ?_⟩
      rcases hmem m hm with hm | hm
      · rcases mem_insertMember hm with rfl | hm
        · exact .inr (by simp)
        · exact .inl hm
      · exact .inr (by simp [hm])
  obtain ⟨horder, hmem⟩ := hfold [] (by simp [InOrder])
  exact ⟨horder, fun m hm => (hmem m hm).resolve_left (by simp)⟩

/-! ### Order and depth of a value -/

mutual

/-- The value with the members of every object in the order of their names, of several with
one name the last. -/
def sorted : Json → Json
  | null => null
  | bool b => bool b
  | number n => number n
  | text s => text s
  | list items => list (sortedIn items)
  | record members => record (sortMembers (sortedAmong members))

/-- The items of an array, each in order. -/
def sortedIn : List Json → List Json
  | [] => []
  | v :: items => sorted v :: sortedIn items

/-- The members of an object as they stand, the value of each in order. -/
def sortedAmong : List (String × Json) → List (String × Json)
  | [] => []
  | (k, v) :: members => (k, sorted v) :: sortedAmong members

end

mutual

/-- How many arrays and objects of a value stand inside one another, at most. -/
def depth : Json → Nat
  | null => 0
  | bool _ => 0
  | number _ => 0
  | text _ => 0
  | list items => depthIn items + 1
  | record members => depthAmong members + 1

/-- The depth of the deepest item. -/
def depthIn : List Json → Nat
  | [] => 0
  | v :: items => max (depth v) (depthIn items)

/-- The depth of the deepest member. -/
def depthAmong : List (String × Json) → Nat
  | [] => 0
  | (_, v) :: members => max (depth v) (depthAmong members)

end

mutual

/-- Other numbers make no value deeper. -/
theorem depth_mapNumbers (f : Number → Number) (v : Json) : (v.mapNumbers f).depth = v.depth := by
  cases v with
  | list items => rw [mapNumbers, depth, depthIn_mapNumbers f items, depth]
  | record members => rw [mapNumbers, depth, depthAmong_mapNumbers f members, depth]
  | _ => rfl

theorem depthIn_mapNumbers (f : Number → Number) (items : List Json) :
    depthIn (mapNumbersIn f items) = depthIn items := by
  cases items with
  | nil => rfl
  | cons v items =>
    rw [mapNumbersIn, depthIn, depth_mapNumbers f v, depthIn_mapNumbers f items, depthIn]

theorem depthAmong_mapNumbers (f : Number → Number) (members : List (String × Json)) :
    depthAmong (mapNumbersAmong f members) = depthAmong members := by
  cases members with
  | nil => rfl
  | cons m members =>
    rw [mapNumbersAmong, depthAmong, depth_mapNumbers f m.2,
      depthAmong_mapNumbers f members, depthAmong]

end

/-- A member is no deeper than the deepest. -/
theorem depth_le_depthAmong {members : List (String × Json)} {m : String × Json} (h : m ∈ members) :
    m.2.depth ≤ depthAmong members := by
  induction members with
  | nil => simp at h
  | cons n members ih =>
    rw [depthAmong]
    rcases List.mem_cons.1 h with rfl | h
    · exact Nat.le_max_left _ _
    · exact Nat.le_trans (ih h) (Nat.le_max_right _ _)

/-- A member of an object is less deep than the object. -/
theorem depth_member {members : List (String × Json)} {room : Nat}
    (h : (record members).depth ≤ room + 1)
    {m : String × Json} (hm : m ∈ members) : m.2.depth ≤ room :=
  Nat.le_trans (depth_le_depthAmong hm) (Nat.le_of_succ_le_succ h)

/-- Members are no deeper than a bound if none of them is. -/
theorem depthAmong_le {members : List (String × Json)} {n : Nat}
    (h : ∀ m ∈ members, m.2.depth ≤ n) :
    depthAmong members ≤ n := by
  induction members with
  | nil => exact Nat.zero_le n
  | cons m members ih =>
    rw [depthAmong]
    exact Nat.max_le.2 ⟨h m (by simp), ih fun m hm => h m (by simp [hm])⟩

/-- All numbers inside the members of an object are of a kind if those inside each of them
are. -/
theorem allNumbersAmong_of_forall {P : Number → Prop} {members : List (String × Json)}
    (h : ∀ m ∈ members, m.2.AllNumbers P) : AllNumbersAmong P members := by
  induction members with
  | nil => trivial
  | cons m members ih => exact ⟨h m (by simp), ih fun m hm => h m (by simp [hm])⟩

/-- Where each value is in order already, nothing changes. -/
theorem sortedAmong_of_forall {members : List (String × Json)}
    (h : ∀ m ∈ members, m.2.sorted = m.2) :
    sortedAmong members = members := by
  induction members with
  | nil => rfl
  | cons m members ih => rw [sortedAmong, h m (by simp), ih fun m hm => h m (by simp [hm])]

/-- The value is an object, and its members are texts and some of these values. -/
def IsRecordOf (vs : List Json) (v : Json) : Prop :=
  ∃ members, v = record members ∧ ∀ m ∈ members, (∃ s, m.2 = text s) ∨ m.2 ∈ vs

namespace IsRecordOf

variable {vs : List Json} {v : Json}

/-- It is at most one deeper than these values. -/
theorem depth_le (hv : v.IsRecordOf vs) {room : Nat} (h : ∀ w ∈ vs, w.depth ≤ room) :
    v.depth ≤ room + 1 := by
  obtain ⟨members, rfl, hmembers⟩ := hv
  refine Nat.succ_le_succ (depthAmong_le fun m hm => ?_)
  rcases hmembers m hm with ⟨s, hs⟩ | hm
  · rw [hs]
    exact Nat.zero_le room
  · exact h _ hm

/-- Its numbers are theirs. -/
theorem allNumbers {P : Number → Prop} (hv : v.IsRecordOf vs) (h : ∀ w ∈ vs, w.AllNumbers P) :
    v.AllNumbers P := by
  obtain ⟨members, rfl, hmembers⟩ := hv
  refine allNumbersAmong_of_forall fun m hm => ?_
  rcases hmembers m hm with ⟨s, hs⟩ | hm
  · rw [hs]
    trivial
  · exact h _ hm

end IsRecordOf

/-- What an optional free value comes back as: null is none. -/
def present? : Option Json → Option Json
  | some null => none
  | o => o

/-! ### Reading -/

mutual

/-- **A value that is not too deep is read**, its members in order. -/
theorem readFree_ofJson (v : Json) {room : Nat} (h : v.depth ≤ room) :
    readFree room (Source.ofJson v) = .ok v.sorted := by
  cases v with
  | list items =>
    rw [depth] at h
    obtain ⟨room, rfl⟩ : ∃ n, room = n + 1 := ⟨room - 1, by omega⟩
    rw [Source.ofJson, readFree, entering, readFreeItems_ofJson items (by omega)]
    rfl
  | record members =>
    rw [depth] at h
    obtain ⟨room, rfl⟩ : ∃ n, room = n + 1 := ⟨room - 1, by omega⟩
    rw [Source.ofJson, readFree, entering, readFreeMembers_ofJson members (by omega)]
    rfl
  | _ => rfl

theorem readFreeItems_ofJson (items : List Json) {room : Nat} (h : depthIn items ≤ room) :
    readFreeItems room (Items.ofJson items) = .ok (sortedIn items) := by
  cases items with
  | nil => rfl
  | cons v items =>
    rw [depthIn] at h
    rw [Items.ofJson, readFreeItems, readFree_ofJson v (by omega),
      readFreeItems_ofJson items (by omega)]
    rfl

theorem readFreeMembers_ofJson (members : List (String × Json)) {room : Nat}
    (h : depthAmong members ≤ room) :
    readFreeMembers room (Members.ofJson members) = .ok (sortedAmong members) := by
  cases members with
  | nil => rfl
  | cons m members =>
    rw [depthAmong] at h
    rw [Members.ofJson, readFreeMembers, readFree_ofJson m.2 (by omega),
      readFreeMembers_ofJson members (by omega)]
    rfl

end

/-- A step that succeeds in front of another that succeeds. -/
theorem bind_eq_ok {α β : Type} {x : Result α} {f : α → Result β} {b : β} (h : x >>= f = .ok b) :
    ∃ a, x = .ok a ∧ f a = .ok b := by
  cases x with
  | error failure => cases h
  | ok a => exact ⟨a, rfl, h⟩

theorem map_eq_ok {α β : Type} {x : Result α} {f : α → β} {b : β} (h : x.map f = .ok b) :
    ∃ a, x = .ok a ∧ f a = b := by
  cases x with
  | error failure => cases h
  | ok a => exact ⟨a, rfl, by simpa [Except.map] using h⟩

/-- Whoever enters has found room. -/
theorem entering_eq_ok {α : Type} {room : Nat} {read : Nat → Result α} {a : α}
    (h : entering room read = .ok a) :
    ∃ n, room = n + 1 ∧ read n = .ok a := by
  cases room with
  | zero => cases h
  | succ n => exact ⟨n, rfl, h⟩

mutual

/-- **What was read is in order, and no deeper than there was room for.** -/
theorem of_readFree (s : Source) {room : Nat} {v : Json} (h : readFree room s = .ok v) :
    v.sorted = v ∧ v.depth ≤ room := by
  cases s with
  | null => cases h; exact ⟨rfl, Nat.zero_le _⟩
  | bool b => cases h; exact ⟨rfl, Nat.zero_le _⟩
  | number value =>
    cases value with
    | none => cases h
    | some n => cases h; exact ⟨rfl, Nat.zero_le _⟩
  | text content =>
    cases content with
    | none => cases h
    | some s => cases h; exact ⟨rfl, Nat.zero_le _⟩
  | list items =>
    obtain ⟨n, rfl, h⟩ := entering_eq_ok h
    obtain ⟨vs, hvs, rfl⟩ := map_eq_ok h
    obtain ⟨hsorted, hdepth⟩ := of_readFreeItems items hvs
    exact ⟨by rw [sorted, hsorted], by rw [depth]; omega⟩
  | record members =>
    obtain ⟨n, rfl, h⟩ := entering_eq_ok h
    obtain ⟨ms, hms, rfl⟩ := map_eq_ok h
    have hall := of_readFreeMembers members hms
    obtain ⟨horder, hmem⟩ := sortMembers_spec ms
    refine ⟨?_, ?_⟩
    · rw [sorted, sortedAmong_of_forall fun m hm => (hall m (hmem m hm)).1,
        sortMembers_of_inOrder horder]
    · have hdepth := depthAmong_le fun m hm => (hall m (hmem m hm)).2
      rw [depth]
      omega
  | broken => cases h

theorem of_readFreeItems (items : Items) {room : Nat} {vs : List Json}
    (h : readFreeItems room items = .ok vs) :
    sortedIn vs = vs ∧ depthIn vs ≤ room := by
  cases items with
  | closed => cases h; exact ⟨rfl, Nat.zero_le _⟩
  | broken => cases h
  | cons head rest =>
    obtain ⟨v, hv, h⟩ := bind_eq_ok h
    obtain ⟨vs, hvs, h⟩ := bind_eq_ok h
    cases h
    obtain ⟨hsorted, hdepth⟩ := of_readFree head hv
    obtain ⟨hsortedIn, hdepthIn⟩ := of_readFreeItems rest hvs
    exact
      ⟨by rw [sortedIn, hsorted, hsortedIn], by rw [depthIn]; exact Nat.max_le.2 ⟨hdepth, hdepthIn⟩⟩

theorem of_readFreeMembers (members : Members) {room : Nat} {ms : List (String × Json)}
    (h : readFreeMembers room members = .ok ms) :
    ∀ m ∈ ms, m.2.sorted = m.2 ∧ m.2.depth ≤ room := by
  cases members with
  | closed => cases h; simp
  | broken found => cases h
  | cons key value rest =>
    cases key with
    | none => cases h
    | some key =>
      obtain ⟨v, hv, h⟩ := bind_eq_ok h
      obtain ⟨ms, hms, h⟩ := bind_eq_ok h
      cases h
      intro m hm
      rcases List.mem_cons.1 hm with rfl | hm
      · exact of_readFree value hv
      · exact of_readFreeMembers rest hms m hm

end

/-- Null is read from null alone. -/
theorem eq_null_of_readFree {s : Source} {room : Nat} (h : readFree room s = .ok null) :
    s = .null := by
  cases s with
  | null => rfl
  | bool b => cases h
  | number value => cases value <;> cases h
  | text content => cases content <;> cases h
  | list items =>
    obtain ⟨n, rfl, h⟩ := entering_eq_ok h
    obtain ⟨vs, -, h⟩ := map_eq_ok h
    cases h
  | record members =>
    obtain ⟨n, rfl, h⟩ := entering_eq_ok h
    obtain ⟨ms, -, h⟩ := map_eq_ok h
    cases h
  | broken => cases h

/-! ### Texts -/

variable {α : Type} {read : Spot → Result α}

/-- **A value with legible numbers is read from its text as it is read at hand**, with its
numbers as they come back. -/
theorem readText_render_legible {v : Json} {a : α} (h : v.AllNumbers Legible)
    (hread : readValue read (v.mapNumbers reread) = .ok a) : readText read v.render = .ok a := by
  unfold readText render
  rw [String.toList_ofList, Source.ofChars_chars h]
  unfold readValue at hread
  simp only [hread]
  rfl

/-- **A value with whole numbers of sixty-four bits is read from its text as it is read at
hand.** -/
theorem readText_render {v : Json} {a : α} (h : v.AllNumbers IsWord)
    (hread : readValue read v = .ok a) :
    readText read v.render = .ok a := by
  refine readText_render_legible (h.imp fun n => IsWord.legible) ?_
  rwa [mapNumbers_eq_self (fun n => IsWord.reread_eq) v h]

/-- What was read from a text was read from the tree of that text. -/
theorem of_readText {text : String} {a : α} (h : readText read text = .ok a) :
    ∃ s, read (nesting, s) = .ok a := by
  unfold readText at h
  rcases hs : Source.ofChars text.toList with ⟨s, rest⟩
  rw [hs] at h
  dsimp only at h
  refine ⟨s, ?_⟩
  cases hread : read (nesting, s) with
  | error failure =>
    rw [hread] at h
    split at h <;> simp_all
  | ok b =>
    rw [hread] at h
    have hb : (if endsClean rest then .ok b else .error .malformed : Result α) = .ok a := h
    split at hb
    · exact hb
    · cases hb

end WalletGate.Json
