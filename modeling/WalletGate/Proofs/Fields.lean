import WalletGate.Proofs.FreeValue

/-!
# Records, read field by field

A record that was written by the library is read from the value at hand: every member meets
its field, and a field that was left out gets its default.  The readers of the basic kinds
of values are evaluated by `simp`, so that for a given record nothing is left to do but to
say what it is written as.

The other way round, nothing can be said of what a record was read from: its members may
come in any order, or without names, with others between them, and some may be missing.
What holds of a draft nevertheless is what holds of the blank one and is kept by every
field, whether it is filled or gets its default (`Field.Keeps`).

* `readRecord_keeps` — what every field keeps holds of the draft that was read.
-/

namespace WalletGate

open Reading

namespace Json

/-! ### Values at hand -/

section AtHand

variable {β γ : Type} (room : Nat)

@[simp] theorem ok_map (f : β → γ) (b : β) : (Except.ok b : Result β).map f = .ok (f b) := rfl

@[simp] theorem ok_bind (f : β → Result γ) (b : β) : (Except.ok b : Result β) >>= f = f b := rfl

@[simp] theorem readString_text (s : String) : readString (room, .text (some s)) = .ok s := rfl

@[simp] theorem readOptional_null (read : Spot → Result β) :
    readOptional read (room, .null) = .ok none := rfl

@[simp] theorem readOptional_text (read : Spot → Result β) (s : Option String) :
    readOptional read (room, .text s) = (read (room, .text s)).map some := rfl

@[simp] theorem readOptional_number (read : Spot → Result β) (value : Option Number) :
    readOptional read (room, .number value) = (read (room, .number value)).map some := rfl

@[simp] theorem readOptional_record (read : Spot → Result β) (members : Members) :
    readOptional read (room, .record members) = (read (room, .record members)).map some := rfl

@[simp] theorem readRecord_record {δ : Type} (shape : Shape Spot δ) (members : Members) :
    readRecord shape (room + 1, .record members) = readMembers shape room members shape.blank := rfl

end AtHand

/-- An optional free value that is not too deep is read, null as none. -/
theorem readOptional_ofJson {room : Nat} {v : Json} (h : v.depth ≤ room) :
    readOptional readAny (room, Source.ofJson v) = .ok (present? (some v.sorted)) := by
  have hread : readAny (room, Source.ofJson v) = .ok v.sorted := readFree_ofJson v h
  cases v <;> first | rfl | exact congrArg (Except.map some) hread

/-- A whole number within the bounds is read. -/
theorem readWhole_whole (room : Nat) {low high n : Int} (h : low ≤ n ∧ n < high) (wanted : String) :
    readWhole low high wanted (room, .number (some (.whole n))) = .ok n :=
  if_pos h

/-- Where another kind of value was wanted, nothing is read. -/
theorem unwanted_ne_ok {α : Type} (s : Source) (wanted : String) (a : α) :
    unwanted s wanted ≠ .ok a := by
  intro h
  obtain ⟨found, -, hrefuse⟩ := bind_eq_ok h
  cases hrefuse

/-- A signed number that was read is within its bounds. -/
theorem of_readSigned {spot : Spot} {n : Int} (h : readSigned spot = .ok n) :
    -(Nat.pow 2 63 : Nat) ≤ n ∧ n < (Nat.pow 2 63 : Nat) := by
  unfold readSigned readWhole at h
  split at h
  · split at h
    · next hbounds =>
      cases h
      exact hbounds
    · cases h
  · exact absurd h (unwanted_ne_ok _ _ _)

/-- An optional value that was read is none, or was read from something other than null. -/
theorem of_readOptional {β : Type} {read : Spot → Result β} {spot : Spot} {o : Option β}
    (h : readOptional read spot = .ok o) :
    o = none ∨ ∃ b, o = some b ∧ spot.2 ≠ .null ∧ read spot = .ok b := by
  unfold readOptional at h
  split at h
  · cases h
    exact .inl rfl
  · next spot hnull =>
    obtain ⟨b, hb, rfl⟩ := map_eq_ok h
    exact .inr ⟨b, rfl, fun heq => hnull _ (Prod.ext rfl heq), hb⟩

end Json

/-! ### What the fields of a record keep -/

namespace Reading.Field

variable {δ β : Type}

/-- The field keeps a property of drafts, whether it is filled at a place with this much
room or gets its default. -/
structure Keeps (f : Field Json.Spot δ) (room : Nat) (P : δ → Prop) : Prop where
  fill : ∀ s d e, P d → f.fill (room, s) d = .ok e → P e
  absent : ∀ default ∈ f.absent, ∀ d, P d → P (default d)

/-- A field over a slot keeps what every value that may come into the slot keeps. -/
theorem keeps_over {key : String} {get : δ → Option β} {set : β → δ → δ}
    {read : Json.Spot → Result β} {default : Option β} {room : Nat} {P : δ → Prop}
    (hread : ∀ s b, read (room, s) = .ok b → ∀ d, P d → P (set b d))
    (hdefault : ∀ b ∈ default, ∀ d, P d → P (set b d)) :
    (Field.over key get set read default).Keeps room P := by
  constructor
  · intro s d e hd hfill
    obtain ⟨b, hb, rfl⟩ := Json.map_eq_ok hfill
    exact hread s b hb d hd
  · intro f hf d hd
    obtain ⟨b, hb, rfl⟩ := Option.map_eq_some_iff.1 hf
    exact hdefault b hb d hd

end Reading.Field

namespace Json

open Reading

variable {δ : Type} {shape : Shape Spot δ} {room : Nat} {P : δ → Prop}

/-- Completing a draft keeps what its fields keep. -/
theorem completeFields_keeps {fields : List (Field Spot δ)}
    (hfields : ∀ f ∈ fields, f.Keeps room P) {d e : δ}
    (hd : P d) (h : Shape.completeFields fields d = .ok e) : P e := by
  induction fields generalizing d with
  | nil =>
    cases h
    exact hd
  | cons f fields ih =>
    have hrest : ∀ g ∈ fields, g.Keeps room P := fun g hg => hfields g (by simp [hg])
    unfold Shape.completeFields at h
    split at h
    · exact ih hrest hd h
    · split at h
      · next default hdefault =>
          exact ih hrest ((hfields f (by simp)).absent default hdefault d hd) h
      · cases h

/-- Reading the members of an object keeps what the fields keep, in whatever order the
members come. -/
theorem readMembers_keeps (hfields : ∀ f ∈ shape.fields, f.Keeps room P) (members : Members)
    {d e : δ} (hd : P d) (h : readMembers shape room members d = .ok e) : P e := by
  cases members with
  | closed => exact completeFields_keeps hfields hd h
  | broken found => cases h
  | cons key value rest =>
    cases key with
    | none => cases h
    | some key =>
      rw [readMembers] at h
      split at h
      · split at h
        · exact readMembers_keeps hfields rest hd h
        · cases h
      · next f hf =>
        obtain ⟨e, hmeet, h⟩ := bind_eq_ok h
        unfold Shape.meet at hmeet
        split at hmeet
        · cases hmeet
        · exact readMembers_keeps hfields rest
            ((hfields f (List.mem_of_find?_eq_some hf)).fill _ _ _ hd hmeet) h

/-- Reading the items of an array in place of the fields keeps what the fields keep. -/
theorem readPositional_keeps {fields : List (Field Spot δ)} (hfields : ∀ f ∈ fields, f.Keeps room P)
    {index : Nat} {items : Items} {d e : δ} (hd : P d)
    (h : readPositional shape room index fields items d = .ok e) : P e := by
  induction fields generalizing index items d with
  | nil =>
    cases items with
    | closed =>
      cases h
      exact hd
    | broken => cases h
    | cons head rest =>
      rw [readPositional] at h
      split at h <;> cases h
  | cons f fields ih =>
    have hrest : ∀ g ∈ fields, g.Keeps room P := fun g hg => hfields g (by simp [hg])
    cases items with
    | closed =>
      rw [readPositional] at h
      split at h
      · next default hdefault =>
          exact ih hrest ((hfields f (by simp)).absent default hdefault d hd) h
      · cases h
    | broken => cases h
    | cons head rest =>
      obtain ⟨e, hfill, h⟩ := bind_eq_ok h
      exact ih hrest ((hfields f (by simp)).fill _ _ _ hd hfill) h

/-- **What every field keeps holds of the draft that was read**; the fields stand one level
further in. -/
theorem readRecord_keeps {s : Source} {e : δ} (h : readRecord shape (room, s) = .ok e) :
    ∃ n, room = n + 1 ∧ ∀ P : δ → Prop, P shape.blank →
      (∀ f ∈ shape.fields, f.Keeps n P) → P e := by
  unfold readRecord at h
  split at h
  · next members heq =>
    cases heq
    obtain ⟨n, rfl, h⟩ := entering_eq_ok h
    exact ⟨n, rfl, fun P hblank hfields => readMembers_keeps hfields members hblank h⟩
  · next items heq =>
    cases heq
    obtain ⟨n, rfl, h⟩ := entering_eq_ok h
    exact ⟨n, rfl, fun P hblank hfields => readPositional_keeps hfields hblank h⟩
  · exact absurd h (unwanted_ne_ok _ _ _)

end Json

end WalletGate
