import WalletGate.Json.Value

/-!
# A text taken apart

Reading JSON goes through a tree that keeps what the text says and where it stops making
sense.  Taking a text apart never fails: a place where the text is no JSON holds `broken`,
and everything in front of that place is kept.  So a reader that walks the tree in the order
of the text meets the first thing that is wrong, be it a wrong value or a broken place.

The members of an object keep their order and their repetitions.  A string with an unpaired
surrogate, and a number beyond every double, are well formed as text and have no value; they
are kept as such.

* `Source.isSound` — no broken place anywhere: what a value nobody reads still has to be.
-/

namespace WalletGate.Json

mutual

/-- A value as it stands in a text. -/
inductive Source where
  | null
  | bool (b : Bool)
  /-- A number; none if it is beyond every double. -/
  | number (value : Option Number)
  /-- A string; none if one of its surrogates is unpaired. -/
  | text (content : Option String)
  | list (items : Items)
  | record (members : Members)
  /-- The text is no JSON from here on. -/
  | broken

/-- The items of an array up to its end or up to a broken place. -/
inductive Items where
  | closed
  | broken
  | cons (head : Source) (rest : Items)

/-- The members of an object up to its end or up to a place without a member name; what
stands there instead is kept. -/
inductive Members where
  | closed
  | broken (found : Source)
  | cons (key : Option String) (value : Source) (rest : Members)

end

mutual

/-- No place of the tree is broken. -/
def Source.isSound : Source → Bool
  | .list items => items.areSound
  | .record members => members.areSound
  | .broken => false
  | .null => true
  | .bool _ => true
  | .number _ => true
  | .text _ => true

/-- No place among the items is broken. -/
def Items.areSound : Items → Bool
  | .closed => true
  | .broken => false
  | .cons head rest => head.isSound && rest.areSound

/-- No place among the members is broken. -/
def Members.areSound : Members → Bool
  | .closed => true
  | .broken _ => false
  | .cons _ value rest => value.isSound && rest.areSound

end

/-- How many items there are up to the end or a broken place. -/
def Items.count : Items → Nat
  | .closed => 0
  | .broken => 0
  | .cons _ rest => rest.count + 1

mutual

/-- The tree of a value that is at hand already. -/
def Source.ofJson : Json → Source
  | .null => .null
  | .bool b => .bool b
  | .number n => .number (some n)
  | .text s => .text (some s)
  | .list items => .list (Items.ofJson items)
  | .record members => .record (Members.ofJson members)

/-- The trees of the items of a value. -/
def Items.ofJson : List Json → Items
  | [] => .closed
  | v :: rest => .cons (Source.ofJson v) (Items.ofJson rest)

/-- The trees of the members of a value, in their order. -/
def Members.ofJson : List (String × Json) → Members
  | [] => .closed
  | (k, v) :: rest => .cons (some k) (Source.ofJson v) (Members.ofJson rest)

end

end WalletGate.Json
