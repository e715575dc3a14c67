import WalletGate.ChainId
import WalletGate.Reading.Mismatch

/-!
# Records, described once

A record is read member by member into a **draft**, a value with a slot for every field.
Its **shape** lists the fields in their order; each field knows its name, how to tell that
it is filled, how to read it, and what it is when nobody wrote it.  The same shape serves
every format a record is read from: `σ` is what stands for a value there.

* `Shape.complete` — the fields nobody wrote, in their order: the default, or the first
  mismatch.
-/

namespace WalletGate.Reading

/-- One field of a record that is read into a draft `δ`. -/
structure Field (σ δ : Type) where
  key : String
  /-- The draft already holds this field. -/
  filled : δ → Bool
  /-- Reads a value into the draft. -/
  fill : σ → δ → Result δ
  /-- What becomes of the draft when the field is absent; none if the field has to be there. -/
  absent : Option (δ → δ)

/-- A field over a slot of the draft. -/
def Field.over {σ δ β : Type} (key : String) (get : δ → Option β) (set : β → δ → δ)
    (read : σ → Result β) (default : Option β) : Field σ δ where
  key := key
  filled d := (get d).isSome
  fill s d := (read s).map fun b => set b d
  absent := default.map fun b => set b

/-- A record: its name in messages, its fields in order, and the empty draft. -/
structure Shape (σ δ : Type) where
  name : String
  fields : List (Field σ δ)
  blank : δ

namespace Shape

variable {σ δ : Type}

/-- The field of this name. -/
def field? (shape : Shape σ δ) (key : String) : Option (Field σ δ) :=
  shape.fields.find? fun f => f.key = key

/-- Fills the absent ones of the given fields, in order. -/
def completeFields : List (Field σ δ) → δ → Result δ
  | [], d => .ok d
  | f :: rest, d =>
    if f.filled d then completeFields rest d
    else
      match f.absent with
      | some default => completeFields rest (default d)
      | none => refuse (.missingField f.key)

/-- Fills the absent fields of a draft, in their order. -/
def complete (shape : Shape σ δ) (d : δ) : Result δ :=
  completeFields shape.fields d

/-- A member is met: a field the draft already holds is a mismatch, before its value is
looked at. -/
def meet (f : Field σ δ) (s : σ) (d : δ) : Result δ :=
  if f.filled d then refuse (.duplicateField f.key) else f.fill s d

end Shape

/-- A format: how the basic kinds of values are read from `σ`. -/
structure Format (σ : Type) where
  flag : σ → Result Bool
  text : σ → Result String
  /-- An unsigned 64-bit number. -/
  word : σ → Result UInt64
  /-- A chain id, written as a text or as a number. -/
  chainId : σ → Result ChainId
  /-- A value, or none where the format says so. -/
  optional : {β : Type} → (σ → Result β) → σ → Result (Option β)
  listOf : {β : Type} → (σ → Result β) → σ → Result (List β)
  record : {δ : Type} → Shape σ δ → σ → Result δ

end WalletGate.Reading
