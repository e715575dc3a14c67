import Mathlib.Data.List.TakeWhile
import WalletGate.Proofs.Fields

/-!
# What a text is read as

A text is read by its tree, and by what stands behind the value, which is nothing but
blanks.  A number is whole as far as its text goes: blanks, one zero or digits that begin
with none, and blanks again.  These texts, up to 2^64 - 1, are the ones whose tree is a
whole number that is not negative; a fraction or an exponent makes a double of any number,
and digits beyond sixty-four bits do, too.

* `readText_eq_ok_iff` — what is read of a text is read of its tree;
* `holds_whole_iff` — the texts of whole numbers.
-/

namespace WalletGate.Json

open Reading

/-! ### Texts and their trees -/

/-- The text holds one value with this tree, and blanks at most behind it. -/
def Holds (text : String) (source : Source) : Prop :=
  ∃ rest, Source.ofChars text.toList = (source, some rest) ∧ ∀ c ∈ rest, isSpace c = true

/-- What is left of blanks is nothing. -/
theorem skipSpace_eq_nil_iff {s : List Char} : skipSpace s = [] ↔ ∀ c ∈ s, isSpace c = true := by
  simp [skipSpace]

/-- **What is read of a text is read of its tree.** -/
theorem readText_eq_ok_iff {α : Type} {read : Spot → Result α} {text : String} {a : α} :
    readText read text = .ok a ↔ ∃ source, Holds text source ∧ read (nesting, source) = .ok a := by
  unfold readText
  rcases hs : Source.ofChars text.toList with ⟨source, rest⟩
  dsimp only
  constructor
  · intro h
    split at h
    · next b hread =>
      split at h
      · next hclean =>
        obtain rfl := Except.ok.inj h
        cases rest with
        | none => cases hclean
        | some rest =>
          exact ⟨source, ⟨rest, hs, skipSpace_eq_nil_iff.1 (List.isEmpty_iff.1 hclean)⟩, hread⟩
      · cases h
    · cases h
    · cases h
  · rintro ⟨other, ⟨rest', hother, hblank⟩, hread⟩
    obtain ⟨rfl, rfl⟩ := Prod.mk.inj (hs.symm.trans hother)
    have hclean : endsClean (some rest') = true :=
      List.isEmpty_iff.2 (skipSpace_eq_nil_iff.2 hblank)
    rw [hread]
    dsimp only
    rw [if_pos hclean]

/-- So is a failure, other than of an array that is too long. -/
theorem readText_eq_error {α : Type} {read : Spot → Result α} {text : String} {source : Source}
    {failure : Failure}
    (h : Holds text source) (hread : read (nesting, source) = .error failure)
    (hlong : ∀ place size, failure ≠ .mismatch place (.tooLong size)) :
    readText read text = .error failure := by
  obtain ⟨rest, hs, -⟩ := h
  unfold readText
  rw [hs]
  dsimp only
  rw [hread]
  split
  · next heq => cases heq
  · next place size heq => exact absurd (Except.error.inj heq) (hlong place size)
  · next heq => exact heq.symm ▸ rfl

/-- A written value holds its tree. -/
theorem holds_render {v : Json} (h : v.AllNumbers IsWord) : Holds v.render (Source.ofJson v) := by
  have hchars := Source.ofChars_chars (h.imp fun n => IsWord.legible)
  rw [mapNumbers_eq_self (fun n => IsWord.reread_eq) v h] at hchars
  exact ⟨[], by rw [render, String.toList_ofList, hchars], by simp⟩

/-- A free value that is neither an array nor an object is its own tree. -/
theorem source_of_readFree {room : Nat} {source : Source} {v : Json}
    (h : readFree room source = .ok v) :
    (∃ items, v = .list items) ∨ (∃ members, v = .record members) ∨ source = Source.ofJson v := by
  cases source with
  | null => exact .inr (.inr (by cases h; rfl))
  | bool b => exact .inr (.inr (by cases h; rfl))
  | number value =>
    cases value with
    | none => cases h
    | some n => exact .inr (.inr (by cases h; rfl))
  | text content =>
    cases content with
    | none => cases h
    | some s => exact .inr (.inr (by cases h; rfl))
  | list items =>
    obtain ⟨_, -, h⟩ := entering_eq_ok h
    obtain ⟨vs, -, rfl⟩ := map_eq_ok h
    exact .inl ⟨vs, rfl⟩
  | record members =>
    obtain ⟨_, -, h⟩ := entering_eq_ok h
    obtain ⟨ms, -, rfl⟩ := map_eq_ok h
    exact .inr (.inl ⟨_, rfl⟩)
  | broken => cases h

/-! ### Whole numbers -/

/-- The digits of a whole number: one zero, or digits that begin with none. -/
structure WholeDigits (ds : List Char) : Prop where
  digits : ∀ c ∈ ds, isDigit c = true
  nonempty : ds ≠ []
  noZero : ds.head? = some '0' → ds = ['0']

/-- The characters are a whole number between blanks. -/
def IsWhole (s : List Char) (n : Nat) : Prop :=
  ∃ front ds back, s = front ++ ds ++ back ∧ (∀ c ∈ front ++ back, isSpace c = true) ∧
    WholeDigits ds ∧
    n = Nat.ofDigitChars 10 ds 0

/-- The digits that are scanned are the digits of a whole number. -/
theorem of_scanWhole {s ds rest : List Char} (h : scanWhole s = some (ds, rest)) :
    WholeDigits ds ∧ s = ds ++ rest := by
  have hdigits : ∀ c ∈ s.takeWhile isDigit, isDigit c = true :=
    fun c hc => List.mem_takeWhile_imp hc
  have happend : s.takeWhile isDigit ++ s.dropWhile isDigit = s := List.takeWhile_append_dropWhile
  unfold scanWhole scanDigits at h
  split at h
  · cases h
  · cases h
  · next hempty hmore =>
    obtain ⟨rfl, rfl⟩ := Prod.mk.inj (Option.some.inj h)
    refine ⟨⟨hdigits, fun hnil => ?_, fun hhead => ?_⟩, happend.symm⟩
    · exact hempty _ (by rw [hnil])
    · obtain ⟨t, ht⟩ := List.head?_eq_some_iff.1 hhead
      cases t with
      | nil => exact ht
      | cons c t => exact absurd (by rw [ht]) (hmore c t _)

/-- The digits of a whole number are scanned whole. -/
theorem scanWhole_append_rest {ds back : List Char} (h : WholeDigits ds)
    (hback : ∀ c ∈ back.head?, isDigit c = false) :
    scanWhole (ds ++ back) = some (ds, back) := by
  unfold scanWhole
  rw [scanDigits_append h.digits hback]
  split
  · next heq => exact absurd (Prod.mk.inj heq).1 h.nonempty
  · next c t _ heq =>
    have hds : ds = '0' :: c :: t := (Prod.mk.inj heq).1
    rw [hds] at h
    exact absurd (h.noZero rfl) (by simp)
  · rfl

/-- What was gathered whole is the value of the digits, and fits in sixty-four bits. -/
theorem of_gather {ds : List Char} {acc n : Nat} (hacc : acc < Numeral.wordBound)
    (h : Numeral.gather acc ds = (n, [])) :
    n = Nat.ofDigitChars 10 ds acc ∧ n < Numeral.wordBound := by
  induction ds generalizing acc with
  | nil =>
    obtain rfl : acc = n := (Prod.mk.inj h).1
    exact ⟨by simp, hacc⟩
  | cons c ds ih =>
    have hnext : acc * 10 + Numeral.digit c = 10 * acc + (c.toNat - '0'.toNat) := by
      rw [Nat.mul_comm]
      rfl
    rw [Numeral.gather] at h
    split at h
    · next hfits =>
      rw [Nat.ofDigitChars_cons, ← hnext]
      exact ih hfits h
    · cases h

/-- The value of a numeral is a whole number if the digits in front are all there is and fit. -/
theorem value_eq_whole_iff {ds : List Char} {f : Option (List Char)}
    {e : Option (Bool × List Char)} {n : Nat} :
    Numeral.value? ⟨false, ds, f, e⟩ = some (.whole n) ↔
      f = none ∧ e = none ∧ n = Nat.ofDigitChars 10 ds 0 ∧ n < Numeral.wordBound := by
  have hdouble : ∀ m : Option Decimal.Binary64, (m.map fun x => Number.double (x.withSign false))
      ≠ some (.whole n) := by
    rintro (_ | x) h <;> cases h
  constructor
  · intro h
    unfold Numeral.value? Numeral.wholeValue? at h
    cases f with
    | some _ => exact absurd h (hdouble _)
    | none =>
      cases e with
      | some _ => exact absurd h (hdouble _)
      | none =>
        rcases hgather : Numeral.gather 0 ds with ⟨m, left⟩
        dsimp only at h
        rw [hgather] at h
        cases left with
        | cons c left => exact absurd h (hdouble _)
        | nil =>
          obtain rfl : m = n := Int.ofNat.inj (by simpa using h)
          exact ⟨rfl, rfl, of_gather (by decide) hgather⟩
  · rintro ⟨rfl, rfl, rfl, hfits⟩
    simp [Numeral.value?, Numeral.wholeValue?, gather_of_lt hfits]

/-- Behind a minus sign there is no whole number from zero on. -/
theorem value_negative_ne {n : Numeral} (h : n.negative = true) (i : Nat) :
    n.value? ≠ some (.whole i) := by
  intro hvalue
  have hdouble : ∀ m : Option Decimal.Binary64, (m.map fun x => Number.double (x.withSign true))
      ≠ some (.whole i) := by
    rintro (_ | x) h <;> cases h
  unfold Numeral.value? at hvalue
  split at hvalue
  · next j hj =>
    obtain rfl : j = i := by simpa using hvalue
    unfold Numeral.wholeValue? at hj
    split at hj
    · split at hj
      · simp only [h, Bool.not_true, Bool.false_eq_true, if_false] at hj
        split at hj
        · cases hj
        · next hpos =>
          have hneg := Option.some.inj hj
          omega
      · cases hj
    · cases hj
  · rw [h] at hvalue
    exact absurd hvalue (hdouble _)

/-- Without a fraction and an exponent the digits are all there is of a number. -/
theorem of_scanUnsigned {negative : Bool} {s rest : List Char} {n : Numeral}
    (h : scanUnsigned negative s = some (n, rest)) :
    n.negative = negative ∧ WholeDigits n.whole ∧
      (n.fraction = none → n.exponent = none → s = n.whole ++ rest) := by
  have hfraction : ∀ {t r}, scanFraction t = some (none, r) → t = r := by
    intro t r h
    unfold scanFraction at h
    split at h
    · split at h <;> cases h
    · exact (Prod.mk.inj (Option.some.inj h)).2
  have hexponent : ∀ {t r}, scanExponent t = some (none, r) → t = r := by
    intro t r h
    unfold scanExponent at h
    split at h
    · exact (Prod.mk.inj (Option.some.inj h)).2
    · split at h
      · dsimp only at h
        split at h <;> cases h
      · exact (Prod.mk.inj (Option.some.inj h)).2
  unfold scanUnsigned at h
  obtain ⟨⟨ds, t⟩, hwhole, h⟩ := Option.bind_eq_some_iff.1 h
  obtain ⟨⟨f, t'⟩, hf, h⟩ := Option.bind_eq_some_iff.1 h
  obtain ⟨⟨e, t''⟩, he, h⟩ := Option.bind_eq_some_iff.1 h
  obtain ⟨rfl, rfl⟩ : (⟨negative, ds, f, e⟩ : Numeral) = n ∧ t'' = rest := by simpa using h
  obtain ⟨hds, rfl⟩ := of_scanWhole hwhole
  refine ⟨rfl, hds, ?_⟩
  rintro rfl rfl
  rw [hfraction hf, hexponent he]

/-- **A whole number that was scanned stands there by its digits**, and fits in sixty-four
bits. -/
theorem of_scanValue_whole {fuel : Nat} {s rest : List Char} {n : Nat}
    (h : scanValue (fuel + 1) s = (.number (some (.whole n)), some rest)) :
    ∃ ds, skipSpace s = ds ++ rest ∧ WholeDigits ds ∧ n = Nat.ofDigitChars 10 ds 0 ∧
      n < Numeral.wordBound := by
  rw [scanValue] at h
  split at h
  · cases h
  · cases h
  · cases h
  · split at h <;> cases h
  · split at h <;> cases h
  · split at h <;> cases h
  · split at h
    · cases h
    · next num _ hscan =>
      obtain ⟨hvalue, -⟩ := Prod.mk.inj h
      exact absurd (Source.number.inj hvalue) (value_negative_ne (of_scanUnsigned hscan).1 n)
  · split at h
    · cases h
    · next num _ hscan =>
      obtain ⟨hvalue, hrest⟩ := Prod.mk.inj h
      obtain rfl := Option.some.inj hrest
      obtain ⟨hnegative, hds, happend⟩ := of_scanUnsigned hscan
      obtain ⟨negative, ds, f, e⟩ := num
      obtain rfl : negative = false := hnegative
      obtain ⟨rfl, rfl, hn, hfits⟩ := value_eq_whole_iff.1 (Source.number.inj hvalue)
      exact ⟨ds, happend rfl rfl, hds, hn, hfits⟩

/-- Blanks in front of a value are skipped. -/
theorem skipSpace_append {front : List Char} (h : ∀ c ∈ front, isSpace c = true) (s : List Char) :
    skipSpace (front ++ s) = skipSpace s := by
  induction front with
  | nil => rfl
  | cons c front ih =>
    have hc : isSpace c = true := h c (by simp)
    rw [List.cons_append, skipSpace, List.dropWhile_cons_of_pos hc]
    exact ih fun d hd => h d (by simp [hd])

/-- A value is the same where no blanks are in front of it. -/
theorem scanValue_skipSpace {fuel : Nat} {front : List Char} (h : ∀ c ∈ front, isSpace c = true)
    (s : List Char) :
    scanValue (fuel + 1) (front ++ s) = scanValue (fuel + 1) s := by
  rw [scanValue, scanValue, skipSpace_append h]

/-- A blank does not go on with a number. -/
theorem ends_of_blank {back : List Char} (h : ∀ c ∈ back, isSpace c = true) : Ends back := by
  intro c hc
  have hspace : isSpace c = true := h c (List.mem_of_mem_head? hc)
  simp only [isSpace, Bool.or_eq_true, decide_eq_true_eq] at hspace
  rcases hspace with ((rfl | rfl) | rfl) | rfl <;> decide

/-- **The digits of a whole number that fits are scanned as that number**, between blanks. -/
theorem scanValue_wholeDigits {fuel : Nat} {front ds back : List Char}
    (hblank : ∀ c ∈ front ++ back, isSpace c = true)
    (hds : WholeDigits ds) (hfits : Nat.ofDigitChars 10 ds 0 < Numeral.wordBound) :
    scanValue (fuel + 1) (front ++ ds ++ back)
      = (.number (some (.whole (Nat.ofDigitChars 10 ds 0))), some back) := by
  have hback := ends_of_blank fun c hc => hblank c (List.mem_append_right _ hc)
  have hwhole : scanWhole ds = some (ds, []) := by
    simpa using scanWhole_append_rest hds (show ∀ c ∈ [].head?, isDigit c = false by simp)
  have hscan : scanUnsigned false ds = some (⟨false, ds, none, none⟩, []) := by
    simp [scanUnsigned, hwhole, scanFraction, scanExponent]
  have happend := scanUnsigned_append hback hscan
  rw [List.append_assoc, scanValue_skipSpace fun c hc => hblank c (List.mem_append_left _ hc)]
  obtain ⟨c, t, rfl⟩ := List.exists_cons_of_ne_nil hds.nonempty
  rw [List.cons_append] at happend ⊢
  rw [scanValue_digit (hds.digits c (by simp)) fuel happend,
    value_eq_whole_iff.2 ⟨rfl, rfl, rfl, hfits⟩]

/-- **The texts of the whole numbers**: their digits, between blanks. -/
theorem holds_whole_iff {text : String} {n : Nat} :
    Holds text (.number (some (.whole n))) ↔ IsWhole text.toList n ∧ n < Nat.pow 2 64 := by
  constructor
  · rintro ⟨back, hscan, hback⟩
    obtain ⟨ds, hds, hwhole, hn, hfits⟩ := of_scanValue_whole hscan
    have hfront : ∀ c ∈ text.toList.takeWhile isSpace, isSpace c = true :=
      fun c hc => List.mem_takeWhile_imp hc
    refine ⟨⟨text.toList.takeWhile isSpace, ds, back, ?_, ?_, hwhole, hn⟩, hfits⟩
    · rw [List.append_assoc, ← hds]
      exact List.takeWhile_append_dropWhile.symm
    · intro c hc
      rcases List.mem_append.1 hc with hc | hc
      · exact hfront c hc
      · exact hback c hc
  · rintro ⟨⟨front, ds, back, htext, hblank, hds, rfl⟩, hfits⟩
    refine ⟨back, ?_, fun c hc => hblank c (List.mem_append_right _ hc)⟩
    rw [htext]
    exact scanValue_wholeDigits hblank hds hfits

end WalletGate.Json
