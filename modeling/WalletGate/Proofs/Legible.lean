import WalletGate.Json.Printer
import WalletGate.Json.SourceText

/-!
# What is written can be taken apart again

A JSON value is written as a text, and a text is taken apart into a tree.  A value whose
numbers are **legible** comes back as it was, whatever stands behind its text, as long as
that does not go on with the last number.

A number is legible if its text is a numeral with a value.  Whole numbers from -2^63 to 2^64
- 1 are, and have the value they were written with.  The value of a double is found by
another way than its text, so it may come back as a neighbour; `Json.mapNumbers` puts for
every number what it comes back as.

Strings are taken apart piece by piece: a character that needs no escape is a piece of its
own, one that has a letter behind a backslash is one too, and any other comes as a unit of
sixteen bits.

* `scanString_quote`, `contentOf_pieces` — every string comes back;
* `Number.reread_whole` — so does every whole number of sixty-four bits;
* `Source.ofChars_chars` — and every value with legible numbers.
-/

namespace WalletGate.Json

/-! ### Strings -/

/-- The piece of a string that a character is written as. -/
def pieceOf (c : Char) : Piece :=
  if c.toNat < 32 ∧ c.toNat ≠ 8 ∧ c.toNat ≠ 9 ∧ c.toNat ≠ 10 ∧ c.toNat ≠ 12 ∧ c.toNat ≠ 13
    then .unit c.toNat
  else .char c

/-- The character with this number. -/
theorem eq_ofNat {c : Char} {n : Nat} (h : c.toNat = n) : c = Char.ofNat n := by
  rw [← h, Char.ofNat_toNat]

/-- The two last digits of an escape say which character below U+0020 it stands for. -/
theorem hexUnit_hexChar {n : Nat} (h : n < 32) :
    hexUnit? '0' '0' (hexChar (n / 16)) (hexChar (n % 16)) = some n := by
  have hall : ∀ n < 32, hexUnit? '0' '0' (hexChar (n / 16)) (hexChar (n % 16)) = some n := by decide
  exact hall n h

/-- A character that needs no escape is taken as it is. -/
theorem scanString_plain {c : Char} (h : 32 ≤ c.toNat) (hq : c ≠ '"') (hb : c ≠ '\\')
    (rest : List Char) :
    scanString (c :: rest) = (scanString rest).map fun p => (.char c :: p.1, p.2) := by
  rw [scanString.eq_def]
  split <;> simp_all [Nat.not_lt_of_le]

/-- **A written character is one piece**, whatever stands behind it. -/
theorem scanString_escape (c : Char) (rest : List Char) :
    scanString (escape c ++ rest) = (scanString rest).map fun p => (pieceOf c :: p.1, p.2) := by
  by_cases hq : c = '"'
  · subst hq
    rfl
  by_cases hb : c = '\\'
  · subst hb
    rfl
  by_cases h8 : c.toNat = 8
  · rw [eq_ofNat h8]
    rfl
  by_cases h9 : c.toNat = 9
  · rw [eq_ofNat h9]
    rfl
  by_cases h10 : c.toNat = 10
  · rw [eq_ofNat h10]
    rfl
  by_cases h12 : c.toNat = 12
  · rw [eq_ofNat h12]
    rfl
  by_cases h13 : c.toNat = 13
  · rw [eq_ofNat h13]
    rfl
  by_cases hlow : c.toNat < 32
  · have hescape :
        escape c = ['\\', 'u', '0', '0', hexChar (c.toNat / 16), hexChar (c.toNat % 16)] := by
      simp [escape, hq, hb, h8, h9, h10, h12, h13, hlow]
    have hpiece : pieceOf c = .unit c.toNat := by
      simp [pieceOf, hlow, h8, h9, h10, h12, h13]
    rw [hescape, hpiece]
    simp only [List.cons_append, List.nil_append]
    rw [scanString, hexUnit_hexChar hlow]
  · have hpiece : pieceOf c = .char c := by
      simp [pieceOf, hlow]
    rw [escape_of_plain (by omega) hq hb, hpiece]
    exact scanString_plain (by omega) hq hb rest

/-- **A written string is taken apart into its pieces**, up to its closing quotation mark. -/
theorem scanString_quote (s rest : List Char) :
    scanString (s.flatMap escape ++ ['"'] ++ rest) = some (s.map pieceOf, rest) := by
  rw [List.append_assoc, List.singleton_append]
  induction s with
  | nil => rfl
  | cons c s ih =>
    rw [List.flatMap_cons, List.append_assoc, scanString_escape, ih]
    rfl

/-- A unit that is no surrogate is a character by itself. -/
theorem joinPieces_unit {n : Nat} (h : n < 0xd800) (ps : List Piece) :
    joinPieces (.unit n :: ps) = (joinPieces ps).map (Char.ofNat n :: ·) := by
  have hhigh : isHighSurrogate n = false := by
    simp [isHighSurrogate]
    omega
  have hlow : isLowSurrogate n = false := by
    simp [isLowSurrogate]
    omega
  rcases ps with _ | ⟨c | m, ps⟩ <;> simp [joinPieces, hhigh, hlow]

/-- The piece of a character is joined to that character. -/
theorem joinPieces_pieceOf (c : Char) (ps : List Piece) :
    joinPieces (pieceOf c :: ps) = (joinPieces ps).map (c :: ·) := by
  unfold pieceOf
  split
  · next h => rw [joinPieces_unit (by omega), Char.ofNat_toNat]
  · rfl

/-- **The pieces of a string are joined to that string.** -/
theorem joinPieces_pieces (s : List Char) : joinPieces (s.map pieceOf) = some s := by
  induction s with
  | nil => rfl
  | cons c s ih => rw [List.map_cons, joinPieces_pieceOf, ih, Option.map_some]

/-- The content of a written text is the text. -/
theorem contentOf_pieces (s : String) : contentOf (s.toList.map pieceOf) = some s := by
  rw [contentOf, joinPieces_pieces, Option.map_some, String.ofList_toList]

/-! ### Numbers -/

/-- The text does not go on with a number in front of it. -/
def Ends (s : List Char) : Prop :=
  ∀ c ∈ s.head?, isDigit c = false ∧ c ≠ '.' ∧ c ≠ 'e' ∧ c ≠ 'E'

theorem ends_nil : Ends [] := by
  simp [Ends]

theorem ends_cons {c : Char} (s : List Char) (h : isDigit c = false ∧ c ≠ '.' ∧ c ≠ 'e' ∧ c ≠ 'E') :
    Ends (c :: s) := by
  simpa [Ends] using h

variable {s rest : List Char}

/-- What stands behind a text does not change the digits at its front. -/
theorem scanDigits_append_ends (s : List Char) (hrest : Ends rest) :
    scanDigits (s ++ rest) = ((scanDigits s).1, (scanDigits s).2 ++ rest) := by
  induction s with
  | nil =>
    cases rest with
    | nil => rfl
    | cons c rest => simp [scanDigits, (hrest c rfl).1]
  | cons c s ih =>
    simp only [scanDigits, Prod.mk.injEq] at ih ⊢
    by_cases hc : isDigit c = true
    · simp [hc, ih.1, ih.2]
    · simp [hc]

/-- Nor its whole digits. -/
theorem scanWhole_append {ds r : List Char} (hrest : Ends rest) (h : scanWhole s = some (ds, r)) :
    scanWhole (s ++ rest) = some (ds, r ++ rest) := by
  unfold scanWhole at h ⊢
  rw [scanDigits_append_ends s hrest]
  rcases hs : scanDigits s with ⟨ds', r'⟩
  rw [hs] at h
  dsimp only at h ⊢
  split at h <;> simp_all

/-- Without a point in front there is no fraction. -/
theorem scanFraction_of_ne {c : Char} (h : c ≠ '.') (s : List Char) :
    scanFraction (c :: s) = some (none, c :: s) := by
  unfold scanFraction
  split <;> simp_all

/-- Nor its fraction. -/
theorem scanFraction_append {f : Option (List Char)} {r : List Char} (hrest : Ends rest)
    (h : scanFraction s = some (f, r)) : scanFraction (s ++ rest) = some (f, r ++ rest) := by
  cases s with
  | nil =>
    cases h
    cases rest with
    | nil => rfl
    | cons c rest => exact scanFraction_of_ne (hrest c rfl).2.1 rest
  | cons c s =>
    by_cases hc : c = '.'
    · subst hc
      rw [List.cons_append, scanFraction, scanDigits_append_ends s hrest]
      rw [scanFraction] at h
      rcases hs : scanDigits s with ⟨ds, r'⟩
      rw [hs] at h
      dsimp only at h ⊢
      split at h <;> simp_all
    · rw [scanFraction_of_ne hc] at h
      cases h
      exact scanFraction_of_ne hc (s ++ rest)

/-- Nor its exponent. -/
theorem scanExponent_append {e : Option (Bool × List Char)} {r : List Char} (hrest : Ends rest)
    (h : scanExponent s = some (e, r)) : scanExponent (s ++ rest) = some (e, r ++ rest) := by
  cases s with
  | nil =>
    cases h
    cases rest with
    | nil => rfl
    | cons c rest => simp [scanExponent, (hrest c rfl).2.2]
  | cons c s =>
    rw [List.cons_append, scanExponent]
    rw [scanExponent] at h
    split
    · next hc =>
      rw [if_pos hc] at h
      have hsign : s ≠ [] := by
        rintro rfl
        simp [scanExponentSign, scanDigits] at h
      have hsign : scanExponentSign (s ++ rest)
          = ((scanExponentSign s).1, (scanExponentSign s).2 ++ rest) := by
        cases s with
        | nil => exact absurd rfl hsign
        | cons d s =>
          unfold scanExponentSign
          split <;> split <;> simp_all
      rw [hsign]
      dsimp only at h ⊢
      rw [scanDigits_append_ends _ hrest]
      rcases hs : scanDigits (scanExponentSign s).2 with ⟨ds, r'⟩
      rw [hs] at h
      dsimp only at h ⊢
      split at h <;> simp_all
    · next hc =>
      rw [if_neg hc] at h
      cases h
      rfl

/-- **A number that ends a text is the same number in front of another text.** -/
theorem scanUnsigned_append {negative : Bool} {n : Numeral} (hrest : Ends rest)
    (h : scanUnsigned negative s = some (n, [])) :
    scanUnsigned negative (s ++ rest) = some (n, rest) := by
  unfold scanUnsigned at h
  obtain ⟨⟨ds, r⟩, hwhole, h⟩ := Option.bind_eq_some_iff.1 h
  obtain ⟨⟨f, r'⟩, hfraction, h⟩ := Option.bind_eq_some_iff.1 h
  obtain ⟨⟨e, r''⟩, hexponent, h⟩ := Option.bind_eq_some_iff.1 h
  obtain ⟨rfl, rfl⟩ : (⟨negative, ds, f, e⟩ : Numeral) = n ∧ r'' = [] := by simpa using h
  simp [scanUnsigned, scanWhole_append hrest hwhole, scanFraction_append hrest hfraction,
    scanExponent_append hrest hexponent]

/-- The value of the number that a text is, if it is one. -/
def numberOf? : List Char → Option Number
  | '-' :: s => (scanUnsigned true s).bind fun p => if p.2 = [] then p.1.value? else none
  | s => (scanUnsigned false s).bind fun p => if p.2 = [] then p.1.value? else none

/-- What a number comes back as. -/
def reread? (n : Number) : Option Number :=
  numberOf? (numberChars n)

/-- A digit in the range of characters and one by its number are the same. -/
theorem isDigit_of_isDigit {c : Char} (h : c.isDigit = true) : isDigit c = true := by
  rw [Char.isDigit_iff_toNat] at h
  simp only [isDigit, Bool.and_eq_true, decide_eq_true_eq]
  exact h

/-- The decimal digits of a positive number do not begin with zero. -/
theorem head_toDigits {n : Nat} (h : 0 < n) : ∃ c s, Nat.toDigits 10 n = c :: s ∧ c ≠ '0' := by
  induction n using Nat.base_induction 10 (by decide) with
  | single m hm =>
    refine ⟨m.digitChar, [], Nat.toDigits_of_lt_base hm, ?_⟩
    have hall : ∀ m < 10, 0 < m → m.digitChar ≠ '0' := by decide
    exact hall m hm h
  | digit m k hk hm ih =>
    obtain ⟨c, s, hs, hc⟩ := ih hm
    refine ⟨c, s ++ Nat.toDigits 10 k, ?_, hc⟩
    rw [← Nat.toDigits_append_toDigits (by decide) hm hk, hs, List.cons_append]

/-- Decimal digits are the whole digits of a number. -/
theorem scanWhole_toDigits (n : Nat) :
    scanWhole (Nat.toDigits 10 n) = some (Nat.toDigits 10 n, []) := by
  have hdigits : scanDigits (Nat.toDigits 10 n) = (Nat.toDigits 10 n, []) := by
    have hall : ∀ c ∈ Nat.toDigits 10 n, isDigit c = true :=
      fun c hc => isDigit_of_isDigit (Nat.isDigit_of_mem_toDigits (by decide) (by decide) hc)
    simpa using scanDigits_append (s := []) hall (by simp)
  rcases Nat.eq_zero_or_pos n with rfl | hpos
  · rfl
  · obtain ⟨c, s, hs, hc⟩ := head_toDigits hpos
    unfold scanWhole
    rw [hdigits, hs]
    split <;> simp_all

/-- They are the number, without fraction and exponent. -/
theorem scanUnsigned_toDigits (negative : Bool) (n : Nat) :
    scanUnsigned negative (Nat.toDigits 10 n)
      = some (⟨negative, Nat.toDigits 10 n, none, none⟩, []) := by
  simp [scanUnsigned, scanWhole_toDigits, scanFraction, scanExponent]

/-- More digits make no smaller number. -/
theorem le_ofDigitChars (ds : List Char) (acc : Nat) : acc ≤ Nat.ofDigitChars 10 ds acc := by
  induction ds generalizing acc with
  | nil => simp
  | cons c ds ih =>
    have hnext := ih (10 * acc + (c.toNat - '0'.toNat))
    rw [Nat.ofDigitChars_cons]
    omega

/-- Digits whose value fits in sixty-four bits are gathered whole. -/
theorem gather_of_lt {ds : List Char} {acc : Nat}
    (h : Nat.ofDigitChars 10 ds acc < Numeral.wordBound) :
    Numeral.gather acc ds = (Nat.ofDigitChars 10 ds acc, []) := by
  induction ds generalizing acc with
  | nil => simp [Numeral.gather]
  | cons c ds ih =>
    rw [Nat.ofDigitChars_cons] at h ⊢
    have hnext : acc * 10 + Numeral.digit c = 10 * acc + (c.toNat - '0'.toNat) := by
      simp only [Numeral.digit]
      change _ = 10 * acc + (c.toNat - 48)
      omega
    have hfits := le_ofDigitChars ds (10 * acc + (c.toNat - '0'.toNat))
    simp only [Numeral.gather, hnext]
    rw [if_pos (by omega), ih h]

/-- Decimal digits are gathered to the number they are written for. -/
theorem gather_toDigits {n : Nat} (h : n < Numeral.wordBound) :
    Numeral.gather 0 (Nat.toDigits 10 n) = (n, []) := by
  rw [gather_of_lt (by rwa [Nat.ofDigitChars_ten_toDigits]), Nat.ofDigitChars_ten_toDigits]

/-- A whole number that fits in sixty-four bits, with or without a sign. -/
def IsWord : Number → Prop
  | .whole i => -(Nat.pow 2 63 : Nat) ≤ i ∧ i < (Nat.pow 2 64 : Nat)
  | .double _ => False

/-- Digits that fit in sixty-four bits are a whole number. -/
theorem value_toDigits {n : Nat} (h : n < Numeral.wordBound) :
    Numeral.value? ⟨false, Nat.toDigits 10 n, none, none⟩ = some (.whole n) := by
  simp [Numeral.value?, Numeral.wholeValue?, gather_toDigits h]

/-- So are those behind a minus sign that fit in sixty-three, and those of the least number. -/
theorem value_toDigits_negative {n : Nat} (h : 0 < n) (hn : n ≤ Nat.pow 2 63) :
    Numeral.value? ⟨true, Nat.toDigits 10 n, none, none⟩ = some (.whole (-(n : Int))) := by
  have hbound : Nat.pow 2 63 < Numeral.wordBound := by decide
  have hfits : ¬ (n = 0 ∨ Nat.pow 2 63 < n) := by omega
  simp only [Numeral.value?, Numeral.wholeValue?, gather_toDigits (Nat.lt_of_le_of_lt hn hbound)]
  simp [hfits]

/-- A text without a sign is a number by its digits. -/
theorem numberOf_of_ne {c : Char} {s : List Char} (h : c ≠ '-') :
    numberOf? (c :: s) = (scanUnsigned false (c :: s)).bind fun p => if p.2 = [] then p.1.value?
      else none := by
  unfold numberOf?
  split <;> simp_all

/-- **A whole number of sixty-four bits comes back.** -/
theorem reread_whole {n : Number} (h : IsWord n) : reread? n = some n := by
  cases n with
  | double x => exact h.elim
  | whole i =>
    obtain ⟨hlow, hhigh⟩ := h
    have hbound : Numeral.wordBound = Nat.pow 2 64 := rfl
    by_cases hi : i < 0
    · have hchars : numberChars (.whole i) = '-' :: Nat.toDigits 10 i.natAbs := by
        simp [numberChars, hi]
      rw [reread?, hchars, numberOf?, scanUnsigned_toDigits]
      simp only [Option.bind_some, if_true]
      rw [value_toDigits_negative (by omega) (by omega)]
      congr
      omega
    · have hchars : numberChars (.whole i) = Nat.toDigits 10 i.natAbs := by
        simp [numberChars, hi]
      obtain ⟨c, s, hs⟩ :=
        List.exists_cons_of_ne_nil (Nat.toDigits_ne_nil (n := i.natAbs) (b := 10))
      have hdigit : c.isDigit = true :=
        Nat.isDigit_of_mem_toDigits (b := 10) (n := i.natAbs) (by decide) (by decide) (by simp [hs])
      have hne : c ≠ '-' := by
        rintro rfl
        exact absurd hdigit (by decide)
      rw [reread?, hchars, hs, numberOf_of_ne hne, ← hs, scanUnsigned_toDigits]
      simp only [Option.bind_some, if_true]
      rw [value_toDigits (by omega)]
      congr
      omega

/-! ### Values -/

/-- The number's text is a numeral with a value. -/
def Legible (n : Number) : Prop :=
  (reread? n).isSome = true

/-- What a legible number comes back as. -/
def reread (n : Number) : Number :=
  (reread? n).getD n

/-- A whole number of sixty-four bits is legible. -/
theorem IsWord.legible {n : Number} (h : IsWord n) : Legible n := by
  rw [Legible, reread_whole h]
  rfl

/-- It comes back as it is. -/
theorem IsWord.reread_eq {n : Number} (h : IsWord n) : reread n = n := by
  rw [reread, reread_whole h, Option.getD_some]

mutual

/-- All numbers inside a value are of this kind. -/
def AllNumbers (P : Number → Prop) : Json → Prop
  | null => True
  | bool _ => True
  | number n => P n
  | text _ => True
  | list items => AllNumbersIn P items
  | record members => AllNumbersAmong P members

/-- All numbers inside the items of an array are of this kind. -/
def AllNumbersIn (P : Number → Prop) : List Json → Prop
  | [] => True
  | v :: items => AllNumbers P v ∧ AllNumbersIn P items

/-- All numbers inside the members of an object are of this kind. -/
def AllNumbersAmong (P : Number → Prop) : List (String × Json) → Prop
  | [] => True
  | (_, v) :: members => AllNumbers P v ∧ AllNumbersAmong P members

end

mutual

/-- Numbers of one kind are numbers of any wider kind. -/
theorem AllNumbers.imp {P Q : Number → Prop} (hPQ : ∀ n, P n → Q n) {v : Json}
    (h : v.AllNumbers P) :
    v.AllNumbers Q := by
  cases v with
  | number n => exact hPQ n h
  | list items => exact AllNumbersIn.imp hPQ h
  | record members => exact AllNumbersAmong.imp hPQ h
  | _ => trivial

theorem AllNumbersIn.imp {P Q : Number → Prop} (hPQ : ∀ n, P n → Q n) {items : List Json}
    (h : AllNumbersIn P items) : AllNumbersIn Q items := by
  cases items with
  | nil => trivial
  | cons v items => exact ⟨AllNumbers.imp hPQ h.1, AllNumbersIn.imp hPQ h.2⟩

theorem AllNumbersAmong.imp {P Q : Number → Prop} (hPQ : ∀ n, P n → Q n)
    {members : List (String × Json)}
    (h : AllNumbersAmong P members) : AllNumbersAmong Q members := by
  cases members with
  | nil => trivial
  | cons m members => exact ⟨AllNumbers.imp hPQ h.1, AllNumbersAmong.imp hPQ h.2⟩

end

mutual

/-- The value with another number in place of each. -/
def mapNumbers (f : Number → Number) : Json → Json
  | null => null
  | bool b => bool b
  | number n => number (f n)
  | text s => text s
  | list items => list (mapNumbersIn f items)
  | record members => record (mapNumbersAmong f members)

/-- The items of an array with another number in place of each inside them. -/
def mapNumbersIn (f : Number → Number) : List Json → List Json
  | [] => []
  | v :: items => mapNumbers f v :: mapNumbersIn f items

/-- The members of an object with another number in place of each inside them. -/
def mapNumbersAmong (f : Number → Number) : List (String × Json) → List (String × Json)
  | [] => []
  | (k, v) :: members => (k, mapNumbers f v) :: mapNumbersAmong f members

end

mutual

/-- Where every number is put back, the value is the same. -/
theorem mapNumbers_eq_self {P : Number → Prop} {f : Number → Number}
    (hf : ∀ n, P n → f n = n) (v : Json) (h : v.AllNumbers P) : v.mapNumbers f = v := by
  cases v with
  | number n => rw [mapNumbers, hf n h]
  | list items => rw [mapNumbers, mapNumbersIn_eq_self hf items h]
  | record members => rw [mapNumbers, mapNumbersAmong_eq_self hf members h]
  | _ => rfl

theorem mapNumbersIn_eq_self {P : Number → Prop} {f : Number → Number} (hf : ∀ n, P n → f n = n)
    (items : List Json) (h : AllNumbersIn P items) : mapNumbersIn f items = items := by
  cases items with
  | nil => rfl
  | cons v items =>
    rw [mapNumbersIn, mapNumbers_eq_self hf v h.1, mapNumbersIn_eq_self hf items h.2]

theorem mapNumbersAmong_eq_self {P : Number → Prop} {f : Number → Number} (hf : ∀ n, P n → f n = n)
    (members : List (String × Json)) (h : AllNumbersAmong P members) :
    mapNumbersAmong f members = members := by
  cases members with
  | nil => rfl
  | cons m members =>
    rw [mapNumbersAmong, mapNumbers_eq_self hf m.2 h.1, mapNumbersAmong_eq_self hf members h.2]

end

/-- A blank is none of the characters a value begins with. -/
theorem skipSpace_cons {c : Char} (h : isSpace c = false) (s : List Char) :
    skipSpace (c :: s) = c :: s := by
  simp [skipSpace, h]

/-- A digit is neither a blank nor any other character a value begins or ends with. -/
theorem ne_of_isDigit {c d : Char} (h : isDigit c = true) (hd : isDigit d = false) : c ≠ d := by
  rintro rfl
  simp [h] at hd

theorem isSpace_of_isDigit {c : Char} (h : isDigit c = true) : isSpace c = false := by
  have hne (d : Char) (hd : isDigit d = false) : c ≠ d := ne_of_isDigit h hd
  simp [isSpace, hne ' ' rfl, hne '\n' rfl, hne '\t' rfl, hne '\r' rfl]

/-- A number without a sign begins with a digit. -/
theorem scanUnsigned_head {negative : Bool} {p : Numeral × List Char}
    (h : scanUnsigned negative s = some p) :
    ∃ c t, s = c :: t ∧ isDigit c = true := by
  cases s with
  | nil => simp [scanUnsigned, scanWhole, scanDigits] at h
  | cons c t =>
    refine ⟨c, t, rfl, ?_⟩
    by_cases hc : isDigit c = true
    · exact hc
    · simp [scanUnsigned, scanWhole, scanDigits, hc] at h

/-- Where a digit stands, a number without a sign is scanned. -/
theorem scanValue_digit {c : Char} (hc : isDigit c = true) (fuel : Nat) {t rest : List Char}
    {n : Numeral} (h : scanUnsigned false (c :: t) = some (n, rest)) :
    scanValue (fuel + 1) (c :: t) = (.number n.value?, some rest) := by
  have hne (d : Char) (hd : isDigit d = false) : c ≠ d := ne_of_isDigit hc hd
  rw [scanValue, skipSpace_cons (isSpace_of_isDigit hc)]
  split <;> rename_i heq
  · exact absurd (List.cons.inj heq).1 (hne 'n' rfl)
  · exact absurd (List.cons.inj heq).1 (hne 't' rfl)
  · exact absurd (List.cons.inj heq).1 (hne 'f' rfl)
  · exact absurd (List.cons.inj heq).1 (hne '"' rfl)
  · exact absurd (List.cons.inj heq).1 (hne '[' rfl)
  · exact absurd (List.cons.inj heq).1 (hne '\x7b' rfl)
  · exact absurd (List.cons.inj heq).1 (hne '-' rfl)
  · rw [h]

/-- **A legible number is scanned whole**, up to what stands behind it. -/
theorem scanValue_number {n : Number} (h : Legible n) (fuel : Nat) (hrest : Ends rest) :
    scanValue (fuel + 1) (numberChars n ++ rest) = (.number (some (reread n)), some rest) := by
  obtain ⟨m, hm⟩ := Option.isSome_iff_exists.1 h
  rw [reread, hm, Option.getD_some]
  unfold reread? numberOf? at hm
  split at hm
  · next s hs =>
    obtain ⟨⟨k, left⟩, hscan, hvalue⟩ := Option.bind_eq_some_iff.1 hm
    obtain ⟨rfl, hvalue⟩ := (Option.ite_none_right_eq_some).1 hvalue
    rw [hs, List.cons_append, scanValue, skipSpace_cons (by rfl)]
    simp only [scanUnsigned_append hrest hscan, hvalue]
  · next s hs =>
    obtain ⟨⟨k, left⟩, hscan, hvalue⟩ := Option.bind_eq_some_iff.1 hm
    obtain ⟨rfl, hvalue⟩ := (Option.ite_none_right_eq_some).1 hvalue
    obtain ⟨c, t, hct, hc⟩ := scanUnsigned_head hscan
    have happend := scanUnsigned_append hrest hscan
    rw [hct, List.cons_append] at happend
    rw [hct, List.cons_append, scanValue_digit hc fuel happend, hvalue]

/-- **A quoted text is scanned whole.** -/
theorem scanValue_quote (s : String) (fuel : Nat) (rest : List Char) :
    scanValue (fuel + 1) (quote s.toList ++ rest) = (.text (some s), some rest) := by
  rw [quote, List.cons_append, scanValue, skipSpace_cons (by rfl)]
  simp only [scanString_quote, contentOf_pieces]

/-- A legible number begins with a digit or a sign. -/
theorem numberChars_head {n : Number} (h : Legible n) :
    ∃ c t, numberChars n = c :: t ∧ isSpace c = false ∧ c ≠ ']' := by
  obtain ⟨m, hm⟩ := Option.isSome_iff_exists.1 h
  unfold reread? numberOf? at hm
  split at hm
  · next s hs => exact ⟨'-', s, hs, rfl, by decide⟩
  · next s hs =>
    obtain ⟨p, hscan, -⟩ := Option.bind_eq_some_iff.1 hm
    obtain ⟨c, t, hct, hc⟩ := scanUnsigned_head hscan
    exact ⟨c, t, hct, isSpace_of_isDigit hc, ne_of_isDigit hc rfl⟩

/-- A written value begins neither with a blank nor with the end of an array. -/
theorem chars_head {v : Json} (h : v.AllNumbers Legible) :
    ∃ c t, v.chars = c :: t ∧ isSpace c = false ∧ c ≠ ']' := by
  cases v with
  | null => exact ⟨'n', _, rfl, rfl, by decide⟩
  | bool b => cases b <;> exact ⟨_, _, rfl, rfl, by decide⟩
  | number n => exact numberChars_head h
  | text s => exact ⟨'"', _, rfl, rfl, by decide⟩
  | list items => exact ⟨'[', _, rfl, rfl, by decide⟩
  | record members => exact ⟨'\x7b', _, rfl, rfl, by decide⟩

/-- No value is written as nothing. -/
theorem length_chars_pos {v : Json} (h : v.AllNumbers Legible) : 0 < v.chars.length := by
  obtain ⟨c, t, hchars, -⟩ := chars_head h
  simp [hchars]

/-- What stands behind an item or a member ends a number. -/
theorem ends_comma (s : List Char) : Ends (',' :: s) := ends_cons s (by decide)

theorem ends_bracket (s : List Char) : Ends (']' :: s) := ends_cons s (by decide)

theorem ends_brace (s : List Char) : Ends ('\x7d' :: s) := ends_cons s (by decide)

/-- Nor do the items of an array. -/
theorem itemChars_head {v : Json} (h : v.AllNumbers Legible) (items : List Json) :
    ∃ c t, itemChars (v :: items) = c :: t ∧ isSpace c = false ∧ c ≠ ']' := by
  obtain ⟨c, t, hchars, hc⟩ := chars_head h
  cases items with
  | nil => exact ⟨c, t, by rw [itemChars, hchars], hc⟩
  | cons w items => exact ⟨c, _, by rw [itemChars, hchars, List.cons_append], hc⟩

/-- The members of an object begin with the quotation mark of a name. -/
theorem memberChars_head (m : String × Json) (members : List (String × Json)) :
    ∃ t, memberChars (m :: members) = '"' :: t := by
  cases members with
  | nil => exact ⟨_, by rw [memberChars, quote, List.cons_append]⟩
  | cons n members => exact ⟨_, by rw [memberChars, quote, List.cons_append]⟩

/-- Behind the opening bracket of an array that is not empty its items are scanned. -/
theorem scanValue_list {c : Char} (hspace : isSpace c = false) (hc : c ≠ ']') (fuel : Nat)
    (t : List Char) :
    scanValue (fuel + 1) ('[' :: c :: t)
      = (.list (scanItems fuel (c :: t)).1, (scanItems fuel (c :: t)).2) := by
  rw [scanValue, skipSpace_cons (by rfl)]
  simp only [skipSpace_cons hspace]
  split
  · next heq => exact absurd (List.cons.inj heq).1 hc
  · rfl

/-- Behind the opening brace of an object that is not empty its members are scanned. -/
theorem scanValue_record (fuel : Nat) (t : List Char) :
    scanValue (fuel + 1) ('\x7b' :: '"' :: t) =
      (.record (scanMembers fuel ('"' :: t)).1, (scanMembers fuel ('"' :: t)).2) := by
  rw [scanValue, skipSpace_cons (by rfl)]
  simp only [skipSpace_cons (c := '"') (by rfl)]
  rfl

/-- The item in front of the closing bracket is the last. -/
theorem scanItems_last {fuel : Nat} {s : List Char} {head : Source}
    (h : scanValue fuel s = (head, some (']' :: rest))) :
    scanItems (fuel + 1) s = (.cons head .closed, some rest) := by
  rw [scanItems, h]
  rfl

/-- Behind a comma the items go on. -/
theorem scanItems_more {fuel : Nat} {s : List Char} {head : Source}
    (h : scanValue fuel s = (head, some (',' :: rest))) :
    scanItems (fuel + 1) s = (.cons head (scanItems fuel rest).1, (scanItems fuel rest).2) := by
  rw [scanItems, h]
  rfl

/-- A quoted name and a colon are followed by a value; the one in front of the closing brace
is the last. -/
theorem scanMembers_last (k : String) {fuel : Nat} {s : List Char} {value : Source}
    (h : scanValue fuel s = (value, some ('\x7d' :: rest))) :
    scanMembers (fuel + 1) (quote k.toList ++ ':' :: s)
      = (.cons (some k) value .closed, some rest) := by
  rw [quote, List.cons_append, scanMembers, skipSpace_cons (by rfl)]
  simp only [scanString_quote, contentOf_pieces, skipSpace_cons (c := ':') (by rfl), h]
  rfl

/-- Behind a comma the members go on. -/
theorem scanMembers_more (k : String) {fuel : Nat} {s : List Char} {value : Source}
    (h : scanValue fuel s = (value, some (',' :: rest))) :
    scanMembers (fuel + 1) (quote k.toList ++ ':' :: s) =
      (.cons (some k) value (scanMembers fuel rest).1, (scanMembers fuel rest).2) := by
  rw [quote, List.cons_append, scanMembers, skipSpace_cons (by rfl)]
  simp only [scanString_quote, contentOf_pieces, skipSpace_cons (c := ':') (by rfl), h]
  rfl

mutual

/-- **A written value is scanned whole**, up to what stands behind it. -/
theorem scanValue_chars (v : Json) (h : v.AllNumbers Legible) (fuel : Nat)
    (hfuel : 2 * v.chars.length ≤ fuel) {rest : List Char} (hrest : Ends rest) :
    scanValue fuel (v.chars ++ rest) = (Source.ofJson (v.mapNumbers reread), some rest) := by
  have hpos := length_chars_pos h
  obtain ⟨fuel, rfl⟩ : ∃ n, fuel = n + 1 := ⟨fuel - 1, by omega⟩
  cases v with
  | null => rfl
  | bool b => cases b <;> rfl
  | number n => exact scanValue_number h fuel hrest
  | text s => exact scanValue_quote s fuel rest
  | list items =>
    rw [chars, List.cons_append, List.append_assoc, List.singleton_append]
    cases items with
    | nil => rfl
    | cons v items =>
      have hitems := scanItems_itemChars v items h fuel (by simp [chars] at hfuel; omega) rest
      obtain ⟨c, t, hhead, hspace, hc⟩ := itemChars_head h.1 items
      rw [hhead, List.cons_append] at hitems ⊢
      rw [scanValue_list hspace hc, hitems]
      rfl
  | record members =>
    rw [chars, List.cons_append, List.append_assoc, List.singleton_append]
    cases members with
    | nil => rfl
    | cons m members =>
      have hmembers :=
        scanMembers_memberChars m members h fuel (by simp [chars] at hfuel; omega) rest
      obtain ⟨t, hhead⟩ := memberChars_head m members
      rw [hhead, List.cons_append] at hmembers ⊢
      rw [scanValue_record, hmembers]
      rfl
termination_by fuel

/-- So are the items of an array, up to its closing bracket. -/
theorem scanItems_itemChars (v : Json) (items : List Json) (h : AllNumbersIn Legible (v :: items))
    (fuel : Nat) (hfuel : 2 * (itemChars (v :: items)).length + 1 ≤ fuel) (rest : List Char) :
    scanItems fuel (itemChars (v :: items) ++ ']' :: rest) =
      (Items.ofJson (mapNumbersIn reread (v :: items)), some rest) := by
  obtain ⟨fuel, rfl⟩ : ∃ n, fuel = n + 1 := ⟨fuel - 1, by omega⟩
  cases items with
  | nil =>
    have hv := scanValue_chars v h.1 fuel (by simp [itemChars] at hfuel; omega) (ends_bracket rest)
    rw [itemChars, scanItems_last hv]
    rfl
  | cons w items =>
    have hv := scanValue_chars v h.1 fuel (by simp [itemChars] at hfuel; omega)
      (ends_comma (itemChars (w :: items) ++ ']' :: rest))
    have hitems := scanItems_itemChars w items h.2 fuel (by simp [itemChars] at hfuel ⊢; omega) rest
    rw [itemChars, List.append_assoc, List.cons_append, scanItems_more hv, hitems]
    rfl
termination_by fuel

/-- So are the members of an object, up to its closing brace. -/
theorem scanMembers_memberChars (m : String × Json) (members : List (String × Json))
    (h : AllNumbersAmong Legible (m :: members)) (fuel : Nat)
    (hfuel : 2 * (memberChars (m :: members)).length + 1 ≤ fuel) (rest : List Char) :
    scanMembers fuel (memberChars (m :: members) ++ '\x7d' :: rest) =
      (Members.ofJson (mapNumbersAmong reread (m :: members)), some rest) := by
  obtain ⟨fuel, rfl⟩ : ∃ n, fuel = n + 1 := ⟨fuel - 1, by omega⟩
  obtain ⟨k, v⟩ := m
  cases members with
  | nil =>
    have hv := scanValue_chars v h.1 fuel (by simp [memberChars] at hfuel; omega) (ends_brace rest)
    rw [memberChars, List.append_assoc, List.cons_append, scanMembers_last k hv]
    rfl
  | cons n members =>
    have hv := scanValue_chars v h.1 fuel (by simp [memberChars] at hfuel; omega)
      (ends_comma (memberChars (n :: members) ++ '\x7d' :: rest))
    have hmembers :=
      scanMembers_memberChars n members h.2 fuel (by simp [memberChars] at hfuel ⊢; omega) rest
    rw [memberChars, List.append_assoc, List.cons_append, List.append_assoc, List.cons_append,
      scanMembers_more k hv,
      hmembers]
    rfl
termination_by fuel

end

/-- **A written value comes back**, its numbers as they are read, and nothing is left of the
text. -/
theorem Source.ofChars_chars {v : Json} (h : v.AllNumbers Legible) :
    Source.ofChars v.chars = (Source.ofJson (v.mapNumbers reread), some []) := by
  have hscan := scanValue_chars v h (2 * v.chars.length + 2) (by omega) ends_nil
  rw [List.append_nil] at hscan
  exact hscan

end WalletGate.Json
