import Mathlib.Data.List.TakeWhile
import Mathlib.Data.Nat.Digits.Defs
import WalletGate.Proofs.ReadTexts
import WalletGate.Proofs.SettingsText

/-!
# Chain ids as texts

A chain id has one text it is written as, and many it is read from: blanks may stand around
it, a hexadecimal number has its mark, a plus sign may stand in front of the digits, and
these may be of either case and begin with zeros.  `Spells` is that grammar, said without
the reader.

Of every other text it is told why it is no chain id.  What decides is what is left between
the blanks and behind the mark (`Remains`), and which digits stand at its front
(`DigitsAt`): nothing is left, or these digits alone are too much already, or they are not,
and then some character is no digit or there is no digit at all.

* `readDigits_append_rest` — digits and what stands behind them;
* `ofChars_of_remains` — what is read, by what remains;
* `parse_eq_ok_iff` — the texts that are read are those of the grammar;
* `display_toList` — the one text an id is written as;
* `read_exactly` — all of this together, and the same for JSON texts.
-/

namespace WalletGate

open Reading Json

/-! ### Blanks around a text -/

namespace Text

/-- The blanks around a text are trimmed, and nothing inside of it. -/
theorem trim_surrounded {front core back : List Char}
    (hblank : ∀ c ∈ front ++ back, isBlank c = true)
    (hhead : ∀ c ∈ core.head?, isBlank c = false) (hlast : ∀ c ∈ core.getLast?, isBlank c = false) :
    trim (front ++ core ++ back) = core := by
  have hstart : ∀ t : List Char, (∀ c ∈ t.head?, isBlank c = false) → trimStart t = t := by
    intro t ht
    cases t with
    | nil => rfl
    | cons c t => simp [trimStart, ht c (by simp)]
  have hback : ∀ c ∈ back.reverse, isBlank c = true := fun c hc =>
    hblank c (List.mem_append_right _ (List.mem_reverse.1 hc))
  have hcore : trimStart core.reverse = core.reverse :=
    hstart _ fun c hc => hlast c (by simpa using hc)
  rw [trim, List.append_assoc, trimStart_append_of_blank fun c hc =>
    hblank c (List.mem_append_left _ hc)]
  cases core with
  | nil =>
    have hnothing : trimStart (back ++ []) = trimStart [] :=
      trimStart_append_of_blank fun c hc => hblank c (List.mem_append_right _ hc)
    rw [List.append_nil] at hnothing
    rw [List.nil_append, hnothing]
    rfl
  | cons c core =>
    rw [hstart ((c :: core) ++ back) (by simpa using hhead), List.reverse_append,
      trimStart_append_of_blank hback, hcore,
      List.reverse_reverse]

/-- **Every text is what is left of it when it is trimmed, between blanks.** -/
theorem exists_surroundings (s : List Char) :
    ∃ front core back, s = front ++ core ++ back ∧ (∀ c ∈ front ++ back, isBlank c = true) ∧
      (∀ c ∈ core.head?, isBlank c = false) ∧ ∀ c ∈ core.getLast?, isBlank c = false := by
  have hfront : ∀ t : List Char, ∃ front rest, t = front ++ rest ∧ (∀ c ∈ front, isBlank c = true) ∧
      ∀ c ∈ rest.head?, isBlank c = false := by
    intro t
    refine ⟨t.takeWhile isBlank, trimStart t, List.takeWhile_append_dropWhile.symm, fun c hc => ?_,
      fun c hc => ?_⟩
    · exact List.mem_takeWhile_imp hc
    · obtain ⟨r, hr⟩ : ∃ r, trimStart t = c :: r := List.head?_eq_some_iff.1 hc
      exact not_isBlank_head_trimStart hr
  obtain ⟨front, rest, rfl, hblank, hhead⟩ := hfront s
  obtain ⟨back, core, hrest, hback, hlast⟩ := hfront rest.reverse
  have hrest : rest = core.reverse ++ back.reverse := by
    rw [← List.reverse_append, ← hrest, List.reverse_reverse]
  refine ⟨front, core.reverse, back.reverse, by
    rw [hrest, List.append_assoc], fun c hc => ?_, fun c hc => ?_, ?_⟩
  · rcases List.mem_append.1 hc with hc | hc
    · exact hblank c hc
    · exact hback c (List.mem_reverse.1 hc)
  · refine hhead c ?_
    rw [hrest, List.head?_append, hc]
    rfl
  · simpa using hlast

end Text

namespace ChainId

/-! ### The grammar -/

/-- What stands in front of the digits says what their radix is. -/
inductive Mark : Nat → List Char → Prop
  | lower : Mark 16 ['0', 'x']
  | upper : Mark 16 ['0', 'X']
  | none : Mark 10 []

/-- The character is the digit of this value, in lower or upper case. -/
def IsDigit (radix : Nat) (c : Char) (d : Nat) : Prop :=
  d < radix ∧ (c = hexDigit d ∨ c = (hexDigit d).toUpper)

instance (radix : Nat) (c : Char) (d : Nat) : Decidable (IsDigit radix c d) :=
  inferInstanceAs (Decidable (d < radix ∧ (c = hexDigit d ∨ c = (hexDigit d).toUpper)))

/-- The text spells the number: between blanks a mark, a plus sign or none, and at least one
digit. -/
def Spells (s : List Char) (n : Nat) : Prop :=
  ∃ front back radix mark sign cs ds,
    s = front ++ (mark ++ (sign ++ cs)) ++ back ∧ (∀ c ∈ front ++ back, Text.isBlank c = true) ∧
    Mark radix mark ∧
    (sign = [] ∨ sign = ['+']) ∧ cs ≠ [] ∧ List.Forall₂ (IsDigit radix) cs ds ∧
    n = Nat.ofDigits radix ds.reverse

/-- This is left of a text without the blanks around it and the mark of its radix. -/
def Remains (s : List Char) (radix : Nat) (body : List Char) : Prop :=
  ∃ front mark back,
    s = front ++ (mark ++ body) ++ back ∧ (∀ c ∈ front ++ back, Text.isBlank c = true) ∧
    (∀ c ∈ (mark ++ body).head?, Text.isBlank c = false) ∧
    (∀ c ∈ (mark ++ body).getLast?, Text.isBlank c = false) ∧
    Mark radix mark ∧ (mark = [] → ∀ other, Mark 16 other → ¬ other <+: body)

/-- What stands behind a plus sign, if there is one in front. -/
def unsigned : List Char → List Char
  | '+' :: cs => cs
  | cs => cs

/-- Behind the sign these digits stand, up to the end or the first character that is none. -/
def DigitsAt (radix : Nat) (body : List Char) (ds : List Nat) : Prop :=
  ∃ cs rest, unsigned body = cs ++ rest ∧ List.Forall₂ (IsDigit radix) cs ds ∧
    ∀ c ∈ rest.head?, ∀ d, ¬ IsDigit radix c d

/-! ### Digits -/

/-- Of a smaller radix there are fewer digits. -/
theorem digitValue?_eq_filter {radix : Nat} (h : radix ≤ 16) (c : Char) :
    digitValue? radix c = (digitValue? 16 c).filter (· < radix) := by
  have hboth : ∀ d, (decide (d < 16) && decide (d < radix)) = decide (d < radix) := by
    intro d
    by_cases hd : d < radix
    · simp [hd, Nat.lt_of_lt_of_le hd h]
    · simp [hd]
  simp only [digitValue?, Option.filter_filter, hboth]

/-- **The digits are the sixteen that are written, in either case.** -/
theorem digitValue?_eq_some_iff {radix : Nat} (h : radix ≤ 16) {c : Char} {d : Nat} :
    digitValue? radix c = some d ↔ IsDigit radix c d := by
  have hwritten : ∀ d < 16, digitValue? 16 (hexDigit d) = some d ∧
      digitValue? 16 (hexDigit d).toUpper = some d := by
    decide
  have hupper : ∀ d < 16, 10 ≤ d → (hexDigit d).toUpper = Char.ofNat (55 + d) := by decide
  constructor
  · intro hd
    obtain ⟨hvalue, hlt⟩ := Option.filter_eq_some_iff.1 hd
    refine ⟨of_decide_eq_true hlt, ?_⟩
    split at hvalue
    · next hrange =>
      have hbounds : 48 ≤ c.toNat ∧ c.toNat ≤ 57 := hrange
      obtain rfl := Option.some.inj hvalue
      rw [hexDigit, if_pos (by omega), show 48 + (c.toNat - 48) = c.toNat by
        omega, Char.ofNat_toNat]
      exact .inl rfl
    · split at hvalue
      · next hrange =>
        have hbounds : 97 ≤ c.toNat ∧ c.toNat ≤ 102 := hrange
        obtain rfl := Option.some.inj hvalue
        rw [hexDigit, if_neg (by omega), show 87 + (c.toNat - 87) = c.toNat by
          omega, Char.ofNat_toNat]
        exact .inl rfl
      · split at hvalue
        · next hrange =>
          have hbounds : 65 ≤ c.toNat ∧ c.toNat ≤ 70 := hrange
          obtain rfl := Option.some.inj hvalue
          rw [hupper _ (by omega) (by omega), show 55 + (c.toNat - 55) = c.toNat by
            omega, Char.ofNat_toNat]
          exact .inr rfl
        · cases hvalue
  · rintro ⟨hlt, rfl | rfl⟩
    · simp [digitValue?_eq_filter h, (hwritten d (by omega)).1, hlt]
    · simp [digitValue?_eq_filter h, (hwritten d (by omega)).2, hlt]

/-- A digit is neither blank nor a sign. -/
theorem IsDigit.plain {radix : Nat} (h : radix ≤ 16) {c : Char} {d : Nat} (hc : IsDigit radix c d) :
    Text.isBlank c = false ∧ c ≠ '+' := by
  have hall : ∀ d < 16, Text.isBlank (hexDigit d) = false ∧ hexDigit d ≠ '+' ∧
      Text.isBlank (hexDigit d).toUpper = false ∧ (hexDigit d).toUpper ≠ '+' := by
    decide
  obtain ⟨hlt, rfl | rfl⟩ := hc
  · exact ⟨(hall d (by omega)).1, (hall d (by omega)).2.1⟩
  · exact (hall d (by omega)).2.2

/-- A radix has a mark, and is ten or sixteen. -/
theorem Mark.bounds {radix : Nat} {mark : List Char} (h : Mark radix mark) :
    0 < radix ∧ radix ≤ 16 := by
  cases h <;> decide

/-- Two digits in front count as one number: the first is worth as many of the second as the
radix says. -/
theorem ofDigits_carry (radix acc d : Nat) (ds : List Nat) :
    Nat.ofDigits radix (acc :: d :: ds).reverse
      = Nat.ofDigits radix ((acc * radix + d) :: ds).reverse := by
  rw [Nat.ofDigits_reverse_cons, Nat.ofDigits_reverse_cons, Nat.ofDigits_reverse_cons,
    List.length_cons, pow_succ]
  ring

/-- A number with digits behind it is no smaller. -/
theorem le_ofDigits {radix : Nat} (h : 0 < radix) (acc : Nat) (ds : List Nat) :
    acc ≤ Nat.ofDigits radix (acc :: ds).reverse := by
  rw [Nat.ofDigits_reverse_cons]
  exact Nat.le_trans (Nat.le_mul_of_pos_left acc (Nat.pow_pos h)) (Nat.le_add_left _ _)

/-- **Digits and what stands behind them.**  If the digits are too much, that is told,
whatever follows; else what follows has to be nothing. -/
theorem readDigits_append_rest {radix : Nat} (h : 0 < radix ∧ radix ≤ 16) {cs rest : List Char}
    {ds : List Nat}
    (hcs : List.Forall₂ (IsDigit radix) cs ds) (hrest : ∀ c ∈ rest.head?, ∀ d, ¬ IsDigit radix c d)
    {acc : Nat} (hacc : acc < bound) :
    readDigits radix acc (cs ++ rest) =
      if bound ≤ Nat.ofDigits radix (acc :: ds).reverse then .error .tooLarge
      else if rest = [] then .ok (Nat.ofDigits radix (acc :: ds).reverse)
          else .error .badDigit := by
  induction hcs generalizing acc with
  | nil =>
    have hvalue : Nat.ofDigits radix [acc].reverse = acc := by simp
    rw [List.nil_append, hvalue, if_neg (Nat.not_le.2 hacc)]
    cases rest with
    | nil => rfl
    | cons c rest =>
      have hnone : digitValue? radix c = none := by
        refine Option.eq_none_iff_forall_ne_some.2 fun d hd => ?_
        exact hrest c rfl d ((digitValue?_eq_some_iff h.2).1 hd)
      rw [readDigits, hnone, if_neg (by simp)]
  | @cons c d cs ds hd _ ih =>
    rw [List.cons_append, readDigits, (digitValue?_eq_some_iff h.2).2 hd, ofDigits_carry]
    dsimp only
    by_cases hnext : bound ≤ acc * radix + d
    · rw [if_pos hnext, if_pos (Nat.le_trans hnext (le_ofDigits h.1 _ ds))]
    · rw [if_neg hnext, ih (Nat.not_le.1 hnext)]

/-! ### What is left of a text -/

/-- **A number is read by the digits at its front.** -/
theorem readNumber_of_digits {radix : Nat} (h : 0 < radix ∧ radix ≤ 16) {body cs rest : List Char}
    {ds : List Nat} (hbody : body ≠ []) (hsplit : unsigned body = cs ++ rest)
    (hcs : List.Forall₂ (IsDigit radix) cs ds)
    (hrest : ∀ c ∈ rest.head?, ∀ d, ¬ IsDigit radix c d) :
    readNumber radix body =
      if bound ≤ Nat.ofDigits radix ds.reverse then .error .tooLarge
      else if cs ≠ [] ∧ rest = [] then .ok (Nat.ofDigits radix ds.reverse)
          else .error .badDigit := by
  have hdigits := readDigits_append_rest h hcs hrest (show 0 < bound by decide)
  rw [Nat.ofDigits_reverse_zero_cons] at hdigits
  -- behind the sign stands something, else there is no digit to read
  have hread : ∀ t, t ≠ [] → t = cs ++ rest → readDigits radix 0 t =
      if bound ≤ Nat.ofDigits radix ds.reverse then .error .tooLarge
      else if cs ≠ [] ∧ rest = [] then .ok (Nat.ofDigits radix ds.reverse)
          else .error .badDigit := by
    rintro t ht rfl
    have hsome : rest = [] ↔ cs ≠ [] ∧ rest = [] := by
      refine ⟨fun hnil => ⟨fun hcs => ht (by rw [hcs, hnil]; rfl), hnil⟩, And.right⟩
    rw [hdigits]
    simp only [← hsome]
  unfold unsigned at hsplit
  unfold readNumber
  split
  · exact absurd rfl hbody
  · obtain ⟨rfl, rfl⟩ := List.append_eq_nil_iff.1 hsplit.symm
    cases hcs
    rfl
  · next digits hmore => exact hread digits (by rintro rfl; exact hmore rfl) hsplit
  · next hplus =>
    refine hread body hbody ?_
    split at hsplit
    · exact absurd rfl (hplus _)
    · exact hsplit

/-- **What is read of a text is read of what remains.** -/
theorem ofChars_of_remains {s body : List Char} {radix : Nat} (h : Remains s radix body) :
    ofChars s = (readNumber radix body).map fun n => ⟨UInt64.ofNat n⟩ := by
  obtain ⟨front, mark, back, rfl, hblank, hhead, hlast, hmark, hnone⟩ := h
  have hsplit : splitRadix (mark ++ body) = (radix, body) := by
    cases hmark with
    | lower => rfl
    | upper => rfl
    | none =>
      rw [List.nil_append]
      unfold splitRadix
      split
      · next rest => exact absurd (List.prefix_append ['0', 'x'] rest) (hnone rfl _ .lower)
      · next rest => exact absurd (List.prefix_append ['0', 'X'] rest) (hnone rfl _ .upper)
      · rfl
  rw [ofChars, Text.trim_surrounded hblank hhead hlast, hsplit]

/-- Of every text something remains. -/
theorem exists_remains (s : List Char) : ∃ radix body, Remains s radix body := by
  obtain ⟨front, core, back, hs, hblank, hhead, hlast⟩ := Text.exists_surroundings s
  by_cases hmark : ∃ mark, Mark 16 mark ∧ mark <+: core
  · obtain ⟨mark, hmark, body, rfl⟩ := hmark
    exact ⟨16, body, front, mark, back, hs, hblank, hhead, hlast, hmark, fun hnil => by
      subst hnil; cases hmark⟩
  · exact ⟨10, core, front, [], back, hs, hblank, hhead, hlast, .none, fun _ other hother hpre =>
      hmark ⟨other, hother, hpre⟩⟩

/-- Some digits stand at the front of every text, if only none. -/
theorem exists_digitsAt (radix : Nat) (body : List Char) : ∃ ds, DigitsAt radix body ds := by
  suffices hall : ∀ t : List Char, ∃ cs rest ds, t = cs ++ rest ∧
    List.Forall₂ (IsDigit radix) cs ds ∧
      ∀ c ∈ rest.head?, ∀ d, ¬ IsDigit radix c d by
    obtain ⟨cs, rest, ds, hsplit, hcs, hrest⟩ := hall (unsigned body)
    exact ⟨ds, cs, rest, hsplit, hcs, hrest⟩
  intro t
  induction t with
  | nil => exact ⟨[], [], [], rfl, .nil, by simp⟩
  | cons c t ih =>
    by_cases hc : ∃ d, IsDigit radix c d
    · obtain ⟨d, hd⟩ := hc
      obtain ⟨cs, rest, ds, rfl, hcs, hrest⟩ := ih
      exact ⟨c :: cs, rest, d :: ds, rfl, .cons hd hcs, hrest⟩
    · refine ⟨[], c :: t, [], rfl, .nil, ?_⟩
      rintro _ ⟨⟩ d hd
      exact hc ⟨d, hd⟩

/-- A radix that remains has a mark. -/
theorem Remains.bounds {s body : List Char} {radix : Nat} (h : Remains s radix body) :
    0 < radix ∧ radix ≤ 16 := by
  obtain ⟨_, _, _, _, _, _, _, hmark, _⟩ := h
  exact hmark.bounds

/-- Digits that are read have values. -/
theorem exists_digit {radix : Nat} {cs : List Char} {ds : List Nat}
    (hcs : List.Forall₂ (IsDigit radix) cs ds) :
    ∀ c ∈ cs, ∃ d, IsDigit radix c d := by
  induction hcs with
  | nil => simp
  | @cons c d cs ds hd _ ih =>
    intro a ha
    rcases List.mem_cons.1 ha with rfl | ha
    · exact ⟨d, hd⟩
    · exact ih a ha

/-- A mark of the radix sixteen goes on behind its zero with no decimal digit. -/
theorem not_isDigit_of_mark {mark : List Char} (h : Mark 16 mark) :
    ∃ x, mark = ['0', x] ∧ ∀ d, ¬ IsDigit 10 x d := by
  have hnone : ∀ x, digitValue? 10 x = none → ∀ d, ¬ IsDigit 10 x d := by
    intro x hx d hd
    rw [(digitValue?_eq_some_iff (by decide)).2 hd] at hx
    cases hx
  cases h with
  | lower => exact ⟨'x', rfl, hnone 'x' (by decide)⟩
  | upper => exact ⟨'X', rfl, hnone 'X' (by decide)⟩

/-- No mark is blank. -/
theorem Mark.plain {radix : Nat} {mark : List Char} (h : Mark radix mark) :
    ∀ c ∈ mark, Text.isBlank c = false := by
  intro c hc
  cases h with
  | lower =>
    obtain rfl | rfl : c = '0' ∨ c = 'x' := by simpa using hc
    · decide
    · decide
  | upper =>
    obtain rfl | rfl : c = '0' ∨ c = 'X' := by simpa using hc
    · decide
    · decide
  | none => cases hc

/-- **A text that spells a number leaves its sign and digits.** -/
theorem remains_of_spelled {front back mark sign cs : List Char} {radix : Nat} {ds : List Nat}
    (hblank : ∀ c ∈ front ++ back, Text.isBlank c = true) (hmark : Mark radix mark)
    (hsign : sign = [] ∨ sign = ['+']) (hcs : List.Forall₂ (IsDigit radix) cs ds) :
    Remains (front ++ (mark ++ (sign ++ cs)) ++ back) radix (sign ++ cs) := by
  have hdigit := exists_digit hcs
  have hplain : ∀ c ∈ mark ++ (sign ++ cs), Text.isBlank c = false := by
    intro c hc
    simp only [List.mem_append] at hc
    rcases hc with hc | hc | hc
    · exact hmark.plain c hc
    · rcases hsign with rfl | rfl
      · cases hc
      · rw [List.mem_singleton.1 hc]
        rfl
    · obtain ⟨d, hd⟩ := hdigit c hc
      exact (hd.plain hmark.bounds.2).1
  refine ⟨front, mark, back, rfl, hblank, fun c hc => hplain c (List.mem_of_mem_head? hc),
    fun c hc => hplain c (List.mem_of_mem_getLast? hc), hmark, fun hnil other hother hpre => ?_⟩
  -- without a mark the number is decimal: behind its zero comes a digit, where a mark has none
  subst hnil
  obtain ⟨rest, hrest⟩ := hpre
  obtain ⟨x, rfl, hx⟩ := not_isDigit_of_mark hother
  obtain rfl : radix = 10 := by
    cases hmark
    rfl
  rcases hsign with rfl | rfl
  · obtain ⟨d, hd⟩ := hdigit x (by rw [← List.nil_append cs, ← hrest]; simp)
    exact hx d hd
  · exact absurd (List.cons.inj hrest).1 (by decide)

/-! ### Which texts are read -/

/-- The number that a chain id is, from the number that was read. -/
theorem toNat_ofNat_of_lt {n : Nat} (h : n < bound) : (UInt64.ofNat n).toNat = n :=
  UInt64.toNat_ofNat_of_lt' h

/-- In front of the digits stands a plus sign or none. -/
theorem exists_sign (body : List Char) :
    ∃ sign, (sign = [] ∨ sign = ['+']) ∧ body = sign ++ unsigned body := by
  unfold unsigned
  split
  · exact ⟨['+'], .inr rfl, rfl⟩
  · exact ⟨[], .inl rfl, rfl⟩

/-- **The characters are read as an id, if they spell its number.** -/
theorem ofChars_eq_ok_iff {s : List Char} {id : ChainId} :
    ofChars s = .ok id ↔ Spells s id.value.toNat := by
  constructor
  · intro hid
    obtain ⟨radix, body, hremains⟩ := exists_remains s
    have hradix := hremains.bounds
    obtain ⟨ds, cs, rest, hsplit, hcs, hrest⟩ := exists_digitsAt radix body
    rw [ofChars_of_remains hremains] at hid
    have hbody : body ≠ [] := by
      rintro rfl
      cases hid
    rw [readNumber_of_digits hradix hbody hsplit hcs hrest] at hid
    split at hid
    · cases hid
    · next hfits =>
      split at hid
      · next hall =>
        obtain ⟨hne, rfl⟩ := hall
        obtain rfl : (⟨UInt64.ofNat (Nat.ofDigits radix ds.reverse)⟩ : ChainId) = id :=
          Except.ok.inj hid
        obtain ⟨front, mark, back, rfl, hblank, -, -, hmark, -⟩ := hremains
        obtain ⟨sign, hsign, hsigned⟩ := exists_sign body
        rw [hsigned, hsplit, List.append_nil]
        exact ⟨front, back, radix, mark, sign, cs, ds, rfl, hblank, hmark, hsign, hne, hcs,
          toNat_ofNat_of_lt (by omega)⟩
      · cases hid
  · rintro ⟨front, back, radix, mark, sign, cs, ds, rfl, hblank, hmark, hsign, hne, hcs, hvalue⟩
    have hremains := remains_of_spelled hblank hmark hsign hcs
    have hsplit : unsigned (sign ++ cs) = cs ++ [] := by
      rw [List.append_nil]
      rcases hsign with rfl | rfl
      · cases hcs with
        | nil => rfl
        | cons hd _ =>
          unfold unsigned
          split
          · next heq => exact absurd (List.cons.inj heq).1 (hd.plain hmark.bounds.2).2
          · rfl
      · rfl
    have hfits : ¬ bound ≤ Nat.ofDigits radix ds.reverse := by
      rw [← hvalue]
      exact Nat.not_le.2 id.value.toNat_lt
    rw [ofChars_of_remains hremains,
      readNumber_of_digits hmark.bounds (by simp [hne]) hsplit hcs (by simp), if_neg hfits,
      if_pos ⟨hne, rfl⟩, ← hvalue]
    simp [Except.map]

/-- **A text is read as an id, if it spells its number.** -/
theorem parse_eq_ok_iff {text : String} {id : ChainId} :
    parse text = .ok id ↔ Spells text.toList id.value.toNat := by
  rw [← ofChars_eq_ok_iff, parse]
  cases ofChars text.toList <;> simp [Except.mapError]

/-! ### Which texts are refused, and why -/

/-- Why a text of which this remains, with these digits at its front, is no chain id. -/
def reason (radix : Nat) (body : List Char) (ds : List Nat) : Misread :=
  if body = [] then .empty
  else if bound ≤ Nat.ofDigits radix ds.reverse then .tooLarge
  else .badDigit

/-- What is refused is refused for what remains of it. -/
theorem eq_reason_of_error {s body : List Char} {radix : Nat} {ds : List Nat} {cause : Misread}
    (hremains : Remains s radix body) (hds : DigitsAt radix body ds)
    (h : ofChars s = .error cause) :
    cause = reason radix body ds := by
  obtain ⟨cs, rest, hsplit, hcs, hrest⟩ := hds
  rw [ofChars_of_remains hremains] at h
  unfold reason
  by_cases hbody : body = []
  · subst hbody
    rw [if_pos rfl]
    exact (Except.error.inj h).symm
  · rw [readNumber_of_digits hremains.bounds hbody hsplit hcs hrest] at h
    rw [if_neg hbody]
    split at h
    · next htoo =>
      rw [if_pos htoo]
      exact (Except.error.inj h).symm
    · next hfits =>
      rw [if_neg hfits]
      split at h
      · cases h
      · exact (Except.error.inj h).symm

/-- **A text that spells no number that fits is refused**, and quoted as it was given. -/
theorem parse_eq_error {text : String} {body : List Char} {radix : Nat} {ds : List Nat}
    (hnone : ∀ n < bound, ¬ Spells text.toList n) (hremains : Remains text.toList radix body)
    (hds : DigitsAt radix body ds) :
    parse text = .error (.serialization
      ("invalid chain id '" ++ text ++ "': " ++ (reason radix body ds).message)) := by
  rw [parse]
  rcases hread : ofChars text.toList with cause | id
  · rw [← eq_reason_of_error hremains hds hread]
    rfl
  · exact absurd (ofChars_eq_ok_iff.1 hread) (hnone _ id.value.toNat_lt)

/-! ### The text an id is written as -/

/-- **The digits that are written are those of the number to the base sixteen.** -/
theorem hexDigits_eq_toDigits (n : Nat) : hexDigits n = Nat.toDigits 16 n := by
  have hdigit : ∀ d < 16, hexDigit d = d.digitChar := by decide
  induction n using Nat.strongRecOn with
  | ind n ih =>
    by_cases hn : n < 16
    · rw [hexDigits, dif_pos hn, Nat.toDigits_of_lt_base hn, hdigit n hn]
    · have hlast : n % 16 < 16 := Nat.mod_lt n (by decide)
      rw [digits_shift (by omega), ih (n / 16) (by omega), hdigit _ hlast,
        ← Nat.toDigits_of_lt_base hlast,
        Nat.toDigits_append_toDigits (by decide) (by omega) hlast, Nat.div_add_mod]

/-- Zero is the only number that is written with a zero in front. -/
theorem hexDigits_head {n : Nat} (h : (hexDigits n).head? = some '0') : n = 0 := by
  have hdigit : ∀ d < 16, hexDigit d = '0' → d = 0 := by decide
  induction n using Nat.strongRecOn with
  | ind n ih =>
    by_cases hn : n < 16
    · rw [hexDigits, dif_pos hn] at h
      exact hdigit n hn (Option.some.inj h)
    · obtain ⟨c, cs, hcs⟩ := List.exists_cons_of_ne_nil (hexDigits_ne_nil (n / 16))
      have hhead : (hexDigits (n / 16)).head? = some '0' := by
        rw [digits_shift (by omega), hcs] at h
        rwa [hcs]
      have hzero := ih (n / 16) (by omega) hhead
      omega

/-- An id is written as its mark and its digits. -/
theorem display_toList (id : ChainId) :
    id.display.toList = '0' :: 'x' :: Nat.toDigits 16 id.value.toNat := by
  rw [display, String.toList_ofList, toChars, hexDigits_eq_toDigits]

/-- The digits are written in lower case. -/
theorem mem_toDigits_sixteen {n : Nat} {c : Char} (h : c ∈ Nat.toDigits 16 n) :
    c ∈ "0123456789abcdef".toList := by
  have hall : ∀ d < 16, hexDigit d ∈ "0123456789abcdef".toList := by decide
  rw [← hexDigits_eq_toDigits] at h
  obtain ⟨d, hd, rfl⟩ := mem_hexDigits h
  exact hall d hd

/-- Ids that are written the same are the same. -/
theorem display_injective {a b : ChainId} (h : a.display = b.display) : a = b := by
  have hparse := parse_display a
  rw [h, parse_display b] at hparse
  exact (Except.ok.inj hparse).symm

/-! ### Ids in JSON texts -/

/-- **An id is read of a number from zero on, and of a text that spells it**; nothing else
is an id. -/
theorem readChainId_eq_ok_iff {room : Nat} {source : Source} {id : ChainId} :
    readChainId (room, source) = .ok id ↔
      (∃ n : Nat, source = .number (some (.whole n)) ∧ id = ⟨UInt64.ofNat n⟩) ∨
      ∃ s, source = .text (some s) ∧ parse s = .ok id := by
  constructor
  · intro h
    obtain ⟨v, hv, hid⟩ := bind_eq_ok h
    have hsource : _ ∨ _ ∨ source = Source.ofJson v := source_of_readFree hv
    split at hid
    · next s =>
      obtain rfl : source = .text (some s) := by simpa [Source.ofJson] using hsource
      split at hid
      · next parsed hparse =>
        obtain rfl := Except.ok.inj hid
        exact .inr ⟨s, rfl, hparse⟩
      · cases hid
    · next n =>
      obtain rfl : source = .number (some (.whole n)) := by simpa [Source.ofJson] using hsource
      split at hid
      · next hn =>
        obtain ⟨m, rfl⟩ := Int.eq_ofNat_of_zero_le hn
        exact .inl ⟨m, rfl, (Except.ok.inj hid).symm⟩
      · cases hid
    · cases hid
  · rintro (⟨n, rfl, rfl⟩ | ⟨s, rfl, hs⟩)
    · simp [readChainId, readAny, readFree]
    · simp [readChainId, readAny, readFree, hs]

/-- A text is read of a text alone. -/
theorem readText_readString_iff {text s : String} : readText readString text = .ok s ↔ Holds text
    (.text (some s)) := by
  rw [readText_eq_ok_iff]
  constructor
  · rintro ⟨source, htext, h⟩
    unfold readString readTextAs at h
    split at h
    · next heq =>
      obtain rfl := Except.ok.inj h
      obtain rfl := (Prod.mk.inj heq).2
      exact htext
    · exact absurd h (unwanted_ne_ok _ _ _)
  · intro htext
    exact ⟨_, htext, rfl⟩

/-- **The JSON texts of an id** are its number in decimal digits, and every string that
spells it. -/
theorem readText_readChainId_iff {text : String} {id : ChainId} :
    readText readChainId text = .ok id ↔
      IsWhole text.toList id.value.toNat ∨ ∃ s, readText readString text = .ok s ∧
      parse s = .ok id := by
  simp only [@readText_eq_ok_iff _ readChainId, readChainId_eq_ok_iff, readText_readString_iff]
  constructor
  · rintro ⟨source, htext, ⟨n, rfl, rfl⟩ | ⟨s, rfl, hs⟩⟩
    · obtain ⟨hwhole, hfits⟩ := holds_whole_iff.1 htext
      exact .inl (by rwa [toNat_ofNat_of_lt hfits])
    · exact .inr ⟨s, htext, hs⟩
  · rintro (hwhole | ⟨s, htext, hs⟩)
    · refine ⟨_, holds_whole_iff.2 ⟨hwhole, id.value.toNat_lt⟩, .inl ⟨_, rfl, ?_⟩⟩
      rw [UInt64.ofNat_toNat]
    · exact ⟨_, htext, .inr ⟨s, rfl, hs⟩⟩

/-- A string that is no id is refused for what is wrong with it. -/
theorem readText_readChainId_eq_error {text s : String} {fault : Fault}
    (htext : readText readString text = .ok s)
    (h : parse s = .error fault) : readText readChainId text = refuse (.badChainId fault) := by
  refine readText_eq_error (readText_readString_iff.1 htext) ?_ ?_
  · simp only [readChainId, readAny, readFree, ok_bind, h]
    rfl
  · rintro place size ⟨⟩

/-- **Chain ids are read exactly, and written in one way.**  A text is read as an id if it
spells its number, and else refused for what remains of it; what is written is read again,
and two texts are the same id if it is written the same for both.  In JSON an id is a number
in decimal digits or a string, which is read as that text. -/
theorem read_exactly :
    (∀ text id, parse text = .ok id ↔ Spells text.toList id.value.toNat) ∧
    (∀ text, (∀ n < bound, ¬ Spells text.toList n) → ∀ radix body ds,
      Remains text.toList radix body →
      DigitsAt radix body ds → parse text = .error (.serialization
        ("invalid chain id '" ++ text ++ "': " ++ (reason radix body ds).message))) ∧
    (∀ s, ∃ radix body ds, Remains s radix body ∧ DigitsAt radix body ds) ∧
    (∀ id : ChainId, parse id.display = .ok id) ∧
    (∀ id : ChainId, id.display.toList = '0' :: 'x' :: Nat.toDigits 16 id.value.toNat ∧
      (∀ c ∈ Nat.toDigits 16 id.value.toNat, c ∈ "0123456789abcdef".toList) ∧
      ((Nat.toDigits 16 id.value.toNat).head? = some '0' → id.value = 0)) ∧
    (∀ (s t : String) (a b : ChainId), parse s = .ok a → parse t = .ok b →
      (a = b ↔ a.display = b.display)) ∧
    (∀ text id, readText readChainId text = .ok id ↔
      IsWhole text.toList id.value.toNat ∨ ∃ s, readText readString text = .ok s ∧
      parse s = .ok id) ∧
    (∀ text s fault, readText readString text = .ok s → parse s = .error fault →
      readText readChainId text = refuse (.badChainId fault)) := by
  refine ⟨fun text id => parse_eq_ok_iff, fun text hnone radix body ds => parse_eq_error hnone,
    fun s => ?_, parse_display,
    fun id => ⟨display_toList id, fun c => mem_toDigits_sixteen, fun hhead => ?_⟩,
      fun s t a b _ _ => ?_,
    fun text id => readText_readChainId_iff, fun text s fault => readText_readChainId_eq_error⟩
  · obtain ⟨radix, body, hremains⟩ := exists_remains s
    obtain ⟨ds, hds⟩ := exists_digitsAt radix body
    exact ⟨radix, body, ds, hremains, hds⟩
  · rw [← hexDigits_eq_toDigits] at hhead
    exact UInt64.toNat_inj.1 (hexDigits_head hhead)
  · exact ⟨fun heq => heq ▸ rfl, display_injective⟩

/-- A number that is too large is told so, although a character behind it is no digit; one
that fits may be marked, signed and written in upper case. -/
theorem read_exactly_tooLarge :
    let text := String.ofList ('0' :: 'x' :: '1' :: (List.replicate 16 '0' ++ ['g']))
    let refusal :=
      Fault.serialization ("invalid chain id '" ++ text ++ "': " ++ Misread.tooLarge.message)
    let spelled := String.ofList [' ', '0', 'X', '+', '1', 'F']
    parse text = .error refusal ∧
      readText readChainId (Json.text text).render = refuse (.badChainId refusal) ∧
      parse spelled = .ok ⟨31⟩ ∧ readText readChainId (Json.text spelled).render = .ok ⟨31⟩ ∧
      (⟨31⟩ : ChainId).display.toList = ['0', 'x', '1', 'f'] := by
  intro text refusal spelled
  obtain ⟨hok, herror, -, -, hdisplay, -, hjson, hrefused⟩ := read_exactly
  have hstring : ∀ s, readText readString (Json.text s).render = .ok s := fun s =>
    readText_render (v := .text s) trivial rfl
  have hdigits : List.Forall₂ (IsDigit 16) ('1' :: List.replicate 16 '0')
    (1 :: List.replicate 16 0) := by decide
  have hat : DigitsAt 16 ('1' :: (List.replicate 16 '0' ++ ['g'])) (1 :: List.replicate 16 0) := by
    refine ⟨_, ['g'], rfl, hdigits, ?_⟩
    rintro _ ⟨⟩ d ⟨hd, hc⟩
    have hall : ∀ d < 16, ¬ ('g' = hexDigit d ∨ 'g' = (hexDigit d).toUpper) := by decide
    exact hall d hd hc
  have hremains : Remains text.toList 16 ('1' :: (List.replicate 16 '0' ++ ['g'])) := by
    refine ⟨[], ['0', 'x'], [], ?_, by simp, ?_, ?_, .lower, by simp⟩
    · simp [text]
    · rintro _ ⟨⟩
      decide
    · rintro _ ⟨⟩
      decide
  have hnone : ∀ n < bound, ¬ Spells text.toList n := by
    intro n hn hspells
    have hread := (hok text ⟨UInt64.ofNat n⟩).2 (by rwa [toNat_ofNat_of_lt hn])
    have hcause : ofChars text.toList = .error .tooLarge := by
      rw [String.toList_ofList]
      rfl
    rw [parse, hcause] at hread
    cases hread
  have hreason : reason 16 ('1' :: (List.replicate 16 '0' ++ ['g'])) (1 :: List.replicate 16 0)
    = .tooLarge := by decide
  have hrefusal : parse text = .error refusal := by
    rw [herror text hnone 16 _ _ hremains hat, hreason]
  have hspelled : parse spelled = .ok ⟨31⟩ := by
    refine (hok spelled _).2
      ⟨[' '], [], 16, ['0', 'X'], ['+'], ['1', 'F'], [1, 15], ?_, ?_, .upper, .inr rfl,
      by decide, by decide, by decide⟩
    · simp [spelled]
    · intro c hc
      rw [List.mem_singleton.1 hc]
      decide
  refine ⟨hrefusal, hrefused _ text refusal (hstring text) hrefusal, hspelled,
    (hjson _ _).2 (.inr ⟨spelled, hstring spelled, hspelled⟩), ?_⟩
  rw [(hdisplay _).1]
  decide

end ChainId

end WalletGate
