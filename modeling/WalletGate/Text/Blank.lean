/-!
# Blank characters and trimming

A character is **blank** when it has the Unicode property `White_Space`: twenty-five code
points, the six ASCII ones among them.  Trimming takes every blank off both ends of a text
and nothing else.

* `not_isBlank_head_trimStart` — what is left of a text starts with no blank;
* `trimStart_append_of_blank` — any run of blanks in front of a text is invisible to trimming.
-/

namespace WalletGate.Text

/-- The code points with the Unicode property `White_Space`, as closed ranges. -/
def blankRanges : List (Nat × Nat) :=
  [(0x09, 0x0d), (0x20, 0x20), (0x85, 0x85), (0xa0, 0xa0), (0x1680, 0x1680), (0x2000, 0x200a),
   (0x2028, 0x2029), (0x202f, 0x202f), (0x205f, 0x205f), (0x3000, 0x3000)]

/-- A code point lies in one of the given closed ranges. -/
def inRanges (ranges : List (Nat × Nat)) (n : Nat) : Bool :=
  ranges.any fun r => r.1 ≤ n && n ≤ r.2

/-- The character separates words in some script: it has the property `White_Space`. -/
def isBlank (c : Char) : Bool :=
  inRanges blankRanges c.toNat

/-- The text without the blanks it starts with. -/
def trimStart (s : List Char) : List Char :=
  s.dropWhile isBlank

/-- The text without the blanks it starts and ends with. -/
def trim (s : List Char) : List Char :=
  (trimStart (trimStart s).reverse).reverse

/-- Nothing blank is left in front. -/
theorem not_isBlank_head_trimStart {s : List Char} {c : Char} {r : List Char}
    (h : trimStart s = c :: r) : isBlank c = false := by
  induction s with
  | nil => simp [trimStart] at h
  | cons a t ih =>
    by_cases ha : isBlank a
    · exact ih (by simpa [trimStart, ha] using h)
    · simp [trimStart, ha] at h
      simpa [h.1] using ha

/-- Blanks in front of a text are invisible to trimming. -/
theorem trimStart_append_of_blank {b s : List Char} (h : ∀ c ∈ b, isBlank c = true) :
    trimStart (b ++ s) = trimStart s := by
  induction b with
  | nil => rfl
  | cons a t ih =>
    have ha : isBlank a = true := h a (by simp)
    have ht := ih fun c hc => h c (by simp [hc])
    simpa [trimStart, ha] using ht

end WalletGate.Text
