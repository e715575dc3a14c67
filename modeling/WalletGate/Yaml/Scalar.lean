import WalletGate.Json.SourceText
import WalletGate.Yaml.Cursor

/-!
# Scalars as they stand in a YAML text

A scalar is written plainly or between quotation marks.  In each form it may go on over
several lines: the blanks around a single line break become one space, and of several line
breaks all but the first are kept (`Gap.text`).

A plain scalar ends in front of a colon that ends a word, in front of a comment, where the
indentation gets smaller, and inside brackets also in front of the characters that structure
them.  Between double quotation marks a backslash escapes; between single ones only the mark
itself is doubled.
-/

namespace WalletGate.Yaml

/-- The blanks and line breaks between two words of a scalar. -/
structure Gap where
  /-- Blanks in front of the first line break, latest first. -/
  blanks : List Char
  /-- What the first line break stands for, if there is one. -/
  first : Option (List Char)
  /-- What the further line breaks stand for, latest first. -/
  further : List Char
  deriving DecidableEq, Repr

namespace Gap

/-- Nothing between two words. -/
def none : Gap := ⟨[], Option.none, []⟩

/-- A line ended inside the gap. -/
def hasBreak (g : Gap) : Bool := g.first.isSome

/-- There is nothing in the gap. -/
def isEmpty (g : Gap) : Bool := g.blanks.isEmpty && g.first.isNone

/-- A gap that starts with a line break that stands for nothing. -/
def escaped : Gap := ⟨[], some [], []⟩

/-- The gap with the next blank or line break. -/
def extend (c : Cursor) (g : Gap) : Gap × Cursor :=
  match c.rest with
  | [] => (g, c)
  | x :: _ =>
    if isBlank x then
      (if g.hasBreak then g else { g with blanks := x :: g.blanks }, c.forward 1)
    else
      let broken := Cursor.breakText c.rest
      (if g.hasBreak then { g with further := broken.reverse ++ g.further }
        else ⟨[], some broken, []⟩, c.nextLine)

/-- What a gap stands for. -/
def text (g : Gap) : List Char :=
  match g.first with
  | Option.none => g.blanks.reverse
  | some ['\n'] => if g.further.isEmpty then [' '] else g.further.reverse
  | some broken => broken ++ g.further.reverse

end Gap

/-- A scalar's text, and where it ends. -/
structure Scanned where
  text : String
  cursor : Cursor
  /-- Behind the scalar's last word a line ended. -/
  lineEnded : Bool

/-- A character that structures brackets. -/
def isFlowMark (c : Char) : Bool :=
  c = ',' || c = '[' || c = ']' || c = '\x7b' || c = '\x7d'

/-- A character that may not follow a colon inside a plain scalar in brackets. -/
def isFlowMarkOrQuestion (c : Char) : Bool :=
  isFlowMark c || c = '?'

/-- The scalar that was read, latest character first, up to a cursor. -/
def Scanned.upTo (c : Cursor) (acc : List Char) (gap : Gap) : Scanned :=
  ⟨String.ofList acc.reverse, c, gap.hasBreak⟩

/-- Reads a plain scalar.  `flow` says that it stands in brackets, `indent` how far it has
to be indented; `acc` holds what was read, latest first, and `gap` what lies between that
and the cursor. -/
def scanPlainFrom (flow : Bool) (indent : Int) : Nat → Cursor → List Char → Gap → Option Scanned
  | 0, c, acc, gap => some (.upTo c acc gap)
  | fuel + 1, c, acc, gap =>
    match c.rest with
    | [] => some (.upTo c acc gap)
    | x :: after =>
      if isBlank x || isBreak x then
        if x = '\t' ∧ gap.hasBreak ∧ (c.column : Int) < indent then none
        else
          let (gap, c) := gap.extend c
          scanPlainFrom flow indent fuel c acc gap
      else
        let fresh := acc.isEmpty || !gap.isEmpty
        if !gap.isEmpty && !flow && (c.column : Int) < indent then some (.upTo c acc gap)
        else if fresh && (c.isDocumentMark || x = '#') then some (.upTo c acc gap)
        else if flow && x = ':' && (after.head?.any isFlowMarkOrQuestion) then none
        else if (x = ':' && endsWord after) || (flow && isFlowMark x) then some (.upTo c acc gap)
        else scanPlainFrom flow indent fuel (c.forward 1) (x :: (gap.text.reverse ++ acc)) Gap.none

/-- Reads a plain scalar. -/
def scanPlain (flow : Bool) (indent : Int) (c : Cursor) : Option Scanned :=
  scanPlainFrom flow indent (c.rest.length + 1) c [] Gap.none

/-- The character that a letter behind a backslash stands for. -/
def escapedChar? : Char → Option Char
  | '0' => some '\x00'
  | 'a' => some '\x07'
  | 'b' => some '\x08'
  | 't' => some '\t'
  | '\t' => some '\t'
  | 'n' => some '\n'
  | 'v' => some '\x0b'
  | 'f' => some '\x0c'
  | 'r' => some '\r'
  | 'e' => some '\x1b'
  | ' ' => some ' '
  | '"' => some '"'
  | '/' => some '/'
  | '\\' => some '\\'
  | 'N' => some '\u0085'
  | '_' => some '\u00a0'
  | 'L' => some '\u2028'
  | 'P' => some '\u2029'
  | _ => none

/-- How many hexadecimal digits follow a letter behind a backslash. -/
def escapeWidth : Char → Nat
  | 'x' => 2
  | 'u' => 4
  | 'U' => 8
  | _ => 0

/-- The value of hexadecimal digits, all of them. -/
def hexValue (acc : Nat) : List Char → Option Nat
  | [] => some acc
  | c :: rest => do
    let d ← Json.hexValue? c
    hexValue (acc * 16 + d) rest

/-- The character an escape stands for and how many characters the escape has behind its
backslash. -/
def readEscape : List Char → Option (Char × Nat)
  | [] => none
  | c :: rest =>
    match escapeWidth c with
    | 0 => (escapedChar? c).map fun e => (e, 1)
    | n =>
      let digits := rest.take n
      if digits.length = n then
        match hexValue 0 digits with
        | some v =>
          if (0xd800 ≤ v ∧ v ≤ 0xdfff) ∨ 0x10ffff < v then none else some (Char.ofNat v, n + 1)
        | none => none
      else none

/-- Reads the rest of a quoted scalar.  `acc` holds what was read, latest first, and `gap`
what lies between that and the cursor. -/
def scanQuotedFrom (mark : Char) : Nat → Cursor → List Char → Gap → Option Scanned
  | 0, _, _, _ => none
  | fuel + 1, c, acc, gap =>
    match c.rest with
    | [] => none
    | x :: after =>
      if isBlank x || isBreak x then
        let (gap, c) := gap.extend c
        scanQuotedFrom mark fuel c acc gap
      else if c.isDocumentMark then none
      else
        let acc := gap.text.reverse ++ acc
        if x = mark then
          if mark = '\'' ∧ after.head? = some '\'' then
            scanQuotedFrom mark fuel (c.forward 2) ('\'' :: acc) Gap.none
          else some ⟨String.ofList acc.reverse, c.forward 1, false⟩
        else if mark = '"' ∧ x = '\\' then
          if after.head?.any isBreak then
            scanQuotedFrom mark fuel (c.forward 1).nextLine acc Gap.escaped
          else
            match readEscape after with
            | none => none
            | some (e, n) => scanQuotedFrom mark fuel (c.forward (n + 1)) (e :: acc) Gap.none
        else scanQuotedFrom mark fuel (c.forward 1) (x :: acc) Gap.none

/-- Reads a quoted scalar from its opening mark on. -/
def scanQuoted (mark : Char) (c : Cursor) : Option Scanned :=
  scanQuotedFrom mark (c.rest.length + 1) (c.forward 1) [] Gap.none

end WalletGate.Yaml
