import WalletGate.Yaml.Scalar

/-!
# Tokens of a YAML text

The structure of a YAML text is told by two things: marks such as dashes, colons and
brackets, and the columns lines start at.  The scanner turns both into **tokens**; where a
line starts further in or further out than the lines before it, blocks begin and end.

That a scalar is the name of a member shows only at the colon behind it.  So the scanner
remembers where the last name could start (`NameStart`), on one line and within 1024
characters, and puts the tokens that begin the member in front of the scalar when the colon
comes.

What lies outside of these constructs — anchors, tags, block scalars, directives — is not read.

* `Scanner.tokens?` — the tokens of a text, or none if it is not well formed.
-/

namespace WalletGate.Yaml

/-- A piece of structure, or a scalar. -/
inductive Token where
  | documentStart
  | documentEnd
  | blockSequenceStart
  | blockMappingStart
  | blockEnd
  | flowSequenceStart
  | flowSequenceEnd
  | flowMappingStart
  | flowMappingEnd
  | blockEntry
  | flowEntry
  | key
  | value
  | scalar (text : String) (plain : Bool)
  deriving DecidableEq, Repr, Inhabited

/-- Where the name of a member may have started. -/
structure NameStart where
  /-- There has to be a colon behind it. -/
  required : Bool
  /-- How many tokens come before it. -/
  tokenNumber : Nat
  line : Nat
  column : Nat
  index : Nat
  deriving Repr

/-- The scanner on its way through a text. -/
structure Scanner where
  cursor : Cursor
  /-- How many brackets are open. -/
  flow : Nat
  /-- The column of the innermost block. -/
  indent : Int
  /-- The columns of the blocks around it. -/
  outer : List Int
  /-- A member's name may start here. -/
  nameAllowed : Bool
  /-- Where a name may have started, for each open bracket, innermost first. -/
  names : List (Option NameStart)
  tokens : Array Token

namespace Scanner

/-- At the start of a text. -/
def start (s : List Char) : Scanner :=
  ⟨Cursor.start s, 0, -1, [], true, [none], #[]⟩

/-- Appends a token. -/
def emit (t : Token) (s : Scanner) : Scanner := { s with tokens := s.tokens.push t }

/-- Goes on behind the next `n` characters. -/
def skip (n : Nat) (s : Scanner) : Scanner := { s with cursor := s.cursor.forward n }

/-- The characters that are left. -/
def rest (s : Scanner) : List Char := s.cursor.rest

/-- The column of the cursor. -/
def column (s : Scanner) : Int := s.cursor.column

/-- Skips blanks, comments and line ends. -/
def skipBlanks : Nat → Scanner → Scanner
  | 0, s => s
  | fuel + 1, s =>
    match s.rest with
    | [] => s
    | c :: _ =>
      if c = ' ' ∨ (c = '\t' ∧ (0 < s.flow ∨ !s.nameAllowed)) then skipBlanks fuel (s.skip 1)
      else if c = '#' then
        skipBlanks fuel (s.skip (s.rest.takeWhile fun c => !isBreak c).length)
      else if isBreak c then
        let s := { s with cursor := s.cursor.nextLine }
        skipBlanks fuel (if s.flow = 0 then { s with nameAllowed := true } else s)
      else s

/-- Where the last name may have started, in the innermost brackets. -/
def name? (s : Scanner) : Option NameStart := s.names.head?.join

/-- Replaces where the last name may have started. -/
def setName (n : Option NameStart) (s : Scanner) : Scanner :=
  { s with names := n :: s.names.drop 1 }

/-- No name starts there after all; malformed if one had to. -/
def dropName (s : Scanner) : Option Scanner :=
  match s.name? with
  | some n => if n.required then none else some (s.setName none)
  | none => some s

/-- A name that did not end on its line, or within 1024 characters, is none. -/
def isStale (c : Cursor) (n : NameStart) : Bool :=
  n.line < c.line || n.index + 1024 < c.index

/-- Forgets the names that can no longer be; malformed if one of them had to be. -/
def dropStale (s : Scanner) : Option Scanner :=
  let stale (n : Option NameStart) : Bool := n.any (isStale s.cursor)
  if s.names.any fun n => stale n && n.any NameStart.required then none
  else some { s with names := s.names.map fun n => if stale n then none else n }

/-- Remembers that a name may start here. -/
def saveName (s : Scanner) : Option Scanner :=
  if s.nameAllowed then
    (s.dropName).map fun s =>
      s.setName
        (some ⟨s.flow = 0 && s.indent = s.column, s.tokens.size, s.cursor.line, s.cursor.column,
        s.cursor.index⟩)
  else some s

/-- Begins a block at a column, if it is further in: its first token goes to the given place. -/
def enterBlock (column : Int) (place : Nat) (t : Token) (s : Scanner) : Scanner :=
  if s.flow = 0 ∧ s.indent < column then
    { s with
      outer := s.indent :: s.outer
      indent := column
      tokens := s.tokens.insertIdxIfInBounds place t }
  else s

/-- Ends the blocks that are further in than a column. -/
def leaveBlocks (column : Int) : List Int → Scanner → Scanner
  | [], s => s
  | o :: outer, s =>
    if s.flow = 0 ∧ column < s.indent then
      leaveBlocks column outer (({ s with indent := o, outer := outer }).emit .blockEnd)
    else s

/-- Ends the blocks that are further in than a column. -/
def unwind (column : Int) (s : Scanner) : Scanner := leaveBlocks column s.outer s

/-- The start or the end of a document. -/
def scanMarker (t : Token) (s : Scanner) : Option Scanner :=
  ((s.unwind (-1)).dropName).map fun s => (({ s with nameAllowed := false }).skip 3).emit t

/-- An opening bracket. -/
def scanOpen (t : Token) (s : Scanner) : Option Scanner :=
  (s.saveName).map fun s =>
    (({ s with names := none :: s.names, flow := s.flow + 1, nameAllowed := true }).skip 1).emit t

/-- A closing bracket. -/
def scanClose (t : Token) (s : Scanner) : Option Scanner :=
  (s.dropName).map fun s =>
    let s := if s.flow = 0 then s else { s with flow := s.flow - 1, names := s.names.drop 1 }
    (({ s with nameAllowed := false }).skip 1).emit t

/-- A comma between brackets. -/
def scanComma (s : Scanner) : Option Scanner :=
  (s.dropName).map fun s => (({ s with nameAllowed := true }).skip 1).emit .flowEntry

/-- The dash in front of an item. -/
def scanDash (s : Scanner) : Option Scanner :=
  if s.flow = 0 ∧ !s.nameAllowed then none
  else
    ((s.enterBlock s.column s.tokens.size .blockSequenceStart).dropName).map fun s =>
      (({ s with nameAllowed := true }).skip 1).emit .blockEntry

/-- The question mark in front of a name. -/
def scanQuestion (s : Scanner) : Option Scanner :=
  if s.flow = 0 ∧ !s.nameAllowed then none
  else
    ((s.enterBlock s.column s.tokens.size .blockMappingStart).dropName).map fun s =>
      (({ s with nameAllowed := s.flow = 0 }).skip 1).emit .key

/-- The colon behind a name. -/
def scanColon (s : Scanner) : Option Scanner :=
  match s.name? with
  | some n =>
    let s := { s with tokens := s.tokens.insertIdxIfInBounds n.tokenNumber .key }
    let s := s.enterBlock n.column n.tokenNumber .blockMappingStart
    some ((({ s.setName none with nameAllowed := false }).skip 1).emit .value)
  | none =>
    if s.flow = 0 ∧ !s.nameAllowed then none
    else
      let s := s.enterBlock s.column s.tokens.size .blockMappingStart
      some ((({ s with nameAllowed := s.flow = 0 }).skip 1).emit .value)

/-- A scalar between quotation marks. -/
def scanQuote (mark : Char) (s : Scanner) : Option Scanner := do
  let s ← s.saveName
  let found ← scanQuoted mark s.cursor
  pure (({ s with nameAllowed := false, cursor := found.cursor }).emit (.scalar found.text false))

/-- A plain scalar. -/
def scanWord (s : Scanner) : Option Scanner := do
  let s ← s.saveName
  let found ← scanPlain (0 < s.flow) (s.indent + 1) s.cursor
  pure (({ s with
    nameAllowed := found.lineEnded, cursor := found.cursor }).emit (.scalar found.text true))

/-- The characters no plain scalar starts with. -/
def isIndicator (c : Char) : Bool :=
  "-?:,[]\x7b\x7d#&*!|>'\"%@`".toList.contains c

/-- A plain scalar may start here. -/
def startsWord (flow : Bool) : List Char → Bool
  | [] => false
  | c :: after =>
    !(isBlank c || isBreak c || isIndicator c)
      || (c = '-' && !(after.head?.any isBlank))
      || (!flow && (c = '?' || c = ':') && !endsWord after)

/-- Reads the next token. -/
def scanToken (s : Scanner) : Option Scanner :=
  match s.rest with
  | [] => some s
  | c :: after =>
    let flow : Bool := 0 < s.flow
    if s.cursor.column = 0 ∧ c = '%' then none
    else if s.cursor.isMarker '-' then s.scanMarker .documentStart
    else if s.cursor.isMarker '.' then s.scanMarker .documentEnd
    else if c = '[' then s.scanOpen .flowSequenceStart
    else if c = '\x7b' then s.scanOpen .flowMappingStart
    else if c = ']' then s.scanClose .flowSequenceEnd
    else if c = '\x7d' then s.scanClose .flowMappingEnd
    else if c = ',' then s.scanComma
    else if c = '-' ∧ endsWord after then s.scanDash
    else if c = '?' ∧ (flow ∨ endsWord after) then s.scanQuestion
    else if c = ':' ∧ (flow ∨ endsWord after) then s.scanColon
    else if c = '\'' ∨ c = '"' then s.scanQuote c
    else if startsWord flow s.rest then s.scanWord
    else none

/-- Ends the text: all blocks end. -/
def finish (s : Scanner) : Option Scanner := do
  let s ← s.dropStale
  let s := s.unwind (-1)
  s.dropName

/-- Reads tokens until the text ends. -/
def run : Nat → Scanner → Option Scanner
  | 0, _ => none
  | fuel + 1, s => do
    let s := s.skipBlanks (s.rest.length + 1)
    if s.rest.isEmpty then s.finish
    else
      let s ← s.dropStale
      let s ← (s.unwind s.column).scanToken
      run fuel s

/-- The tokens of a text, or none if it is not well formed.  A byte order mark in front of
it is skipped. -/
def tokens? (text : List Char) : Option (List Token) :=
  let body :=
    match text with
    | c :: rest => if c.toNat = 0xfeff then rest else text
    | [] => []
  if body.all isAllowed then (run (body.length + 2) (start body)).map fun s => s.tokens.toList
  else none

end Scanner

end WalletGate.Yaml
