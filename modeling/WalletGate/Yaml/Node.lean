import WalletGate.Yaml.Token

/-!
# The tree of a YAML text

A text is a tree of **nodes**: scalars, sequences, and mappings whose members are kept in
their order.  What a text leaves out where a node could stand — the value behind a colon,
the item behind a dash, the whole document — is an empty plain scalar.

The tree is built from the tokens by recursive descent.  Every function takes the tokens
still unread and gives back those it leaves; it fails where the tokens fit no tree.  One
text holds one document.

* `Node.ofTokens?`, `Node.parse?` — the tree of a token list and of a text.
-/

namespace WalletGate.Yaml

/-- A value as a YAML text spells it. -/
inductive Node where
  /-- A scalar; the flag says that it stands without quotation marks. -/
  | scalar (text : String) (plain : Bool)
  | sequence (items : List Node)
  | mapping (members : List (Node × Node))
  deriving Repr, Inhabited

namespace Node

/-- What stands where the text leaves a node out. -/
def empty : Node := .scalar "" true

/-- A member of a block mapping, or the item of one without indentation, ends in front of
this token. -/
def endsMember : Token → Bool
  | .key | .value | .blockEnd => true
  | _ => false

/-- An item of a block sequence ends in front of this token. -/
def endsItem : Token → Bool
  | .blockEntry | .blockEnd => true
  | _ => false

/-- An item of a sequence without indentation of its own ends in front of this token. -/
def endsBareItem (t : Token) : Bool := endsItem t || endsMember t

/-- The parts of a pair in brackets end in front of this token. -/
def endsPairPart : Token → Bool
  | .value | .flowEntry | .flowSequenceEnd => true
  | _ => false

/-- The parts of a member in braces end in front of this token. -/
def endsFlowMember : Token → Bool
  | .value | .flowEntry | .flowMappingEnd => true
  | _ => false

/-- Between brackets and braces, a comma separates; `first` says that nothing stands in
front. -/
def separated (first : Bool) (ts : List Token) : Option (List Token) :=
  if first then some ts
  else match ts with
    | .flowEntry :: ts => some ts
    | _ => none

mutual

/-- A node.  `bare` says that the items of a sequence may stand here without indentation. -/
def build (bare : Bool) : Nat → List Token → Option (Node × List Token)
  | 0, _ => none
  | fuel + 1, ts =>
    match ts with
    | .scalar text plain :: ts => some (.scalar text plain, ts)
    | .blockEntry :: _ =>
      if bare then (buildBareItems fuel ts).map fun (is, ts) => (.sequence is, ts) else none
    | .blockSequenceStart :: ts => (buildItems fuel ts).map fun (is, ts) => (.sequence is, ts)
    | .blockMappingStart :: ts => (buildMembers fuel ts).map fun (ms, ts) => (.mapping ms, ts)
    | .flowSequenceStart :: ts =>
      (buildFlowItems true fuel ts).map fun (is, ts) => (.sequence is, ts)
    | .flowMappingStart :: ts =>
      (buildFlowMembers true fuel ts).map fun (ms, ts) => (.mapping ms, ts)
    | _ => none

/-- A node, or the empty scalar in front of a token that ends its place. -/
def buildUnless (ends : Token → Bool) (bare : Bool) : Nat → List Token → Option (Node × List Token)
  | 0, _ => none
  | fuel + 1, ts =>
    match ts with
    | [] => none
    | t :: _ => if ends t then some (empty, ts) else build bare fuel ts

/-- The value behind a colon; the empty scalar if there is no colon. -/
def buildValue (ends : Token → Bool) (bare : Bool) : Nat → List Token → Option (Node × List Token)
  | 0, _ => none
  | fuel + 1, ts =>
    match ts with
    | .value :: ts => buildUnless ends bare fuel ts
    | _ => some (empty, ts)

/-- The items of a block sequence up to its end. -/
def buildItems : Nat → List Token → Option (List Node × List Token)
  | 0, _ => none
  | fuel + 1, ts =>
    match ts with
    | .blockEntry :: ts => do
      let (i, ts) ← buildUnless endsItem false fuel ts
      let (is, ts) ← buildItems fuel ts
      pure (i :: is, ts)
    | .blockEnd :: ts => some ([], ts)
    | _ => none

/-- The items of a sequence that is indented no further than the member it belongs to. -/
def buildBareItems : Nat → List Token → Option (List Node × List Token)
  | 0, _ => none
  | fuel + 1, ts =>
    match ts with
    | .blockEntry :: ts => do
      let (i, ts) ← buildUnless endsBareItem false fuel ts
      let (is, ts) ← buildBareItems fuel ts
      pure (i :: is, ts)
    | _ => some ([], ts)

/-- The members of a block mapping up to its end. -/
def buildMembers : Nat → List Token → Option (List (Node × Node) × List Token)
  | 0, _ => none
  | fuel + 1, ts =>
    match ts with
    | .key :: ts => do
      let (k, ts) ← buildUnless endsMember true fuel ts
      let (v, ts) ← buildValue endsMember true fuel ts
      let (ms, ts) ← buildMembers fuel ts
      pure ((k, v) :: ms, ts)
    | .blockEnd :: ts => some ([], ts)
    | _ => none

/-- The items between brackets up to the closing one; a pair with a colon is a mapping of
its own.  A pair whose name is left out takes the token behind its mark along. -/
def buildFlowItems (first : Bool) : Nat → List Token → Option (List Node × List Token)
  | 0, _ => none
  | fuel + 1, ts =>
    match ts with
    | .flowSequenceEnd :: ts => some ([], ts)
    | _ => do
      match ← separated first ts with
      | .flowSequenceEnd :: ts => pure ([], ts)
      | .key :: t :: ts =>
        let (k, ts) ← if endsPairPart t then some (empty, ts) else build false fuel (t :: ts)
        let (v, ts) ← buildValue endsPairPart false fuel ts
        let (is, ts) ← buildFlowItems false fuel ts
        pure (.mapping [(k, v)] :: is, ts)
      | ts =>
        let (i, ts) ← build false fuel ts
        let (is, ts) ← buildFlowItems false fuel ts
        pure (i :: is, ts)

/-- The members between braces up to the closing one; a name without a colon has an empty
value. -/
def buildFlowMembers (first : Bool) : Nat → List Token → Option (List (Node × Node) × List Token)
  | 0, _ => none
  | fuel + 1, ts =>
    match ts with
    | .flowMappingEnd :: ts => some ([], ts)
    | _ => do
      match ← separated first ts with
      | .flowMappingEnd :: ts => pure ([], ts)
      | .key :: ts =>
        let (k, ts) ← buildUnless endsFlowMember false fuel ts
        let (v, ts) ← buildValue endsFlowMember false fuel ts
        let (ms, ts) ← buildFlowMembers false fuel ts
        pure ((k, v) :: ms, ts)
      | ts =>
        let (k, ts) ← build false fuel ts
        let (ms, ts) ← buildFlowMembers false fuel ts
        pure ((k, empty) :: ms, ts)

end

/-- The tokens that start a document. -/
def startsDocument : List Token → List Token
  | .documentStart :: ts => ts
  | ts => ts

/-- A document is empty in front of this token. -/
def endsDocument : Token → Bool
  | .documentStart | .documentEnd => true
  | _ => false

/-- The tree of a token list: one document, which may be marked at its start and at its end. -/
def ofTokens? (tokens : List Token) : Option Node := do
  let marked := tokens.head? = some .documentStart
  let fuel := 3 * tokens.length + 3
  let (node, rest) ←
    match startsDocument tokens with
    | [] => some (empty, [])
    | ts => buildUnless (fun t => marked && endsDocument t) false fuel ts
  if rest.all (· = .documentEnd) then some node else none

/-- The tree of a text, if it is well formed. -/
def parse? (text : String) : Option Node :=
  (Scanner.tokens? text.toList).bind ofTokens?

end Node

end WalletGate.Yaml
