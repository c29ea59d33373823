/-
YAML nodes.

A document is one node: a scalar, a sequence, a mapping, or an alias that stands for a
node with an anchor.  Nodes are read from tokens by the grammar of the format.  An
anchor is numbered by the names known when it is met, so that a name that is used again
keeps the numbers of other names in use.

The reader's depth is bounded by the number of tokens: every call that does not end
at once is made after a token was taken, or is followed by one that takes a token.
-/
import ClusterAccess.Yaml.Token

namespace ClusterAccess.Yaml

/-- A node. -/
inductive Node where
  /-- A scalar: its anchor, its tag, whether it was plain, and its text. -/
  | scalar (anchor : Option Nat) (tag : Option (List Char)) (plain : Bool) (text : List Char)
  | sequence (anchor : Option Nat) (tag : Option (List Char)) (items : List Node)
  | mapping (anchor : Option Nat) (tag : Option (List Char)) (entries : List (Node × Node))
  | alias (number : Nat)
  deriving Repr

instance : Inhabited Node := ⟨.scalar none none true []⟩

/-- The state of the reader. -/
structure NodeReader where
  /-- The tokens to come. -/
  tokens : List Token
  /-- The numbers of the anchors known so far, by name. -/
  anchors : List (List Char × Nat) := []
  /-- What the handles of tags stand for. -/
  handles : List (List Char × List Char) := []

/-- A step of the reader. -/
abbrev Reading := StateT NodeReader Option

namespace Reading

/-- The next token. -/
def peek : Reading (Option Token) := fun r => some (r.tokens.head?, r)

/-- Passes over the next token. -/
def skip : Reading Unit := fun r => some ((), { r with tokens := r.tokens.tail })

/-- Passes over a token that has to come next. -/
def expect (token : Token) : Reading Unit := do
  if (← peek) = some token then skip else failure

/-- Gives an anchor its number. -/
def register (name : List Char) : Reading Nat := fun r =>
  let number := r.anchors.length
  let known := r.anchors.any fun entry => entry.1 = name
  let anchors :=
    if known then r.anchors.map fun entry => if entry.1 = name then (name, number) else entry
    else r.anchors ++ [(name, number)]
  some (number, { r with anchors })

/-- The number of an anchor that was met before. -/
def resolve (name : List Char) : Reading Nat := fun r =>
  (r.anchors.lookup name).map fun number => (number, r)

/-- The full form of a tag. -/
def fullTag (handle suffix : List Char) : Reading (List Char) := fun r =>
  if handle = [] then some (suffix, r)
  else (r.handles.lookup handle).map fun lead => (lead ++ suffix, r)

/-- Reads the anchor and the tag of a node, in either order. -/
def properties : Reading (Option (List Char) × Option (List Char)) := do
  match ← peek with
  | some (.anchor name) =>
    skip
    match ← peek with
    | some (.tag handle suffix) =>
      skip
      let tag ← fullTag handle suffix
      pure (some name, some tag)
    | _ => pure (some name, none)
  | some (.tag handle suffix) =>
    skip
    let name ←
      match ← peek with
      | some (.anchor name) => do
        skip
        pure (some name)
      | _ => pure none
    let tag ← fullTag handle suffix
    pure (name, some tag)
  | _ => pure (none, none)

/-- Gives the anchor of a node its number, if it has one. -/
def registerAll : Option (List Char) → Reading (Option Nat)
  | some name => do
    let number ← register name
    pure (some number)
  | none => pure none

/-- The node that nothing stands for. -/
def blank : Node := .scalar none none true []

/-- Is the next token one of these? -/
def nextIsOneOf (tokens : List Token) : Reading Bool := do
  match ← peek with
  | some token => pure (tokens.contains token)
  | none => pure false

mutual

/-- Reads a node.  In a block it may be a block; as the value or key of a block mapping it may be
a sequence that is not indented. -/
def node : Nat → Bool → Bool → Reading Node
  | 0, _, _ => failure
  | fuel + 1, block, indentless => do
    match ← peek with
    | some (.alias name) =>
      skip
      let number ← resolve name
      pure (.alias number)
    | _ =>
      let (name, tag) ← properties
      let next ← peek
      match next with
      | some (.scalar plain text) =>
        skip
        pure (.scalar (← registerAll name) tag plain text)
      | some .flowSequenceStart =>
        skip
        let anchor ← registerAll name
        let items ← flowItems fuel true
        pure (.sequence anchor tag items)
      | some .flowMappingStart =>
        skip
        let anchor ← registerAll name
        let entries ← flowEntries fuel true
        pure (.mapping anchor tag entries)
      | _ =>
        if next = some .entry ∧ indentless then
          let anchor ← registerAll name
          let items ← looseItems fuel
          pure (.sequence anchor tag items)
        else if next = some .sequenceStart ∧ block then
          skip
          let anchor ← registerAll name
          let items ← blockItems fuel
          pure (.sequence anchor tag items)
        else if next = some .mappingStart ∧ block then
          skip
          let anchor ← registerAll name
          let entries ← blockEntries fuel
          pure (.mapping anchor tag entries)
        else if name.isSome ∨ tag.isSome then
          pure (.scalar (← registerAll name) tag true [])
        else failure

/-- Reads a node, unless one of these tokens comes next or the document ends. -/
def nodeUnless : Nat → List Token → Bool → Bool → Reading Node
  | 0, _, _, _ => failure
  | fuel + 1, tokens, block, indentless => do
    if ← nextIsOneOf tokens then pure blank else node fuel block indentless

/-- Reads the items of a block sequence. -/
def blockItems : Nat → Reading (List Node)
  | 0 => failure
  | fuel + 1 => do
    match ← peek with
    | some .entry =>
      skip
      let item ← nodeUnless fuel [.entry, .blockEnd] true false
      let rest ← blockItems fuel
      pure (item :: rest)
    | some .blockEnd =>
      skip
      pure []
    | _ => failure

/-- Reads the items of a sequence that is not indented. -/
def looseItems : Nat → Reading (List Node)
  | 0 => failure
  | fuel + 1 => do
    match ← peek with
    | some .entry =>
      skip
      let item ← nodeUnless fuel [.entry, .key, .value, .blockEnd] true false
      let rest ← looseItems fuel
      pure (item :: rest)
    | _ => pure []

/-- Reads the entries of a block mapping. -/
def blockEntries : Nat → Reading (List (Node × Node))
  | 0 => failure
  | fuel + 1 => do
    match ← peek with
    | some .key =>
      skip
      let key ← nodeUnless fuel [.key, .value, .blockEnd] true true
      let value ← blockValue fuel
      let rest ← blockEntries fuel
      pure ((key, value) :: rest)
    | some .blockEnd =>
      skip
      pure []
    | _ => failure

/-- Reads the value of a key of a block mapping. -/
def blockValue : Nat → Reading Node
  | 0 => failure
  | fuel + 1 => do
    match ← peek with
    | some .value =>
      skip
      nodeUnless fuel [.key, .value, .blockEnd] true true
    | _ => pure blank

/-- Reads the items of a flow sequence. -/
def flowItems : Nat → Bool → Reading (List Node)
  | 0, _ => failure
  | fuel + 1, first => do
    if ← nextIsOneOf [.flowSequenceEnd] then
      skip
      pure []
    else
      if !first then expect .comma
      match ← peek with
      | some .key =>
        skip
        let key ← flowPairKey fuel
        let value ← flowPairValue fuel
        let rest ← flowItems fuel false
        pure (.mapping none none [(key, value)] :: rest)
      | some .flowSequenceEnd =>
        skip
        pure []
      | _ =>
        let item ← node fuel false false
        let rest ← flowItems fuel false
        pure (item :: rest)

/-- Reads the key of a pair that is an item of a flow sequence.  A mark that ends the pair at
once is passed over. -/
def flowPairKey : Nat → Reading Node
  | 0 => failure
  | fuel + 1 => do
    if ← nextIsOneOf [.value, .comma, .flowSequenceEnd] then
      skip
      pure blank
    else node fuel false false

/-- Reads the value of a pair that is an item of a flow sequence. -/
def flowPairValue : Nat → Reading Node
  | 0 => failure
  | fuel + 1 => do
    match ← peek with
    | some .value =>
      skip
      nodeUnless fuel [.comma, .flowSequenceEnd] false false
    | _ => pure blank

/-- Reads the entries of a flow mapping. -/
def flowEntries : Nat → Bool → Reading (List (Node × Node))
  | 0, _ => failure
  | fuel + 1, first => do
    if ← nextIsOneOf [.flowMappingEnd] then
      skip
      pure []
    else
      if !first then expect .comma
      match ← peek with
      | some .key =>
        skip
        let key ← nodeUnless fuel [.value, .comma, .flowMappingEnd] false false
        let value ← flowValue fuel
        let rest ← flowEntries fuel false
        pure ((key, value) :: rest)
      | some .flowMappingEnd =>
        skip
        pure []
      | _ =>
        let key ← node fuel false false
        let rest ← flowEntries fuel false
        pure ((key, blank) :: rest)

/-- Reads the value of a key of a flow mapping. -/
def flowValue : Nat → Reading Node
  | 0 => failure
  | fuel + 1 => do
    match ← peek with
    | some .value =>
      skip
      nodeUnless fuel [.comma, .flowMappingEnd] false false
    | _ => pure blank

end

/-! ### Documents -/

/-- Reads the directives of a document. -/
def directives (seenVersion : Bool) (handles : List (List Char × List Char)) :
    List Token → Option (List (List Char × List Char) × List Token)
  | .version major minor :: rest =>
    if seenVersion ∨ major ≠ 1 ∨ (minor ≠ 1 ∧ minor ≠ 2) then none
    else directives true handles rest
  | .tagDirective handle lead :: rest =>
    if handles.any fun entry => entry.1 = handle then none
    else directives seenVersion (handles ++ [(handle, lead)]) rest
  | rest => some (handles, rest)

/-- The handles that are known without a directive. -/
def standardHandles : List (List Char × List Char) :=
  [("!".toList, "!".toList), ("!!".toList, "tag:yaml.org,2002:".toList)]

/-- Does the content of a document end before the tokens? -/
def isDocumentEdge : List Token → Bool
  | [] => true
  | .version _ _ :: _ => true
  | .tagDirective _ _ :: _ => true
  | .documentStart :: _ => true
  | .documentEnd :: _ => true
  | _ => false

/-- Reads the root of a document that starts with a mark. -/
def rootNode (fuel : Nat) : Reading Node := fun r =>
  if isDocumentEdge r.tokens then some (blank, r) else node fuel true false r

/-- Reads the root of a document, if there is a document at all. -/
def document (fuel : Nat) (tokens : List Token) : Option (Option (Node × List Token)) := do
  let (handles, rest) ← directives false [] tokens
  let handles := handles ++ standardHandles
  match tokens, rest with
  | [], _ => some none
  | _, .documentStart :: rest => do
    let (root, r) ← rootNode fuel { tokens := rest, handles }
    some (some (root, r.tokens))
  | _, rest =>
    -- A document without a mark cannot have directives.
    if rest.length ≠ tokens.length then none
    else do
      let (root, r) ← node fuel true false { tokens := rest, handles }
      some (some (root, r.tokens))

end Reading

namespace Node

/-- Reads the root node of the only document of a text; a text without one has none. -/
def parse? (text : List Char) : Option (Option Node) := do
  let tokens ← tokens? text
  match ← Reading.document (4 * tokens.length + 8) tokens with
  | none => some none
  | some (root, rest) =>
    -- Marks of the end of a document may follow, but no other document.
    if rest.all (· = .documentEnd) then some (some root) else none

mutual

/-- The marks that a node consists of: one for a scalar or an alias, and two for what has a start
and an end. -/
def size : Node → Nat
  | .scalar _ _ _ _ => 1
  | .alias _ => 1
  | .sequence _ _ items => 2 + sizeItems items
  | .mapping _ _ entries => 2 + sizeEntries entries

/-- The marks of the items. -/
def sizeItems : List Node → Nat
  | [] => 0
  | item :: rest => item.size + sizeItems rest

/-- The marks of the entries. -/
def sizeEntries : List (Node × Node) → Nat
  | [] => 0
  | entry :: rest => sizeEntry entry + sizeEntries rest

/-- The marks of an entry. -/
def sizeEntry : Node × Node → Nat
  | (key, value) => key.size + value.size

end

mutual

/-- The nodes with anchors, by number, in the order of the document. -/
def anchored : Node → List (Nat × Node)
  | .scalar anchor tag plain text =>
    (anchor.map fun n => (n, .scalar anchor tag plain text)).toList
  | .alias _ => []
  | .sequence anchor tag items =>
    (anchor.map fun n => (n, .sequence anchor tag items)).toList ++ anchoredItems items
  | .mapping anchor tag entries =>
    (anchor.map fun n => (n, .mapping anchor tag entries)).toList ++ anchoredEntries entries

/-- The nodes with anchors among the items. -/
def anchoredItems : List Node → List (Nat × Node)
  | [] => []
  | item :: rest => item.anchored ++ anchoredItems rest

/-- The nodes with anchors among the entries. -/
def anchoredEntries : List (Node × Node) → List (Nat × Node)
  | [] => []
  | entry :: rest => anchoredEntry entry ++ anchoredEntries rest

/-- The nodes with anchors in an entry. -/
def anchoredEntry : Node × Node → List (Nat × Node)
  | (key, value) => key.anchored ++ value.anchored

end

end Node

end ClusterAccess.Yaml
