/-
YAML tokens.

The scanner turns the characters of a document into tokens.  Blocks are told apart by
indentation, so besides the marks that stand in the text there are tokens for the
start and the end of a block, and a token in front of every key of a mapping.  A key
is recognised only when the colon after it is met: where a simple key may start the
scanner leaves an empty slot among the tokens, and fills it when the colon comes
within the same line and 1024 characters.

One step of the scanner takes one token, and at least one character.
-/
import ClusterAccess.Text.Digits

namespace ClusterAccess.Yaml

open Text

/-- A token. -/
inductive Token where
  | sequenceStart
  | mappingStart
  | blockEnd
  | flowSequenceStart
  | flowSequenceEnd
  | flowMappingStart
  | flowMappingEnd
  | entry
  | comma
  | key
  | value
  | alias (name : List Char)
  | anchor (name : List Char)
  | tag (handle suffix : List Char)
  /-- A scalar; a plain one has no quotes and is not written as a block. -/
  | scalar (plain : Bool) (text : List Char)
  | version (major minor : Nat)
  | tagDirective (handle lead : List Char)
  | documentStart
  | documentEnd
  deriving DecidableEq, Repr

/-! ### Characters -/

/-- A space or a tab. -/
def isBlank (c : Char) : Bool := c = ' ' || c = '\t'

/-- The characters that end a line. -/
def isBreak (c : Char) : Bool :=
  c = '\n' || c = '\r' || c.val = 0x85 || c.val = 0x2028 || c.val = 0x2029

/-- Does a word end before the text: at a blank, at a line break, or at the end? -/
def atGap : List Char → Bool
  | [] => true
  | c :: _ => isBlank c || isBreak c

/-- The characters of names: ASCII letters and digits, the hyphen and the underscore. -/
def isNameChar (c : Char) : Bool := c.isAlphanum || c = '-' || c = '_'

/-- The byte order mark. -/
def isByteOrderMark (c : Char) : Bool := c.val = 0xFEFF

/-- The characters that a document may hold. -/
def isAllowed (c : Char) : Bool :=
  c = '\t' || c = '\n' || c = '\r' || (0x20 ≤ c.val && c.val ≤ 0x7E) || c.val = 0x85
    || (0xA0 ≤ c.val && c.val ≤ 0xD7FF) || (0xE000 ≤ c.val && c.val ≤ 0xFFFD)
    || (0x10000 ≤ c.val && c.val ≤ 0x10FFFF)

/-- What a line break stands for in a scalar. -/
def breakText (c : Char) : Char :=
  if c = '\r' ∨ c.val = 0x85 then '\n' else c

/-- Does a text start with a mark for the start or the end of a document? -/
def atDocumentMark : List Char → Bool
  | '-' :: '-' :: '-' :: rest => atGap rest
  | '.' :: '.' :: '.' :: rest => atGap rest
  | _ => false

/-! ### Positions -/

/-- A position in a document. -/
structure Position where
  index : Nat := 0
  line : Nat := 0
  column : Nat := 0
  deriving DecidableEq, Repr

namespace Position

/-- The position after some characters of the same line. -/
def skip (p : Position) (count : Nat) : Position :=
  { p with index := p.index + count, column := p.column + count }

/-- The position after a line break of so many characters. -/
def newLine (p : Position) (count : Nat) : Position :=
  ⟨p.index + count, p.line + 1, 0⟩

end Position

/-- What a scan of a part of the text gives: a value, and where it ended. -/
structure Scanned (α : Type) where
  value : α
  rest : List Char
  position : Position

/-! ### The space between tokens -/

/-- Passes over blanks, comments and line breaks.  In a block, a new line may start a key, and
where a key may start a tab is not passed over. -/
def skipSpace (inFlow : Bool) (comment : Bool) (keyAllowed : Bool) (p : Position) :
    List Char → Scanned Bool
  | [] => ⟨keyAllowed, [], p⟩
  | '\r' :: '\n' :: rest => skipSpace inFlow false (keyAllowed || !inFlow) (p.newLine 2) rest
  | c :: rest =>
    if isBreak c then skipSpace inFlow false (keyAllowed || !inFlow) (p.newLine 1) rest
    else if comment then skipSpace inFlow true keyAllowed (p.skip 1) rest
    else if c = ' ' ∨ (c = '\t' ∧ (inFlow ∨ !keyAllowed)) then
      skipSpace inFlow false keyAllowed (p.skip 1) rest
    else if c = '#' then skipSpace inFlow true keyAllowed (p.skip 1) rest
    else if isByteOrderMark c ∧ p.column = 0 then
      skipSpace inFlow false keyAllowed (p.skip 1) rest
    else ⟨keyAllowed, c :: rest, p⟩

/-! ### Line folding

Scalars that go over several lines are folded: one line break becomes a space, and of
several all but the first are kept.
-/

/-- The blanks and line breaks after a word of a scalar. -/
structure Gap where
  /-- Blanks on the line of the word, last first. -/
  blanks : List Char := []
  /-- Was there a line break? -/
  broken : Bool := false
  /-- The first line break; an escaped one is left out. -/
  first : List Char := []
  /-- The other line breaks, last first. -/
  more : List Char := []
  deriving Repr

namespace Gap

/-- Adds a blank; blanks at the start of a line do not count. -/
def addBlank (g : Gap) (c : Char) : Gap :=
  if g.broken then g else { g with blanks := c :: g.blanks }

/-- Adds a line break. -/
def addBreak (g : Gap) (c : Char) : Gap :=
  if g.broken then { g with more := breakText c :: g.more }
  else { blanks := [], broken := true, first := [breakText c], more := [] }

/-- What a gap stands for, put in front of a reversed text. -/
def fold (g : Gap) (text : List Char) : List Char :=
  if g.broken then
    if g.first = ['\n'] then if g.more = [] then ' ' :: text else g.more ++ text
    else g.more ++ g.first ++ text
  else g.blanks ++ text

end Gap

/-! ### Plain scalars -/

/-- What a plain scalar is read as. -/
structure PlainResult where
  text : List Char
  /-- Did a line break follow it? -/
  broken : Bool

/-- Is the character one of the marks of flow collections? -/
def isFlowMark (c : Char) : Bool :=
  c = ',' || c = '[' || c = ']' || c = '\x7b' || c = '\x7d'

/-- Does a plain scalar end before the text? -/
def plainEnds (inFlow : Bool) : List Char → Bool
  | [] => true
  | ':' :: rest => atGap rest
  | c :: _ => inFlow && isFlowMark c

/-- In a flow collection, a colon must not touch a mark of the collection. -/
def plainClashes (inFlow : Bool) : List Char → Bool
  | ':' :: c :: _ => inFlow && (isFlowMark c || c = '?')
  | _ => false

/-- Reads a plain scalar.  `text` is what was read so far, last first, and `gap` what followed;
`indent` is the least column of a further line. -/
def scanPlain (inFlow : Bool) (indent : Nat) (text : List Char) (gap : Option Gap)
    (p : Position) : List Char → Option (Scanned PlainResult)
  | [] => some ⟨⟨text.reverse, (gap.map Gap.broken).getD false⟩, [], p⟩
  | '\r' :: '\n' :: rest =>
    scanPlain inFlow indent text (some ((gap.getD {}).addBreak '\n')) (p.newLine 2) rest
  | c :: rest =>
    if isBreak c then
      scanPlain inFlow indent text (some ((gap.getD {}).addBreak c)) (p.newLine 1) rest
    else if isBlank c then
      let gap := gap.getD {}
      if gap.broken ∧ p.column < indent ∧ c = '\t' then none
      else scanPlain inFlow indent text (some (gap.addBlank c)) (p.skip 1) rest
    else
      let fresh := gap.isSome ∨ text = []
      let outdented := gap.isSome ∧ !inFlow ∧ p.column < indent
      let marked := fresh ∧ ((p.column = 0 ∧ atDocumentMark (c :: rest)) ∨ c = '#')
      if ¬(outdented ∨ marked) ∧ plainClashes inFlow (c :: rest) then none
      else if outdented ∨ marked ∨ plainEnds inFlow (c :: rest) then
        some ⟨⟨text.reverse, (gap.map Gap.broken).getD false⟩, c :: rest, p⟩
      else scanPlain inFlow indent (c :: ((gap.getD {}).fold text)) none (p.skip 1) rest

/-! ### Quoted scalars -/

/-- Where the reader of a quoted scalar stands. -/
inductive QuoteMode where
  | word
  /-- Among blanks and line breaks. -/
  | gap (g : Gap)
  /-- After a backslash. -/
  | escape
  /-- In a numeric escape, with its value so far and the digits still to come. -/
  | code (value left : Nat)
  deriving Repr

/-- What a letter after a backslash stands for. -/
def escapeText? (c : Char) : Option Char :=
  match c with
  | '0' => some '\x00'
  | 'a' => some '\x07'
  | 'b' => some '\x08'
  | 't' => some '\t'
  | '\t' => some '\t'
  | 'n' => some '\n'
  | 'v' => some '\x0b'
  | 'f' => some '\x0c'
  | 'r' => some '\r'
  | 'e' => some '\x1b'
  | ' ' => some ' '
  | '\x22' => some '\x22'
  | '/' => some '/'
  | '\x5c' => some '\x5c'
  | 'N' => some (Char.ofNat 0x85)
  | '_' => some (Char.ofNat 0xA0)
  | 'L' => some (Char.ofNat 0x2028)
  | 'P' => some (Char.ofNat 0x2029)
  | _ => none

/-- The digits of the numeric escape that a letter starts. -/
def codeLength? (c : Char) : Option Nat :=
  match c with
  | 'x' => some 2
  | 'u' => some 4
  | 'U' => some 8
  | _ => none

/-- Is the number that of a character? -/
def isScalarValue (n : Nat) : Bool :=
  n < 0xD800 || (0xE000 ≤ n && n ≤ 0x10FFFF)

/-- Reads a quoted scalar up to its closing quote; `text` is what was read so far, last first. -/
def scanQuoted (single : Bool) (text : List Char) (mode : QuoteMode) (p : Position) :
    List Char → Option (Scanned (List Char))
  | [] => none
  | c :: rest =>
    match mode with
    | .code value left =>
      match hexDigit? c with
      | none => none
      | some d =>
        let value := value * 16 + d
        if left ≤ 1 then
          if isScalarValue value then
            scanQuoted single (Char.ofNat value :: text) .word (p.skip 1) rest
          else none
        else scanQuoted single text (.code value (left - 1)) (p.skip 1) rest
    | .escape =>
      if isBreak c then
        let gap : Gap := { broken := true }
        match c, rest with
        | '\r', '\n' :: rest => scanQuoted single text (.gap gap) (p.newLine 2) rest
        | _, rest => scanQuoted single text (.gap gap) (p.newLine 1) rest
      else
        match escapeText? c, codeLength? c with
        | some plain, _ => scanQuoted single (plain :: text) .word (p.skip 1) rest
        | none, some left => scanQuoted single text (.code 0 left) (p.skip 1) rest
        | none, none => none
    | mode =>
      let gap : Option Gap :=
        match mode with
        | .gap g => some g
        | _ => none
      if isBreak c then
        match c, rest with
        | '\r', '\n' :: rest =>
          scanQuoted single text (.gap ((gap.getD {}).addBreak '\n')) (p.newLine 2) rest
        | c, rest => scanQuoted single text (.gap ((gap.getD {}).addBreak c)) (p.newLine 1) rest
      else if isBlank c then
        scanQuoted single text (.gap ((gap.getD {}).addBlank c)) (p.skip 1) rest
      else
        let text := (gap.getD {}).fold text
        if p.column = 0 ∧ gap.isSome ∧ atDocumentMark (c :: rest) then none
        else if single then
          match c, rest with
          | '\x27', '\x27' :: rest => scanQuoted single ('\x27' :: text) .word (p.skip 2) rest
          | '\x27', rest => some ⟨text.reverse, rest, p.skip 1⟩
          | c, rest => scanQuoted single (c :: text) .word (p.skip 1) rest
        else if c = '\x22' then some ⟨text.reverse, rest, p.skip 1⟩
        else if c = '\x5c' then scanQuoted single text .escape (p.skip 1) rest
        else scanQuoted single (c :: text) .word (p.skip 1) rest

/-! ### Block scalars -/

/-- What becomes of the line breaks at the end of a block scalar. -/
inductive Chomping where
  | strip
  | clip
  | keep
  deriving DecidableEq, Repr

/-- The header of a block scalar. -/
structure BlockHeader where
  chomping : Chomping := .clip
  /-- How much deeper than its parent the scalar is, if the header says so. -/
  increment : Option Nat := none
  deriving Repr

/-- Reads the chomping mark of a header. -/
def takeChomping : List Char → Option Chomping × List Char
  | '+' :: rest => (some .keep, rest)
  | '-' :: rest => (some .strip, rest)
  | rest => (none, rest)

/-- Reads the indentation mark of a header; zero is not one. -/
def takeIncrement : List Char → Option (Option Nat × List Char)
  | c :: rest =>
    match digit? c with
    | some 0 => none
    | some n => some (some n, rest)
    | none => some (none, c :: rest)
  | [] => some (none, [])

/-- Reads the marks of a header, in either order. -/
def blockHeader? (text : List Char) : Option (BlockHeader × List Char) :=
  match takeChomping text with
  | (some chomping, rest) => do
    let (increment, rest) ← takeIncrement rest
    some (⟨chomping, increment⟩, rest)
  | (none, rest) => do
    let (increment, rest) ← takeIncrement rest
    match increment with
    | none => some (⟨.clip, none⟩, rest)
    | some n =>
      let (chomping, rest) := takeChomping rest
      some (⟨chomping.getD .clip, some n⟩, rest)

/-- A block scalar being read. -/
structure OpenBlock where
  /-- The column of its lines, once it is known. -/
  indent : Option Nat
  /-- The deepest column of a blank line in front of the first line. -/
  deepest : Nat := 0
  /-- What was read so far, last first. -/
  text : List Char := []
  /-- The line break after the last line. -/
  lineBreak : List Char := []
  /-- The line breaks of the blank lines after it, last first. -/
  blankLines : List Char := []
  /-- Did the last line start with a blank? -/
  indented : Bool := false
  deriving Repr

namespace OpenBlock

/-- The column of the lines, given the least one they may have. -/
def settled (b : OpenBlock) (least : Nat) : Nat :=
  b.indent.getD (max b.deepest (max least 1))

/-- Starts a line with a character: what stands before it is joined or folded. -/
def startLine (b : OpenBlock) (literal : Bool) (least : Nat) (c : Char) : OpenBlock :=
  let folds := !literal && b.lineBreak = ['\n'] && !b.indented && !isBlank c
  let text :=
    if folds then if b.blankLines = [] then ' ' :: b.text else b.blankLines ++ b.text
    else b.blankLines ++ b.lineBreak ++ b.text
  { indent := some (b.settled least), deepest := b.deepest, text := c :: text
    indented := isBlank c }

/-- The text of a block scalar at its end. -/
def finish (b : OpenBlock) : Chomping → List Char
  | .strip => b.text.reverse
  | .clip => (b.lineBreak ++ b.text).reverse
  | .keep => (b.blankLines ++ b.lineBreak ++ b.text).reverse

end OpenBlock

/-- Reads the lines of a block scalar.  `inLine` tells whether the reader stands in a line or in
front of one, and `least` is the least column of the lines. -/
def scanBlock (literal : Bool) (least : Nat) (b : OpenBlock) (inLine : Bool) (p : Position) :
    List Char → Option (Scanned OpenBlock)
  | [] => some ⟨b, [], p⟩
  | '\r' :: '\n' :: rest =>
    if inLine then scanBlock literal least { b with lineBreak := ['\n'] } false (p.newLine 2) rest
    else
      scanBlock literal least
        { b with blankLines := '\n' :: b.blankLines, deepest := max b.deepest p.column } false
        (p.newLine 2) rest
  | c :: rest =>
    if inLine then
      if isBreak c then
        scanBlock literal least { b with lineBreak := [breakText c] } false (p.newLine 1) rest
      else scanBlock literal least { b with text := c :: b.text } true (p.skip 1) rest
    else
      let shallow : Bool :=
        match b.indent with
        | none => true
        | some indent => p.column < indent
      if shallow ∧ c = ' ' then scanBlock literal least b false (p.skip 1) rest
      else if shallow ∧ c = '\t' then none
      else if isBreak c then
        scanBlock literal least
          { b with blankLines := breakText c :: b.blankLines, deepest := max b.deepest p.column }
          false (p.newLine 1) rest
      else
        let b := { b with deepest := max b.deepest p.column }
        if p.column = b.settled least then
          scanBlock literal least (b.startLine literal least c) true (p.skip 1) rest
        else some ⟨b, c :: rest, p⟩

/-! ### Tags -/

/-- The characters of a tag, besides those of names. -/
def isTagChar (verbatim : Bool) (c : Char) : Bool :=
  isNameChar c || ";/?:@&=+$.%!~*()".toList.contains c || c = '\x27'
    || (verbatim && (c = ',' || c = '[' || c = ']'))

/-- Takes the percent escapes out of a tag. -/
def tagText? (text : List Char) : Option (List Char) :=
  let bytes := go text
  bytes.bind fun bytes => (String.fromUTF8? bytes.toByteArray).map String.toList
where
  /-- The bytes of a tag; every percent sign has to start an escape. -/
  go : List Char → Option (List UInt8)
    | [] => some []
    | '%' :: high :: low :: rest =>
      match hexDigit? high, hexDigit? low with
      | some h, some l => (go rest).map (UInt8.ofNat (h * 16 + l) :: ·)
      | _, _ => none
    | '%' :: _ => none
    | c :: rest => (go rest).map (String.utf8EncodeChar c ++ ·)

/-- Reads the characters of a tag. -/
def takeTagText (verbatim : Bool) (text : List Char) : Option (List Char × Nat × List Char) :=
  let raw := text.takeWhile (isTagChar verbatim)
  (tagText? raw).map fun decoded => (decoded, raw.length, text.dropWhile (isTagChar verbatim))

/-- Reads a tag that starts after its exclamation mark. -/
def scanTag (inFlow : Bool) (p : Position) (text : List Char) :
    Option (Scanned (List Char × List Char)) := do
  let result : Scanned (List Char × List Char) ←
    match text with
    | '<' :: text => do
      let (suffix, count, rest) ← takeTagText true text
      match rest with
      | '>' :: rest => if count = 0 then none else some ⟨([], suffix), rest, p.skip (count + 3)⟩
      | _ => none
    | text =>
      let name := text.takeWhile isNameChar
      match text.dropWhile isNameChar with
      | '!' :: rest => do
        let (suffix, count, rest) ← takeTagText false rest
        if count = 0 then none
        else some ⟨('!' :: name ++ ['!'], suffix), rest, p.skip (name.length + 2 + count)⟩
      | rest => do
        let (more, count, rest) ← takeTagText false rest
        let suffix := name ++ more
        let tag := if suffix = [] then ([], ['!']) else (['!'], suffix)
        some ⟨tag, rest, p.skip (name.length + 1 + count)⟩
  if atGap result.rest ∨ (inFlow ∧ result.rest.head? = some ',') then some result else none

/-! ### Directives -/

/-- Passes over blanks. -/
def dropBlanks (text : List Char) : List Char := text.dropWhile isBlank

/-- Reads a number of a version: at most nine digits. -/
def versionNumber? (text : List Char) : Option (Nat × List Char) :=
  let digits := text.takeWhile Char.isDigit
  if digits.length > 9 then none
  else (digits? digits).map fun n => (n, text.dropWhile Char.isDigit)

/-- Reads the handle of a tag directive. -/
def directiveHandle? : List Char → Option (List Char × List Char)
  | '!' :: text =>
    let name := text.takeWhile isNameChar
    match text.dropWhile isNameChar with
    | '!' :: rest => some ('!' :: name ++ ['!'], rest)
    | rest => if name = [] then some (['!'], rest) else none
  | _ => none

/-- Reads a directive that starts after its percent sign; the rest of its line is still to come. -/
def directive? (text : List Char) : Option (Token × List Char) :=
  let name := text.takeWhile isNameChar
  let rest := text.dropWhile isNameChar
  if name = [] ∨ !atGap rest then none
  else if name = "YAML".toList then do
    let (major, rest) ← versionNumber? (dropBlanks rest)
    match rest with
    | '.' :: rest => do
      let (minor, rest) ← versionNumber? rest
      some (.version major minor, rest)
    | _ => none
  else if name = "TAG".toList then do
    let (handle, rest) ← directiveHandle? (dropBlanks rest)
    if !(rest.head?.map isBlank).getD false then none
    else do
      let (lead, count, rest) ← takeTagText true (dropBlanks rest)
      if count = 0 ∨ !atGap rest then none else some (.tagDirective handle lead, rest)
  else none

/-- The text from the end of its line on, if nothing but blanks and a comment stand before. -/
def lineEnd? (text : List Char) : Option (List Char) :=
  let rest := dropBlanks text
  match rest with
  | '#' :: _ => some (rest.dropWhile fun c => !isBreak c)
  | [] => some []
  | c :: _ => if isBreak c then some rest else none

/-- Passes over a line break. -/
def dropBreak : List Char → List Char
  | '\r' :: '\n' :: rest => rest
  | c :: rest => if isBreak c then rest else c :: rest
  | [] => []

/-! ### The scanner -/

/-- A place where a simple key may have started. -/
structure KeyStart where
  /-- The slot for its tokens. -/
  slot : Nat
  position : Position
  /-- Has a colon to follow? -/
  required : Bool
  deriving Repr

/-- The state of the scanner. -/
structure Scanner where
  rest : List Char
  position : Position := {}
  /-- The tokens so far, in slots. -/
  tokens : Array (List Token) := #[]
  /-- The possible key of the block, and of each open flow collection, innermost first. -/
  keys : List (Option KeyStart) := [none]
  /-- The column of the current block; none outside all of them. -/
  indent : Option Nat := none
  /-- The columns of the blocks around it. -/
  outer : List (Option Nat) := []
  keyAllowed : Bool := true
  deriving Repr

namespace Scanner

/-- Is a flow collection open? -/
def inFlow (s : Scanner) : Bool := s.keys.length > 1

/-- Is a column deeper than the current block? -/
def isDeeper (s : Scanner) (column : Nat) : Bool :=
  match s.indent with
  | none => true
  | some indent => indent < column

/-- Adds a token. -/
def push (s : Scanner) (token : Token) : Scanner :=
  { s with tokens := s.tokens.push [token] }

/-- Moves on by characters of the same line. -/
def advance (s : Scanner) (count : Nat) : Scanner :=
  { s with rest := s.rest.drop count, position := s.position.skip count }

/-- Moves to the end of a part that was scanned. -/
def moveTo (s : Scanner) (part : Scanned α) : Scanner :=
  { s with rest := part.rest, position := part.position }

/-- Closes the blocks that are deeper than a column, or all of them. -/
def closeBlocks (s : Scanner) (column : Option Nat) : Scanner :=
  if s.inFlow then s else go s s.outer
where
  /-- Closes one block after another. -/
  go (s : Scanner) : List (Option Nat) → Scanner
    | [] => s
    | outer :: more =>
      match s.indent, column with
      | none, _ => s
      | some _, none => go { s.push .blockEnd with indent := outer, outer := more } more
      | some indent, some column =>
        if indent > column then go { s.push .blockEnd with indent := outer, outer := more } more
        else s

/-- Opens a block at a column that is deeper than the current one. -/
def openBlock (s : Scanner) (column : Nat) (token : Token) : Scanner :=
  if !s.inFlow && s.isDeeper column then
    { s.push token with indent := some column, outer := s.indent :: s.outer }
  else s

/-- The possible key at the current level. -/
def key? (s : Scanner) : Option KeyStart := s.keys.head?.getD none

/-- Replaces the possible key at the current level. -/
def setKey (s : Scanner) (key : Option KeyStart) : Scanner :=
  { s with keys := key :: s.keys.tail }

/-- Gives up the possible key, which must not have been required. -/
def dropKey (s : Scanner) : Option Scanner :=
  match s.key? with
  | some key => if key.required then none else some (s.setKey none)
  | none => some s

/-- Notes that a simple key may start here. -/
def saveKey (s : Scanner) : Option Scanner :=
  if s.keyAllowed then
    (s.dropKey).map fun s =>
      let required := !s.inFlow && s.indent == some s.position.column
      { s.setKey (some ⟨s.tokens.size, s.position, required⟩) with tokens := s.tokens.push [] }
  else some s

/-- Gives up the possible keys that are too far back. -/
def dropStaleKeys (s : Scanner) : Option Scanner :=
  let isStale (key : KeyStart) : Bool :=
    key.position.line < s.position.line || key.position.index + 1024 < s.position.index
  let check (key : Option KeyStart) : Option (Option KeyStart) :=
    match key with
    | some key => if isStale key then if key.required then none else some none else some (some key)
    | none => some none
  (s.keys.mapM check).map fun keys => { s with keys }

/-- Takes the mark of a directive or of the start or end of a document. -/
def leaveBlocks (s : Scanner) : Option Scanner :=
  ((s.closeBlocks none).dropKey).map fun s => { s with keyAllowed := false }

/-- Takes a directive. -/
def takeDirective (s : Scanner) : Option Scanner := do
  let s ← s.leaveBlocks
  let (token, rest) ← directive? (s.rest.drop 1)
  let atEnd ← lineEnd? rest
  some { s.push token with rest := dropBreak atEnd, position := s.position.newLine 1 }

/-- Takes the mark of the start or the end of a document. -/
def takeDocumentMark (s : Scanner) (token : Token) : Option Scanner :=
  s.leaveBlocks.map fun s => (s.push token).advance 3

/-- Takes the opening mark of a flow collection. -/
def openFlow (s : Scanner) (token : Token) : Option Scanner :=
  s.saveKey.map fun s => ({ s with keys := none :: s.keys, keyAllowed := true }.push token).advance 1

/-- Takes the closing mark of a flow collection. -/
def closeFlow (s : Scanner) (token : Token) : Option Scanner :=
  s.dropKey.map fun s =>
    let keys := if s.inFlow then s.keys.tail else s.keys
    ({ s with keys, keyAllowed := false }.push token).advance 1

/-- Takes the comma of a flow collection. -/
def takeComma (s : Scanner) : Option Scanner :=
  s.dropKey.map fun s => ({ s with keyAllowed := true }.push .comma).advance 1

/-- Takes the dash of a sequence entry. -/
def takeEntry (s : Scanner) : Option Scanner :=
  if !s.inFlow && !s.keyAllowed then none
  else
    ((s.openBlock s.position.column .sequenceStart).dropKey).map fun s =>
      ({ s with keyAllowed := true }.push .entry).advance 1

/-- Takes the question mark of a key. -/
def takeKeyMark (s : Scanner) : Option Scanner :=
  if !s.inFlow && !s.keyAllowed then none
  else
    ((s.openBlock s.position.column .mappingStart).dropKey).map fun s =>
      ({ s with keyAllowed := !s.inFlow }.push .key).advance 1

/-- Takes the colon of a value. -/
def takeValueMark (s : Scanner) : Option Scanner :=
  match s.key? with
  | some key =>
    let column := key.position.column
    let opens := !s.inFlow && s.isDeeper column
    let s := { s.setKey none with
      tokens := s.tokens.setIfInBounds key.slot (if opens then [.mappingStart, .key] else [.key])
      keyAllowed := false }
    let s := if opens then { s with indent := some column, outer := s.indent :: s.outer } else s
    some ((s.push .value).advance 1)
  | none =>
    if !s.inFlow && !s.keyAllowed then none
    else
      let s := s.openBlock s.position.column .mappingStart
      some (({ s with keyAllowed := !s.inFlow }.push .value).advance 1)

/-- Takes an anchor or an alias. -/
def takeName (s : Scanner) (token : List Char → Token) : Option Scanner := do
  let s ← s.saveKey
  let name := (s.rest.drop 1).takeWhile isNameChar
  let rest := (s.rest.drop 1).dropWhile isNameChar
  let ends := atGap rest || (rest.head?.map "?:,]\x7d%@\x60".toList.contains).getD false
  if name = [] ∨ !ends then none
  else some (({ s with keyAllowed := false }.push (token name)).advance (name.length + 1))

/-- Takes a tag. -/
def takeTag (s : Scanner) : Option Scanner := do
  let s ← s.saveKey
  let tag ← scanTag s.inFlow s.position (s.rest.drop 1)
  some ({ s with keyAllowed := false }.push (.tag tag.value.1 tag.value.2) |>.moveTo tag)

/-- Takes a block scalar. -/
def takeBlock (s : Scanner) (literal : Bool) : Option Scanner := do
  let s ← s.dropKey
  let (header, rest) ← blockHeader? (s.rest.drop 1)
  let atEnd ← lineEnd? rest
  let least :=
    match s.indent with
    | none => 0
    | some indent => indent + 1
  let base := s.indent.getD 0
  let block ← scanBlock literal least { indent := header.increment.map (base + ·) } false
    (if atEnd = [] then s.position.skip (s.rest.length) else s.position.newLine 1) (dropBreak atEnd)
  some ({ s with keyAllowed := true }.push (.scalar false (block.value.finish header.chomping))
    |>.moveTo block)

/-- Takes a quoted scalar. -/
def takeQuoted (s : Scanner) (single : Bool) : Option Scanner := do
  let s ← s.saveKey
  let text ← scanQuoted single [] .word (s.position.skip 1) (s.rest.drop 1)
  some ({ s with keyAllowed := false }.push (.scalar false text.value) |>.moveTo text)

/-- Takes a plain scalar. -/
def takePlain (s : Scanner) : Option Scanner := do
  let s ← s.saveKey
  let least :=
    match s.indent with
    | none => 0
    | some indent => indent + 1
  let text ← scanPlain s.inFlow least [] none s.position s.rest
  some ({ s with keyAllowed := text.value.broken }.push (.scalar true text.value.text)
    |>.moveTo text)

/-- The marks that no plain scalar starts with. -/
def isMark (c : Char) : Bool :=
  "-?:,[]\x7b\x7d#&*!|>%@\x60".toList.contains c || c = '\x27' || c = '\x22'

/-- May a plain scalar start here? -/
def startsPlain (inFlow : Bool) : List Char → Bool
  | [] => false
  | c :: rest =>
    !(isBlank c || isBreak c || isMark c)
      || (c = '-' && !(rest.head?.map isBlank).getD false)
      || (!inFlow && (c = '?' || c = ':') && !atGap rest)

/-- Takes the next token, or closes the last blocks at the end of the text. -/
def step (s : Scanner) : Option (Scanner × Bool) := do
  let space := skipSpace s.inFlow false s.keyAllowed s.position s.rest
  let s ← ({ s.moveTo space with keyAllowed := space.value }).dropStaleKeys
  let s := s.closeBlocks (some s.position.column)
  let atMargin := s.position.column = 0
  let more (next : Option Scanner) : Option (Scanner × Bool) := next.map fun s => (s, true)
  match s.rest with
  | [] =>
    let s ← (s.closeBlocks none).dropKey
    some (s, false)
  | c :: rest =>
    if atMargin ∧ c = '%' then more s.takeDirective
    else if atMargin ∧ atDocumentMark s.rest then
      more (s.takeDocumentMark (if c = '-' then .documentStart else .documentEnd))
    else if c = '[' then more (s.openFlow .flowSequenceStart)
    else if c = '\x7b' then more (s.openFlow .flowMappingStart)
    else if c = ']' then more (s.closeFlow .flowSequenceEnd)
    else if c = '\x7d' then more (s.closeFlow .flowMappingEnd)
    else if c = ',' then more s.takeComma
    else if c = '-' ∧ atGap rest then more s.takeEntry
    else if c = '?' ∧ (s.inFlow ∨ atGap rest) then more s.takeKeyMark
    else if c = ':' ∧ (s.inFlow ∨ atGap rest) then more s.takeValueMark
    else if c = '*' then more (s.takeName .alias)
    else if c = '&' then more (s.takeName .anchor)
    else if c = '!' then more s.takeTag
    else if c = '|' ∧ !s.inFlow then more (s.takeBlock true)
    else if c = '>' ∧ !s.inFlow then more (s.takeBlock false)
    else if c = '\x27' then more (s.takeQuoted true)
    else if c = '\x22' then more (s.takeQuoted false)
    else if startsPlain s.inFlow s.rest then more s.takePlain
    else none

/-- Takes tokens until the end of the text, at most `fuel` of them. -/
def run : Nat → Scanner → Option Scanner
  | 0, _ => none
  | fuel + 1, s =>
    match s.step with
    | none => none
    | some (next, true) => run fuel next
    | some (last, false) => some last

end Scanner

/-- The tokens of a document. -/
def tokens? (text : List Char) : Option (List Token) :=
  let text :=
    match text with
    | c :: rest => if isByteOrderMark c then rest else text
    | [] => []
  if text.all isAllowed then
    (Scanner.run (text.length + 1) { rest := text }).map fun s => s.tokens.toList.flatten
  else none

end ClusterAccess.Yaml
