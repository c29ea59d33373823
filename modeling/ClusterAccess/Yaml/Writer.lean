/-
Writing YAML.

Values are written in block style, two columns deeper at every level; a sequence that
is the value of a key stands in the column of the key.  Empty collections are written
as `[]` and `{}`.  A text is written plainly unless it would read as something
else, as a literal block when it has line breaks, and in quotes otherwise.  Lines are
never folded.

The writer keeps the column and two facts about the line so far: whether it ends in
white space, and whether it holds nothing but marks of indentation.
-/
import ClusterAccess.Yaml.Value

namespace ClusterAccess.Yaml

open Text

/-! ### The output -/

/-- The text written so far. -/
structure Output where
  /-- The characters, last first. -/
  text : List Char := []
  column : Nat := 0
  /-- Does the line end in white space? -/
  spaced : Bool := true
  /-- Does the line hold nothing but indentation and marks? -/
  indented : Bool := true

namespace Output

/-- Writes a character. -/
def put (o : Output) (c : Char) : Output :=
  { o with text := c :: o.text, column := o.column + 1 }

/-- Writes characters of one line. -/
def putAll (o : Output) (cs : List Char) : Output := cs.foldl put o

/-- Ends the line. -/
def newLine (o : Output) (c : Char) : Output := { o with text := c :: o.text, column := 0 }

/-- Writes a mark, after a space where one is needed. -/
def mark (o : Output) (text : List Char) (needsSpace spaced indented : Bool) : Output :=
  let o := if needsSpace && !o.spaced then o.put ' ' else o
  { o.putAll text with spaced := spaced, indented := o.indented && indented }

/-- Moves to a column, on a new line unless the current one can be used. -/
def indentTo (o : Output) (indent : Nat) : Output :=
  let o :=
    if !o.indented || o.column > indent || (o.column = indent && !o.spaced) then o.newLine '\n'
    else o
  { o.putAll (List.replicate (indent - o.column) ' ') with spaced := true, indented := true }

/-- Writes a word, after a space where one is needed. -/
def word (o : Output) (text : List Char) : Output :=
  let o := if !o.spaced && text ≠ [] then o.put ' ' else o
  { o.putAll text with spaced := false, indented := false }

end Output

/-! ### The style of a text -/

/-- The characters that can be written as they are. -/
def isPrintable (c : Char) : Bool :=
  c = '\n' || (0x20 ≤ c.val && c.val ≤ 0x7E) || (0xA0 ≤ c.val && c.val ≤ 0xD7FF)
    || (0xE000 ≤ c.val && c.val ≤ 0xFFFD && c.val ≠ 0xFEFF) || 0x10000 ≤ c.val

/-- The styles of a text. -/
inductive Style where
  | plain
  | single
  | double
  | literal
  deriving DecidableEq, Repr

/-- What there is to know about a text before it is written. -/
structure Traits where
  /-- Does it have line breaks? -/
  multiline : Bool := false
  /-- Does it hold a mark that would end it, or not start it, as a plain scalar? -/
  marked : Bool := false
  /-- Does it hold characters that cannot be written as they are? -/
  special : Bool := false
  /-- Does it start or end with a space or a line break? -/
  edged : Bool := false
  /-- Does it end with a space? -/
  trailingSpace : Bool := false
  /-- Does a line start with a space? -/
  breakSpace : Bool := false
  /-- Does a line end with a space? -/
  spaceBreak : Bool := false
  deriving Repr

/-- The marks that no plain scalar starts with. -/
def isLeadingMark (c : Char) : Bool :=
  "#,[]\x7b\x7d&*!|>%@\x60".toList.contains c || c = '\x27' || c = '\x22'

/-- Does a character need quotes, given what stands before and after it? -/
def needsQuotes (first afterGap : Bool) (c : Char) (rest : List Char) : Bool :=
  if first then
    isLeadingMark c || ((c = '?' || c = ':' || c = '-') && atGap rest)
  else (c = ':' && atGap rest) || (c = '#' && afterGap)

/-- Collects the traits of a text from a position on; `before` is the character in front. -/
def traitsFrom (before : Option Char) (t : Traits) : List Char → Traits
  | [] => t
  | c :: rest =>
    let first := before.isNone
    let space := c = ' '
    let lineBreak := isBreak c
    let after (p : Char → Bool) : Bool := (before.map p).getD false
    traitsFrom (some c)
      { multiline := t.multiline || lineBreak
        marked := t.marked
          || needsQuotes first (first || after fun b => isBlank b || isBreak b) c rest
        special := t.special || !isPrintable c
        edged := t.edged || ((space || lineBreak) && (first || rest = []))
        trailingSpace := t.trailingSpace || (space && rest = [])
        breakSpace := t.breakSpace || (space && after isBreak)
        spaceBreak := t.spaceBreak || (lineBreak && after (· = ' ')) } rest

/-- The traits of a text. -/
def traits (text : List Char) : Traits :=
  let documentMark := "---".toList.isPrefixOf text || "...".toList.isPrefixOf text
  traitsFrom none { marked := documentMark } text

/-- Would the text read as something else if it were written plainly? -/
def readsAsOther (text : List Char) : Bool :=
  isPaddedDigits text
    || match ofPlain? text with
      | some (.string _) => false
      | _ => true

/-- The style of a text, in a simple key or elsewhere. -/
def style (simpleKey : Bool) (text : List Char) : Style :=
  let t := traits text
  let quoted : Style := if t.special || t.spaceBreak || t.breakSpace then .double else .single
  if simpleKey && t.multiline then .double
  else if text.contains '\n' then
    if t.special || t.spaceBreak || t.trailingSpace || simpleKey then .double else .literal
  else if readsAsOther text then quoted
  else if t.multiline || t.marked || t.edged || t.special || t.spaceBreak || t.breakSpace then quoted
  else .plain

/-! ### Texts -/

/-- The letter of a short escape. -/
def escapeLetter? (c : Char) : Option Char :=
  match c.toNat with
  | 0x00 => some '0'
  | 0x07 => some 'a'
  | 0x08 => some 'b'
  | 0x09 => some 't'
  | 0x0A => some 'n'
  | 0x0B => some 'v'
  | 0x0C => some 'f'
  | 0x0D => some 'r'
  | 0x1B => some 'e'
  | 0x22 => some '\x22'
  | 0x5C => some '\x5c'
  | 0x85 => some 'N'
  | 0xA0 => some '_'
  | 0x2028 => some 'L'
  | 0x2029 => some 'P'
  | _ => none

/-- How a character is written in double quotes. -/
def doubleChar (c : Char) : List Char :=
  if !isPrintable c || isBreak c || c = '\x22' || c = '\x5c' then
    '\x5c' ::
      match escapeLetter? c with
      | some letter => [letter]
      | none =>
        if c.toNat ≤ 0xFF then 'x' :: hexDigits true 2 c.toNat
        else if c.toNat ≤ 0xFFFF then 'u' :: hexDigits true 4 c.toNat
        else 'U' :: hexDigits true 8 c.toNat
  else [c]

/-- Writes the characters of a text in single quotes; `breaks` tells whether a line break was
written last. -/
def writeSingle (indent : Nat) (o : Output) (breaks : Bool) : List Char → Output
  | [] => if breaks then o.indentTo indent else o
  | c :: rest =>
    if c = ' ' then writeSingle indent (o.put c) breaks rest
    else if isBreak c then
      let o := if !breaks && c = '\n' then o.newLine '\n' else o
      writeSingle indent { o.newLine c with indented := true } true rest
    else
      let o := if breaks then o.indentTo indent else o
      let o := if c = '\x27' then o.put c else o
      writeSingle indent { o.put c with indented := false } false rest

/-- Writes the lines of a literal block. -/
def writeLiteral (indent : Nat) (o : Output) (breaks : Bool) : List Char → Output
  | [] => o
  | c :: rest =>
    if isBreak c then writeLiteral indent { o.newLine c with indented := true } true rest
    else
      let o := if breaks then o.indentTo indent else o
      writeLiteral indent { o.put c with indented := false } false rest

/-- The marks after the bar of a literal block: the depth, when the first character would hide it,
and what becomes of the line breaks at the end. -/
def literalHints (text : List Char) : List Char :=
  let depth :=
    match text with
    | c :: _ => if c = ' ' ∨ isBreak c then ['2'] else []
    | [] => []
  let ending :=
    match text.reverse with
    | [] => ['-']
    | [last] => if isBreak last then ['+'] else ['-']
    | last :: before :: _ => if !isBreak last then ['-'] else if isBreak before then ['+'] else []
  depth ++ ending

/-- Writes a text in a style. -/
def writeStyled (indent : Nat) (o : Output) (text : List Char) : Style → Output
  | .plain => o.word text
  | .single =>
    let o := writeSingle indent (o.mark ['\x27'] true false false) false text
    { o.mark ['\x27'] false false false with spaced := false, indented := false }
  | .double =>
    let o := (o.mark ['\x22'] true false false).putAll (text.flatMap doubleChar)
    { o.mark ['\x22'] false false false with spaced := false, indented := false }
  | .literal =>
    let o := (o.mark ['|'] true false false).mark (literalHints text) false false false
    writeLiteral indent { o.newLine '\n' with spaced := true, indented := true } true text

/-! ### Values -/

/-- The spelling of a value without parts, other than a text. -/
def word? : Yaml → Option (List Char)
  | .null => some "null".toList
  | .bool true => some "true".toList
  | .bool false => some "false".toList
  | .integer n => some (toString n).toList
  | .float (.finite negative mantissa scale) => some (Binary64.renderFinite negative mantissa scale)
  | .float (.infinite false) => some ".inf".toList
  | .float (.infinite true) => some "-.inf".toList
  | .float .notANumber => some ".nan".toList
  | _ => none

/-- The characters of a tag that are written as they are. -/
def isPlainTagChar (c : Char) : Bool :=
  isNameChar c || ";/?:@&=+$_.~*()!".toList.contains c || c = '\x27'

/-- The written form of a tag. -/
def tagChars (tag : String) : List Char :=
  '!' :: tag.toList.flatMap fun c =>
    if isPlainTagChar c then [c]
    else (String.utf8EncodeChar c).flatMap fun byte => '%' :: hexDigits true 2 byte.toNat

/-- Writes a tag. -/
def writeTag (o : Output) : Option String → Output
  | some tag => o.word (tagChars tag)
  | none => o

/-- The bytes of a tag. -/
def tagSize : Option String → Nat
  | some tag => 1 + tag.utf8ByteSize
  | none => 0

/-- Can the value be a key on one line? -/
def isSimpleKey (tag : Option String) : Yaml → Bool
  | .tagged name value => isSimpleKey (some name) value
  | .string text => !(traits text.toList).multiline && tagSize tag + text.utf8ByteSize ≤ 128
  | .sequence items => items.isEmpty && tagSize tag ≤ 128
  | .mapping entries => entries.isEmpty && tagSize tag ≤ 128
  | value => tagSize tag + ((word? value).getD []).length ≤ 128

mutual

/-- Writes a value.  `indent` is the column of the block around it, if there is one, and `asValue`
tells whether it is the key or the value of an entry. -/
def writeValue (indent : Option Nat) (asValue simpleKey : Bool) (tag : Option String) (o : Output) :
    Yaml → Output
  | .tagged name value => writeValue indent asValue simpleKey (some name) o value
  | .sequence items =>
    let o := writeTag o tag
    match items with
    | [] => (o.mark ['['] true true false).mark [']'] false false false
    | items =>
      let column :=
        match indent with
        | none => 0
        | some indent => if asValue && !o.indented then indent else indent + 2
      writeItems column o items
  | .mapping entries =>
    let o := writeTag o tag
    match entries with
    | [] => (o.mark ['\x7b'] true true false).mark ['\x7d'] false false false
    | entries =>
      let column :=
        match indent with
        | none => 0
        | some indent => indent + 2
      writeEntries column o entries
  | .string text =>
    let column :=
      match indent with
      | none => 0
      | some indent => indent + 2
    writeStyled column (writeTag o tag) text.toList (style simpleKey text.toList)
  | value => (writeTag o tag).word ((word? value).getD [])

/-- Writes the items of a sequence in a column. -/
def writeItems (column : Nat) (o : Output) : List Yaml → Output
  | [] => o
  | item :: rest =>
    let o := (o.indentTo column).mark ['-'] true false true
    writeItems column (writeValue (some column) false false none o item) rest

/-- Writes the entries of a mapping in a column. -/
def writeEntries (column : Nat) (o : Output) : List (Yaml × Yaml) → Output
  | [] => o
  | entry :: rest => writeEntries column (writeEntry column o entry) rest

/-- Writes an entry of a mapping in a column. -/
def writeEntry (column : Nat) (o : Output) : Yaml × Yaml → Output
  | (key, value) =>
    let o := o.indentTo column
    if isSimpleKey none key then
      let o := (writeValue (some column) true true none o key).mark [':'] false false false
      writeValue (some column) true false none o value
    else
      let o := writeValue (some column) true false none (o.mark ['?'] true false true) key
      let o := (o.indentTo column).mark [':'] true false true
      writeValue (some column) true false none o value

end

/-- The document that holds a list. -/
def renderList (values : List Yaml) : String :=
  String.ofList ((writeValue none false false none {} (.sequence values)).indentTo 0).text.reverse

end ClusterAccess.Yaml
