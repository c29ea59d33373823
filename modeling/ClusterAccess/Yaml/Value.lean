/-
YAML values.

A plain scalar is a null, a truth value, a number or a text, by the way it is spelled;
a quoted one is a text.  Tags of the application are kept, tags of the core types
are obeyed.  An alias stands for a copy of the node with its anchor, within bounds:
values may not be nested too deeply, and a document may not refer back too often.

The keys of a mapping are all different.
-/
import ClusterAccess.Number.Binary64
import ClusterAccess.Yaml.Node

namespace ClusterAccess

open Text

/-- A YAML value. -/
inductive Yaml where
  | null
  | bool (value : Bool)
  | integer (value : Int)
  | float (value : Binary64)
  | string (text : String)
  | sequence (items : List Yaml)
  | mapping (entries : List (Yaml × Yaml))
  /-- A value with a tag of the application, without its exclamation mark. -/
  | tagged (tag : String) (value : Yaml)
  deriving Repr

namespace Yaml

instance : Inhabited Yaml := ⟨.null⟩

/-- Are two numbers equal?  Zero has one value, whatever its sign, and what is no number is equal
to itself. -/
def sameFloat : Binary64 → Binary64 → Bool
  | .finite n m q, .finite n' m' q' => m = m' && q = q' && (m = 0 || n = n')
  | .infinite n, .infinite n' => n = n'
  | .notANumber, .notANumber => true
  | _, _ => false

mutual

/-- Are two values equal as keys?  The order of the entries of a mapping does not matter. -/
def same : Yaml → Yaml → Bool
  | .null, .null => true
  | .bool a, .bool b => a = b
  | .integer a, .integer b => a = b
  | .float a, .float b => sameFloat a b
  | .string a, .string b => a = b
  | .sequence a, .sequence b => sameItems a b
  | .mapping a, .mapping b => a.length = b.length && entriesIn a b
  | .tagged t a, .tagged u b => t = u && same a b
  | _, _ => false

/-- Are the values of two lists equal, one by one? -/
def sameItems : List Yaml → List Yaml → Bool
  | [], [] => true
  | a :: as, b :: bs => same a b && sameItems as bs
  | _, _ => false

/-- Is every entry of the first list among the second? -/
def entriesIn : List (Yaml × Yaml) → List (Yaml × Yaml) → Bool
  | [], _ => true
  | entry :: rest, others => entryIn entry others && entriesIn rest others

/-- Is the entry in the list? -/
def entryIn : Yaml × Yaml → List (Yaml × Yaml) → Bool
  | (key, value), others => others.any fun (k, v) => same key k && same value v

end

/-! ### Plain scalars -/

/-- The spellings of null. -/
def nullWords : List (List Char) := ["null", "Null", "NULL", "~"].map String.toList

/-- The spellings of true. -/
def trueWords : List (List Char) := ["true", "True", "TRUE"].map String.toList

/-- The spellings of false. -/
def falseWords : List (List Char) := ["false", "False", "FALSE"].map String.toList

/-- The truth value of a word. -/
def truth? (text : List Char) : Option Bool :=
  if trueWords.contains text then some true
  else if falseWords.contains text then some false
  else none

/-- A text of digits, perhaps with a sign, that starts with a zero and goes on is no number. -/
def isPaddedDigits (text : List Char) : Bool :=
  let digits :=
    match text with
    | '-' :: rest => rest
    | '+' :: rest => rest
    | rest => rest
  match digits with
  | '0' :: c :: rest => (c :: rest).all Char.isDigit
  | _ => false

/-- The number that digits of a base write. -/
def magnitude? (base : Nat) (digits : List Char) : Option Nat :=
  if digits = [] then none else readDigits base hexDigit? 0 digits

/-- The magnitude of an unsigned integer: decimal, or in a base named by two characters. -/
def unsigned? : List Char → Option Nat
  | '0' :: 'x' :: digits => magnitude? 16 digits
  | '0' :: 'o' :: digits => magnitude? 8 digits
  | '0' :: 'b' :: digits => magnitude? 2 digits
  | digits => if isPaddedDigits digits then none else magnitude? 10 digits

/-- The integer that a text writes. -/
def integerOf? : List Char → Option Int
  | '-' :: rest => (unsigned? rest).map fun n => -(Int.ofNat n)
  | '+' :: rest => (unsigned? rest).map Int.ofNat
  | rest => (unsigned? rest).map Int.ofNat

/-- What an integer is, by its size: held exactly, refused, or too large to be taken for one. -/
inductive IntegerRange where
  | held
  | refused
  | beyond
  deriving DecidableEq, Repr

/-- The range of an integer: 64 bits are held, and 128 bits still recognised. -/
def integerRange (n : Int) : IntegerRange :=
  let power (exponent : Nat) : Int := .ofNat (Nat.pow 2 exponent)
  if -power 63 ≤ n ∧ n < power 64 then .held
  else if -power 127 ≤ n ∧ n < power 128 then .refused
  else .beyond

/-- The words for infinity, without a sign. -/
def infinityWords : List (List Char) := [".inf", ".Inf", ".INF"].map String.toList

/-- The words for what is no number. -/
def noNumberWords : List (List Char) := [".nan", ".NaN", ".NAN"].map String.toList

/-- The number with a fraction or an exponent that a text writes. -/
def float? (text : List Char) : Option Binary64 :=
  let unsignedText :=
    match text with
    | '+' :: rest => rest
    | rest => rest
  if noNumberWords.contains text then some .notANumber
  else if infinityWords.contains unsignedText then some (.infinite false)
  else if text.head? = some '-' ∧ infinityWords.contains text.tail then some (.infinite true)
  else
    match Binary64.ofLiteral? text with
    | some (.finite negative mantissa scale) => some (.finite negative mantissa scale)
    | _ => none

/-- The value of a plain scalar; an integer of more than 64 bits has none. -/
def ofPlain? (text : List Char) : Option Yaml :=
  if text = [] ∨ nullWords.contains text then some .null
  else
    match truth? text with
    | some value => some (.bool value)
    | none =>
      let asFloat : Yaml :=
        if isPaddedDigits text then .string (String.ofList text)
        else
          match float? text with
          | some value => .float value
          | none => .string (String.ofList text)
      match integerOf? text with
      | none => some asFloat
      | some n =>
        match integerRange n with
        | .held => some (.integer n)
        | .refused => none
        | .beyond => some asFloat

/-- The tag of a core type. -/
def coreTag (name : String) : List Char := ("tag:yaml.org,2002:" ++ name).toList

/-- The value of a scalar with a tag that is none of the application's. -/
def ofCoreTag? (tag : List Char) (text : List Char) : Option Yaml :=
  if tag = coreTag "bool" then (truth? text).map .bool
  else if tag = coreTag "int" then
    match integerOf? text with
    | none => none
    | some n => if integerRange n = .held then some (.integer n) else none
  else if tag = coreTag "float" then (float? text).map .float
  else if tag = coreTag "null" then if nullWords.contains text then some .null else none
  else some (.string (String.ofList text))

/-- The name of a tag of the application: what follows its exclamation mark. -/
def applicationTag? : Option (List Char) → Option String
  | some ('!' :: name) => some (String.ofList (if name = [] then ['!'] else name))
  | _ => none

/-- The value of a scalar, tags of the application left aside. -/
def ofScalar? (tag : Option (List Char)) (plain : Bool) (text : List Char) : Option Yaml :=
  match tag with
  | some tag =>
    if tag.head? = some '!' then
      if plain then ofPlain? text else some (.string (String.ofList text))
    else ofCoreTag? tag text
  | none => if plain then ofPlain? text else some (.string (String.ofList text))

/-- The value with the tag of the application around it. -/
def withTag (tag : Option (List Char)) (value : Yaml) : Yaml :=
  match applicationTag? tag with
  | some name => .tagged name value
  | none => value

/-! ### Values of nodes -/

/-- Adds an entry to those of a mapping; a key must not come twice. -/
def addEntry (entries : List (Yaml × Yaml)) (key value : Yaml) : Option (List (Yaml × Yaml)) :=
  if entries.any fun entry => same entry.1 key then none else some (entries ++ [(key, value)])

/-- A step of the construction of a value, which counts the aliases that were followed. -/
abbrev Building := StateT Nat Option

mutual

/-- The value of a node.  `follow` gives the value of an anchor, and `depth` is the number of levels
that may be nested in it. -/
def build (follow : Nat → Nat → Building Yaml) (depth : Nat) : Node → Building Yaml
  | .alias number => follow number depth
  | .scalar _ tag plain text => fun count =>
    (ofScalar? tag plain text).map fun value => (withTag tag value, count)
  | .sequence _ tag items => do
    if depth = 0 then failure
    let items ← buildItems follow (depth - 1) items
    pure (withTag tag (.sequence items))
  | .mapping _ tag entries => do
    if depth = 0 then failure
    let entries ← buildEntries follow (depth - 1) [] entries
    pure (withTag tag (.mapping entries))

/-- The values of the items. -/
def buildItems (follow : Nat → Nat → Building Yaml) (depth : Nat) :
    List Node → Building (List Yaml)
  | [] => pure []
  | item :: rest => do
    let value ← build follow depth item
    let values ← buildItems follow depth rest
    pure (value :: values)

/-- The entries of a mapping, after the ones that were built before. -/
def buildEntries (follow : Nat → Nat → Building Yaml) (depth : Nat) (done : List (Yaml × Yaml)) :
    List (Node × Node) → Building (List (Yaml × Yaml))
  | [] => pure done
  | entry :: rest => do
    let (key, value) ← buildEntry follow depth entry
    match addEntry done key value with
    | some done => buildEntries follow depth done rest
    | none => failure

/-- The key and the value of an entry. -/
def buildEntry (follow : Nat → Nat → Building Yaml) (depth : Nat) :
    Node × Node → Building (Yaml × Yaml)
  | (key, value) => do
    let key ← build follow depth key
    let value ← build follow depth value
    pure (key, value)

end

/-- The value of an anchor, with at most so many aliases inside one another. -/
def follow (anchors : List (Nat × Node)) (limit : Nat) : Nat → Nat → Nat → Building Yaml
  | 0, _, _ => failure
  | levels + 1, number, depth => fun count =>
    if count + 1 > limit then none
    else
      match anchors.lookup number with
      | some node => build (follow anchors limit levels) depth node (count + 1)
      | none => none

/-- How deep values may be nested. -/
def depthLimit : Nat := 128

/-- The values of the list that a document holds.  A document without a node, or with an empty one,
holds the empty list. -/
def parseList? (text : String) : Option (List Yaml) := do
  match ← Node.parse? text.toList with
  | none => some []
  | some (.scalar _ _ true []) => some []
  | some (.sequence anchor tag items) =>
    let root := Node.sequence anchor tag items
    -- A number may have been given twice; the last node counts.
    let anchors := root.anchored.reverse
    let limit := 100 * root.size
    let (values, _) ← buildItems (follow anchors limit (depthLimit + 1)) (depthLimit - 1) items 0
    some values
  | some _ => none

/-- The value without the tags around it. -/
def untagged : Yaml → Yaml
  | .tagged _ value => untagged value
  | value => value

end Yaml

end ClusterAccess
