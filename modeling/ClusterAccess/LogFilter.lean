/-
Log filters.

A filter is a list of directives with commas between them; empty ones do not count.
A directive names a level, a target, or both with an equals sign, and may narrow the
target to a span with fields in square brackets:

    info        store=debug        store[request{id=7}]=trace

Only the level after an equals sign can be misspelled: a word alone that is no level
is a target.
-/
import ClusterAccess.Text.Blank
import ClusterAccess.Text.Digits
import ClusterAccess.Text.Letters
import ClusterAccess.Text.Split

namespace ClusterAccess.LogFilter

open Text

/-- The filter that logging starts with when none is given. -/
def standard : String := "info,eksbridge=debug,kube=info,tower=warn,hyper=warn"

/-- The name that the service logs under. -/
def serviceName : String := "eksbridge"

/-- Are logs written as JSON unless something else is asked for? -/
def standardJson : Bool := true

/-- The words for levels. -/
def levelWords : List (List Char) :=
  ["error", "warn", "info", "debug", "trace", "off"].map String.toList

/-- Is it a level: a word in whatever case, a number up to five, or nothing? -/
def isLevel (text : List Char) : Bool :=
  let digits :=
    match text with
    | '+' :: rest => rest
    | rest => rest
  text = [] || levelWords.contains (text.map Char.toLower)
    || (match digits? digits with
        | some n => n ≤ 5
        | none => false)

/-- What a directive is read as so far. -/
inductive Part where
  | start
  /-- A level or a target. -/
  | word
  | span
  /-- In a field of a span, and whether it has a character yet. -/
  | field (named : Bool)
  /-- After the fields of a span. -/
  | fields
  /-- After a span. -/
  | target
  /-- After the equals sign, which stands at this position. -/
  | level (position : Nat)
  deriving DecidableEq, Repr

/-- Reads the character at a position. -/
def Part.step (part : Part) (position : Nat) (c : Char) : Option Part :=
  match part with
  | .start =>
    if c = '[' then some .span
    else if c = '-' ∨ c = ':' ∨ c = '_' ∨ isLetterOrDigit c then some .word
    else none
  | .word =>
    if c = '=' then some (.level position) else if c = '[' then some .span else some .word
  | .span =>
    if c = ']' then some .target else if c = '\x7b' then some (.field false) else some .span
  | .field named =>
    if c = '\x7d' then if named then some .fields else none else some (.field true)
  | .fields => if c = ']' then some .target else none
  | .target => if c = '=' then some (.level position) else none
  | .level position => some (.level position)

/-- Reads the rest of a directive. -/
def Part.run (part : Part) (position : Nat) : List Char → Option Part
  | [] => some part
  | c :: rest => (part.step position c).bind fun next => next.run (position + 1) rest

/-- Is the directive well formed?  Blanks around it are passed over at first, but a level is
what follows its equals sign counted from the untrimmed start. -/
def isDirective (text : List Char) : Bool :=
  match Part.start.run 0 (trim text) with
  | some .word => true
  | some .target => true
  | some (.level position) => isLevel (text.drop (position + 1))
  | _ => false

/-- Is the filter well formed? -/
def isValid (filter : String) : Bool :=
  ((pieces ',' filter.toList).filter (· ≠ [])).all isDirective

end ClusterAccess.LogFilter
