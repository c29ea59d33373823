/-
From characters to JSON tokens.

The scanner is a state machine that takes one character at a time, so it is one
fold over the text.  Between tokens it skips white space; inside a string it keeps
the characters read so far and, after an escape for the first half of a surrogate
pair, that half.
-/
import ClusterAccess.Json.Value
import ClusterAccess.Json.Number

namespace ClusterAccess.Json

open Text

/-- A token: a mark of punctuation or a value without parts. -/
inductive Token where
  | mark (c : Char)
  | scalar (value : Json)
  deriving Repr, BEq

/-- A string being read. -/
structure OpenString where
  /-- The characters so far, last first. -/
  read : List Char
  /-- The first half of a surrogate pair, when the second may follow. -/
  half : Option Nat
  /-- Was half of a pair left alone? -/
  broken : Bool
  deriving Repr

namespace OpenString

/-- The string before its first character. -/
def empty : OpenString := ⟨[], none, false⟩

/-- Adds a character; a half that was waiting is left alone. -/
def push (s : OpenString) (c : Char) : OpenString :=
  ⟨c :: s.read, none, s.broken || s.half.isSome⟩

/-- Adds the sixteen bits that a numeric escape names. -/
def pushUnit (s : OpenString) (unit : Nat) : OpenString :=
  if 0xD800 ≤ unit ∧ unit < 0xDC00 then
    { s with half := some unit, broken := s.broken || s.half.isSome }
  else if 0xDC00 ≤ unit ∧ unit < 0xE000 then
    match s.half with
    | some high =>
      ⟨Char.ofNat (0x10000 + (high - 0xD800) * 0x400 + (unit - 0xDC00)) :: s.read, none, s.broken⟩
    | none => { s with broken := true }
  else s.push (Char.ofNat unit)

/-- The value of a string at its closing quote. -/
def close (s : OpenString) : Json :=
  if s.broken || s.half.isSome then .unreadable
  else .string (String.ofList s.read.reverse)

end OpenString

/-- Where the scanner stands. -/
inductive ScanMode where
  | between
  /-- In a number, with its characters so far, last first. -/
  | inNumber (read : List Char)
  /-- In a word, with its characters so far, last first. -/
  | inWord (read : List Char)
  | inString (s : OpenString)
  /-- After a backslash. -/
  | escaped (s : OpenString)
  /-- In a numeric escape, with its value so far and the digits still to come. -/
  | inUnit (s : OpenString) (value : Nat) (left : Nat)
  deriving Repr

/-- The white space of JSON. -/
def isSpace (c : Char) : Bool :=
  c = ' ' ∨ c = '\t' ∨ c = '\n' ∨ c = '\r'

/-- The characters that number literals are made of. -/
def isNumberChar (c : Char) : Bool :=
  c.isDigit || c = '-' || c = '+' || c = '.' || c = 'e' || c = 'E'

/-- The token of a literal. -/
def numberToken (read : List Char) : Option Token :=
  (numberParts? read.reverse).map fun _ => .scalar (.number (String.ofList read.reverse))

/-- The token of a word. -/
def wordToken (read : List Char) : Option Token :=
  if read.reverse = "true".toList then some (.scalar (.bool true))
  else if read.reverse = "false".toList then some (.scalar (.bool false))
  else if read.reverse = "null".toList then some (.scalar .null)
  else none

/-- The character that a one-letter escape stands for. -/
def escapeChar? (c : Char) : Option Char :=
  match c with
  | '\x22' => some '\x22'
  | '\x5c' => some '\x5c'
  | '/' => some '/'
  | 'b' => some '\x08'
  | 'f' => some '\x0c'
  | 'n' => some '\n'
  | 'r' => some '\r'
  | 't' => some '\t'
  | _ => none

/-- The scanner: its mode and the tokens so far, last first. -/
structure Scanner where
  mode : ScanMode
  tokens : List Token
  deriving Repr

namespace Scanner

/-- Takes a character that does not continue a token. -/
def start (tokens : List Token) (c : Char) : Option Scanner :=
  if isSpace c then some ⟨.between, tokens⟩
  else if c = '\x22' then some ⟨.inString .empty, tokens⟩
  else if c.isDigit || c = '-' then some ⟨.inNumber [c], tokens⟩
  else if c.isLower then some ⟨.inWord [c], tokens⟩
  else if c = ',' ∨ c = ':' ∨ c = '[' ∨ c = ']' ∨ c = '\x7b' ∨ c = '\x7d' then
    some ⟨.between, .mark c :: tokens⟩
  else none

/-- Takes one character. -/
def step (s : Scanner) (c : Char) : Option Scanner :=
  match s.mode with
  | .between => start s.tokens c
  | .inNumber read =>
    if isNumberChar c then some ⟨.inNumber (c :: read), s.tokens⟩
    else (numberToken read).bind fun token => start (token :: s.tokens) c
  | .inWord read =>
    if c.isLower then some ⟨.inWord (c :: read), s.tokens⟩
    else (wordToken read).bind fun token => start (token :: s.tokens) c
  | .inString str =>
    if c = '\x22' then some ⟨.between, .scalar str.close :: s.tokens⟩
    else if c = '\x5c' then some ⟨.escaped str, s.tokens⟩
    else if c.val < 0x20 then none
    else some ⟨.inString (str.push c), s.tokens⟩
  | .escaped str =>
    if c = 'u' then some ⟨.inUnit str 0 4, s.tokens⟩
    else (escapeChar? c).map fun plain => ⟨.inString (str.push plain), s.tokens⟩
  | .inUnit str value left =>
    match hexDigit? c with
    | none => none
    | some d =>
      let value := value * 16 + d
      if left ≤ 1 then some ⟨.inString (str.pushUnit value), s.tokens⟩
      else some ⟨.inUnit str value (left - 1), s.tokens⟩

/-- The tokens in order, if the text ended between two of them. -/
def finish (s : Scanner) : Option (List Token) :=
  match s.mode with
  | .between => some s.tokens.reverse
  | .inNumber read => (numberToken read).map fun token => (token :: s.tokens).reverse
  | .inWord read => (wordToken read).map fun token => (token :: s.tokens).reverse
  | _ => none

end Scanner

/-- The tokens of a text. -/
def tokens? (text : List Char) : Option (List Token) :=
  (text.foldlM Scanner.step ⟨.between, []⟩).bind Scanner.finish

end ClusterAccess.Json
