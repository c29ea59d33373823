/-
Writing JSON on one line.

Nothing stands between the tokens.  Inside a string the quote, the backslash and
the control characters are escaped, and everything else is written as it is.
-/
import ClusterAccess.Json.Value
import ClusterAccess.Text.Digits

namespace ClusterAccess.Json

open Text

/-- How a character is written inside a string. -/
def quoteChar (c : Char) : List Char :=
  match c with
  | '\x22' => ['\x5c', '\x22']
  | '\x5c' => ['\x5c', '\x5c']
  | '\x08' => ['\x5c', 'b']
  | '\x0c' => ['\x5c', 'f']
  | '\n' => ['\x5c', 'n']
  | '\r' => ['\x5c', 'r']
  | '\t' => ['\x5c', 't']
  | c => if c.val < 0x20 then '\x5c' :: 'u' :: hexDigits false 4 c.toNat else [c]

/-- A text in quotes. -/
def quote (text : String) : List Char :=
  '\x22' :: text.toList.flatMap quoteChar ++ ['\x22']

mutual

/-- Writes a value. -/
def write : Json → List Char
  | .null => "null".toList
  | .bool true => "true".toList
  | .bool false => "false".toList
  | .number literal => literal.toList
  | .string text => quote text
  | .unreadable => "null".toList
  | .array items => '[' :: writeItems items
  | .object fields => '\x7b' :: writeFields fields

/-- Writes the members of an array and what closes it. -/
def writeItems : List Json → List Char
  | [] => [']']
  | [value] => write value ++ [']']
  | value :: rest => write value ++ ',' :: writeItems rest

/-- Writes the fields of an object and what closes it. -/
def writeFields : List (String × Json) → List Char
  | [] => ['\x7d']
  | [field] => writeField field ++ ['\x7d']
  | field :: rest => writeField field ++ ',' :: writeFields rest

/-- Writes a field. -/
def writeField : String × Json → List Char
  | (name, value) => quote name ++ ':' :: write value

end

/-- The text of a value. -/
def render (value : Json) : String :=
  String.ofList value.write

end ClusterAccess.Json
