/-
From JSON tokens to a value.

The reader keeps the arrays and objects that are still open on a stack, with the
members read so far, and takes one token at a time.
-/
import ClusterAccess.Json.Token

namespace ClusterAccess.Json

/-- An array or object that is still open; its members so far stand last first. -/
inductive Frame where
  | array (items : List Json)
  /-- An object, the name whose value comes next, and whether a name was no text. -/
  | object (fields : List (String × Json)) (name : String) (broken : Bool)
  deriving Repr

/-- What may come next. -/
inductive Expect where
  | value
  | valueOrClose
  | name
  | nameOrClose
  | colon
  /-- A comma or the end of what is open. -/
  | more
  deriving Repr, DecidableEq

/-- The reader: the open frames, what may come next, and the document once it is complete. -/
structure Reader where
  stack : List Frame
  expect : Expect
  document : Option Json
  deriving Repr

namespace Reader

/-- Puts a complete value where it belongs. -/
def put (stack : List Frame) (value : Json) : Reader :=
  match stack with
  | [] => ⟨[], .more, some value⟩
  | .array items :: rest => ⟨.array (value :: items) :: rest, .more, none⟩
  | .object fields name broken :: rest =>
    ⟨.object ((name, value) :: fields) "" broken :: rest, .more, none⟩

/-- The value of a frame at its closing mark. -/
def close : Frame → Json
  | .array items => .array items.reverse
  | .object fields _ broken => if broken then .unreadable else .object fields.reverse

/-- Takes the start of a value. -/
def takeValue (stack : List Frame) : Token → Option Reader
  | .scalar value => some (put stack value)
  | .mark '[' => some ⟨.array [] :: stack, .valueOrClose, none⟩
  | .mark '\x7b' => some ⟨.object [] "" false :: stack, .nameOrClose, none⟩
  | _ => none

/-- Takes the name of a field. -/
def takeName (stack : List Frame) : Token → Option Reader
  | .scalar (.string name) =>
    match stack with
    | .object fields _ broken :: rest => some ⟨.object fields name broken :: rest, .colon, none⟩
    | _ => none
  | .scalar .unreadable =>
    match stack with
    | .object fields name _ :: rest => some ⟨.object fields name true :: rest, .colon, none⟩
    | _ => none
  | _ => none

/-- Takes the mark that closes the innermost frame. -/
def takeClose (stack : List Frame) (token : Token) : Option Reader :=
  match stack, token with
  | .array items :: rest, .mark ']' => some (put rest (close (.array items)))
  | .object fields name broken :: rest, .mark '\x7d' =>
    some (put rest (close (.object fields name broken)))
  | _, _ => none

/-- Takes one token. -/
def step (r : Reader) (token : Token) : Option Reader :=
  match r.expect with
  | .value => takeValue r.stack token
  | .valueOrClose =>
    match takeClose r.stack token with
    | some next => some next
    | none => takeValue r.stack token
  | .name => takeName r.stack token
  | .nameOrClose =>
    match takeClose r.stack token with
    | some next => some next
    | none => takeName r.stack token
  | .colon =>
    match token with
    | .mark ':' => some ⟨r.stack, .value, none⟩
    | _ => none
  | .more =>
    match r.stack, token with
    | .array _ :: _, .mark ',' => some ⟨r.stack, .value, none⟩
    | .object _ _ _ :: _, .mark ',' => some ⟨r.stack, .name, none⟩
    | stack, token => takeClose stack token

end Reader

/-- The value of a list of tokens. -/
def ofTokens? (tokens : List Token) : Option Json :=
  (tokens.foldlM Reader.step ⟨[], .value, none⟩).bind Reader.document

/-- Reads a document. -/
def parse? (text : String) : Option Json :=
  (tokens? text.toList).bind ofTokens?

end ClusterAccess.Json
