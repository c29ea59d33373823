/-
JSON documents.

A value keeps what a reader may still want to judge: the literal a number was
written as, because some fields take whole numbers only, and the fields of an object
in order and with repetitions, because a repeated field may be a mistake.

Not every well-formed string is text: the escapes can name half of a surrogate
pair.  Such a string may stand where nobody looks at it, so it is a value of its own
that no field accepts.
-/
namespace ClusterAccess

/-- A JSON value. -/
inductive Json where
  | null
  | bool (value : Bool)
  /-- A number, as the literal that writes it. -/
  | number (literal : String)
  | string (text : String)
  /-- A string with half of a surrogate pair, or an object with such a name in it. -/
  | unreadable
  | array (items : List Json)
  /-- The fields of an object, in order. -/
  | object (fields : List (String × Json))
  deriving Repr, BEq

namespace Json

instance : Inhabited Json := ⟨.null⟩

/-- The last field of a name, as readers that let repetitions pass see it. -/
def field? (name : String) : List (String × Json) → Option Json
  | [] => none
  | (key, value) :: rest =>
    match field? name rest with
    | some later => some later
    | none => if key = name then some value else none

/-- The field of an object. -/
def get? (name : String) : Json → Option Json
  | .object fields => field? name fields
  | _ => none

/-- The text of a string. -/
def text? : Json → Option String
  | .string text => some text
  | _ => none

/-- The members of an array. -/
def items? : Json → Option (List Json)
  | .array items => some items
  | _ => none

/-- The fields of an object. -/
def fields? : Json → Option (List (String × Json))
  | .object fields => some fields
  | _ => none

/-- The members of an array of strings. -/
def texts? : Json → Option (List String)
  | .array items => items.mapM text?
  | _ => none

/-- A number that is a natural one. -/
def ofNat (n : Nat) : Json :=
  .number (Nat.repr n)

/-- An array of strings. -/
def ofTexts (texts : List String) : Json :=
  .array (texts.map .string)

/-- A string, or null for none. -/
def ofText? : Option String → Json
  | some text => .string text
  | none => .null

end Json

end ClusterAccess
