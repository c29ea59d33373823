/-
Reading a record from JSON.

A record has named fields in a fixed order.  It is written as an object, where a
name of the record may stand only once and other names do not matter, or as an array
of its fields in order, where fields may be missing at the end.  Either way the
reader gets one optional value for each field.
-/
import ClusterAccess.Json.Value
import ClusterAccess.Json.Number

namespace ClusterAccess.Json

/-- The one field of a name: absent, present once, or repeated. -/
def soleField (name : String) (fields : List (String × Json)) : Option (Option Json) :=
  match fields.filter fun field => field.1 = name with
  | [] => some none
  | [field] => some (some field.2)
  | _ => none

/-- The fields of a record in the order of their names. -/
def record? (names : List String) : Json → Option (List (Option Json))
  | .object fields => names.mapM fun name => soleField name fields
  | .array items =>
    if items.length ≤ names.length then
      some (items.map some ++ List.replicate (names.length - items.length) none)
    else none
  | _ => none

theorem record?_array {names : List String} {items : List Json} {fields : List (Option Json)} :
    (Json.array items).record? names = some fields ↔ items.length ≤ names.length ∧
      items.map some ++ List.replicate (names.length - items.length) none = fields := by
  unfold record?
  split <;> simp_all

/-- A natural number that fits in 64 bits. -/
def nat64? : Json → Option Nat
  | .number literal =>
    match natural? literal with
    | some n => if n < Nat.pow 2 64 then some n else none
    | none => none
  | _ => none

/-- A text, or none for null. -/
def nullable? : Json → Option (Option String)
  | .null => some none
  | .string text => some (some text)
  | _ => none

mutual

/-- Can the whole value be held in memory: no broken text, no number beyond a double, and
no more than `depth` levels of nesting? -/
def isHoldable (depth : Nat) : Json → Bool
  | .unreadable => false
  | .number literal => inDoubleRange literal
  | .array items => 0 < depth && itemsHoldable (depth - 1) items
  | .object fields => 0 < depth && fieldsHoldable (depth - 1) fields
  | _ => true

/-- Are all the values holdable? -/
def itemsHoldable (depth : Nat) : List Json → Bool
  | [] => true
  | value :: rest => isHoldable depth value && itemsHoldable depth rest

/-- Are the values of all the fields holdable? -/
def fieldsHoldable (depth : Nat) : List (String × Json) → Bool
  | [] => true
  | field :: rest => fieldHoldable depth field && fieldsHoldable depth rest

/-- Is the value of the field holdable? -/
def fieldHoldable (depth : Nat) : String × Json → Bool
  | (_, value) => isHoldable depth value

end

theorem itemsHoldable_append (depth : Nat) (before after : List Json) :
    itemsHoldable depth (before ++ after) =
      (itemsHoldable depth before && itemsHoldable depth after) := by
  induction before with
  | nil => rfl
  | cons value before ih => rw [List.cons_append, itemsHoldable, itemsHoldable, ih, Bool.and_assoc]

theorem fieldsHoldable_append (depth : Nat) (before after : List (String × Json)) :
    fieldsHoldable depth (before ++ after) =
      (fieldsHoldable depth before && fieldsHoldable depth after) := by
  induction before with
  | nil => rfl
  | cons field before ih =>
      rw [List.cons_append, fieldsHoldable, fieldsHoldable, ih, Bool.and_assoc]

end ClusterAccess.Json
