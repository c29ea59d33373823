/-
Trust policies of IAM roles.

A trust policy says who may assume a role.  It arrives as an escaped JSON document,
and the principals it trusts are those of the statements that allow the action
`sts:AssumeRole`; services and identity providers are not looked at.

The document is lenient: the statements, the actions and the principals are each one
value or a list of them.  One reading of such a field is tried before the other, so
a statement that is itself written as an array of its fields is one statement.
-/
import ClusterAccess.Fault
import ClusterAccess.Json.Reader
import ClusterAccess.Json.Record
import ClusterAccess.Text.Percent

namespace ClusterAccess

open Text

namespace TrustPolicy

/-- One rule of a policy. -/
structure Statement where
  effect : String
  actions : List String
  /-- Whom the rule is about; a rule about services alone has nobody. -/
  principals : List String
  deriving DecidableEq, Repr

/-- A value that is written alone or as a list. -/
def oneOrMany (read : Json → Option α) (value : Json) : Option (List α) :=
  match read value with
  | some one => some [one]
  | none =>
    match value with
    | .array items => items.mapM read
    | _ => none

/-- The principals of a statement: a text, or a record of which only `AWS` counts. -/
def readPrincipals : Json → Option (List String)
  | .string everyone => some [everyone]
  | value =>
    match value.record? ["AWS"] with
    | some [some accounts] => oneOrMany Json.text? accounts
    | some [none] => some []
    | _ => none

/-- Reads a statement.  Written as an array, it has all three of its fields. -/
def readStatement (value : Json) : Option Statement :=
  match value.record? ["Effect", "Action", "Principal"] with
  | some [effect, action, principal] => do
    let effect ←
      match effect with
      | none => some ""
      | some value => value.text?
    let actions ←
      match action with
      | none => some []
      | some value => oneOrMany Json.text? value
    let principals ←
      match principal, value with
      | none, .array _ => none
      | none, _ => some []
      | some .null, _ => some []
      | some value, _ => readPrincipals value
    some ⟨effect, actions, principals⟩
  | _ => none

/-- How deep the values of a policy may be nested. -/
def depthLimit : Nat := 126

/-- Reads the statements of a policy. -/
def readPolicy (value : Json) : Option (List Statement) :=
  match value.record? ["Statement"] with
  | some [some statements] =>
    if statements.isHoldable depthLimit then oneOrMany readStatement statements else none
  | some [none] => some []
  | _ => none

/-- The action of assuming a role. -/
def assumeRole : List Char := "sts:AssumeRole".toList

/-- Is it the action of assuming a role, in whatever case? -/
def isAssumeRole (action : String) : Bool :=
  action.toList.map Char.toLower = assumeRole.map Char.toLower

/-- The principals that a statement trusts with the role. -/
def Statement.trusted (statement : Statement) : List String :=
  if statement.effect = "Allow" ∧ statement.actions.any isAssumeRole then statement.principals
  else []

/-- What faults call a trust policy. -/
def documentName : String := "trust policy"

/-- How the fault of a document with bad escapes is worded. -/
def badEscapes : String := "invalid URL encoding"

/-- Takes the escapes out of a policy document; a plus sign is a space. -/
def decodeDocument (raw : String) : Outcome String :=
  match percentDecode? (raw.toList.map fun c => if c = '+' then ' ' else c) with
  | some text => .ok text
  | none => .error (.malformed documentName badEscapes)

/-- The principals that an escaped policy document trusts, in document order. -/
def trustedPrincipals (raw : String) : Outcome (List String) := do
  let text ← decodeDocument raw
  match (Json.parse? text).bind readPolicy with
  | some statements => .ok (statements.flatMap Statement.trusted)
  | none => .error (.malformed documentName "not a policy document")

end TrustPolicy

end ClusterAccess
