/-
The mapping document of a cluster.

The document maps IAM users and IAM roles to usernames and groups.  It is a config
map with two entries of interest, `mapUsers` and `mapRoles`, each a list of rows in
YAML.  Reading is lenient: a list that does not parse has no rows, and a row that does
not fit is passed over.  Writing is strict: a list that does not parse is never written
over, and everything that is not understood is kept.
-/
import ClusterAccess.Arn
import ClusterAccess.Fault
import ClusterAccess.Kube.Object
import ClusterAccess.Mappings
import ClusterAccess.Text.Blank
import ClusterAccess.Yaml.Writer

namespace ClusterAccess

open Text

/-- The mapping document. -/
structure AwsAuth where
  ns : String
  name : String
  /-- The version that was read; a write insists on it. -/
  resourceVersion : Option String := none
  /-- The entries of the config map. -/
  data : List (String × String) := []
  deriving DecidableEq, Repr

/-- Sets an entry of a table of texts, in its place or at the end. -/
def setText (key text : String) : List (String × String) → List (String × String)
  | [] => [(key, text)]
  | entry :: rest => if entry.1 = key then (key, text) :: rest else entry :: setText key text rest

namespace AwsAuth

/-- The two lists of the document. -/
inductive Section where
  | users
  | roles
  deriving DecidableEq, Repr

namespace Section

/-- The entry that holds a list. -/
def key : Section → String
  | .users => "mapUsers"
  | .roles => "mapRoles"

/-- The field of a row that holds its ARN. -/
def arnField : Section → String
  | .users => "userarn"
  | .roles => "rolearn"

/-- The list for the mappings of a principal. -/
def ofPrincipal? (principal : String) : Option Section :=
  match Arn.classify principal with
  | .user => some .users
  | .role => some .roles
  | .unsupported => none

end Section

/-! ### Rows -/

/-- The text of a value, whatever its tags. -/
def textOf? (value : Yaml) : Option String :=
  match value.untagged with
  | .string text => some text
  | _ => none

/-- The fields of a mapping whose keys are all texts. -/
def fieldsOf? (value : Yaml) : Option (List (String × Yaml)) :=
  match value.untagged with
  | .mapping entries =>
    entries.mapM fun entry => (textOf? entry.1).map fun key => (key, entry.2)
  | _ => none

/-- The one value of a field: absent, present once, or repeated. -/
def soleValue (name : String) (fields : List (String × Yaml)) : Option (Option Yaml) :=
  match fields.filter fun field => field.1 = name with
  | [] => some none
  | [field] => some (some field.2)
  | _ => none

/-- The username of a row; a null is none. -/
def usernameOf? : Option Yaml → Option (Option String)
  | none => some none
  | some .null => some none
  | some value => (textOf? value).map some

/-- The groups of a row; a null is no groups. -/
def groupsOf? : Option Yaml → Option (List String)
  | none => some []
  | some value =>
    match value.untagged with
    | .null => some []
    | .sequence items => items.mapM textOf?
    | _ => none

/-- The row that a value of a list stands for, if it fits. -/
def rowOf? (part : Section) (value : Yaml) : Option MappingRow := do
  let fields ← fieldsOf? value
  let arn ← soleValue part.arnField fields
  let username ← soleValue "username" fields
  let groups ← soleValue "groups" fields
  let principal ← arn.bind textOf?
  some ⟨principal, ← usernameOf? username, ← groupsOf? groups⟩

/-- The values of a list.  A list that is absent or blank has none. -/
def values (document : AwsAuth) (part : Section) : Outcome (List Yaml) :=
  match document.data.lookup part.key with
  | none => .ok []
  | some raw =>
    if allBlank raw then .ok []
    else
      match Yaml.parseList? raw with
      | some values => .ok values
      | none =>
        .error (.malformed (document.ns ++ "/" ++ document.name ++ " " ++ part.key) "not a list")

/-- The rows of a list that fit and name a principal, in document order. -/
def rowsOf (document : AwsAuth) (part : Section) : List MappingRow :=
  match document.values part with
  | .ok values => (values.filterMap (rowOf? part)).filter fun row => row.principal ≠ ""
  | .error _ => []

/-- The rows of both lists, users first. -/
def rows (document : AwsAuth) : List MappingRow :=
  document.rowsOf .users ++ document.rowsOf .roles

/-- The mappings of the document. -/
def mappings (document : AwsAuth) : Mappings :=
  .ofRows document.rows

/-- The username of a principal: that of the first row that names it. -/
def findUsername? (document : AwsAuth) (principal : String) : Option String :=
  (document.rows.find? fun row => row.principal = principal).map MappingRow.effectiveUsername

/-! ### Self-mappings -/

/-- The fault of a principal that is neither a user nor a role. -/
def unsupportedPrincipal (principal : String) : Fault :=
  .invalidField "principal" (principal ++ " is not an IAM user or role")

/-- The row that maps a principal to itself. -/
def selfRow (part : Section) (principal : String) : Yaml :=
  .mapping [(.string part.arnField, .string principal), (.string "username", .string principal)]

/-- Adds a row that maps a user or a role to itself. -/
def appendSelf (document : AwsAuth) (principal : String) : Outcome AwsAuth :=
  match Section.ofPrincipal? principal with
  | none => .error (unsupportedPrincipal principal)
  | some part => do
    let values ← document.values part
    let text := Yaml.renderList (values ++ [selfRow part principal])
    .ok { document with data := setText part.key text document.data }

/-- The document of a config map in its normal form. -/
def ofConfigMap (fields : List (String × Json)) : AwsAuth :=
  let metadata := Kube.Metadata.ofJson ((Json.field? "metadata" fields).getD (.object []))
  { ns := metadata.ns.getD ""
    name := metadata.name.getD ""
    resourceVersion := metadata.resourceVersion
    data := ((Json.field? "data" fields).map Kube.textTable).getD [] }

end AwsAuth

end ClusterAccess
