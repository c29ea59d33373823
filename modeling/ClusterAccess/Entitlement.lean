/-
Entitlement ids.

An entitlement is what somebody can be granted on a resource: membership at a
scope, or the right to assume it.  Its id is one line of text,

    <kind>:<resource>:assigned:<scope>        or        <kind>:<resource>:assumes

where the kind has no colon and the resource may have any.  Reading therefore cuts
the kind off at the first colon and the scope off at the last marker.  A scope is
the word `cluster` or a namespace name; the namespace that is itself called
`cluster` is written `ns:cluster`.
-/
import ClusterAccess.Text.Split
import ClusterAccess.Fault

namespace ClusterAccess

open Text

/-! ### Scopes -/

/-- Where an entitlement holds. -/
inductive Scope where
  | cluster
  | inNamespace (name : String)
  deriving DecidableEq, Repr

namespace Scope

/-- The namespace of a scope, if it has one. -/
def ns? : Scope → Option String
  | .cluster => none
  | .inNamespace name => some name

/-- The letters of a DNS label: lower case, digits and the hyphen. -/
def isLabelChar (c : Char) : Bool :=
  c.isLower || c.isDigit || c == '-'

/-- A label of RFC 1123: one to 63 label letters, with no hyphen at either end. -/
def isLabel (name : List Char) : Bool :=
  name ≠ [] && name.length ≤ 63 && name.all isLabelChar
    && name.head? != some '-' && name.getLast? != some '-'

/-- The word for the whole cluster. -/
def clusterWord : List Char := "cluster".toList

/-- What escapes the namespace that is called like the cluster. -/
def escape : List Char := "ns:".toList

/-- Reads a scope. -/
def ofChars? (raw : List Char) : Option Scope :=
  if raw = clusterWord then some .cluster
  else
    match dropLead escape raw with
    | some name => if name = clusterWord then some (.inNamespace "cluster") else none
    | none => if isLabel raw then some (.inNamespace (String.ofList raw)) else none

/-- Reads a scope from a text. -/
def ofString? (raw : String) : Option Scope :=
  ofChars? raw.toList

/-- Writes a scope. -/
def toChars : Scope → List Char
  | .cluster => clusterWord
  | .inNamespace name => if name.toList = clusterWord then escape ++ clusterWord else name.toList

instance : ToString Scope where
  toString scope := String.ofList scope.toChars

end Scope

/-! ### Ids -/

/-- The two forms of an entitlement. -/
inductive EntitlementForm where
  /-- Membership at a scope. -/
  | assigned (scope : Scope)
  /-- The right to assume the resource. -/
  | assumes
  deriving DecidableEq, Repr

/-- An entitlement on a resource of some kind. -/
structure EntitlementId where
  kind : String
  resource : String
  form : EntitlementForm
  deriving DecidableEq, Repr

namespace EntitlementId

/-- Membership of a resource at a scope. -/
def assigned (kind resource : String) (scope : Scope) : EntitlementId :=
  ⟨kind, resource, .assigned scope⟩

/-- The right to assume a resource. -/
def assumes (kind resource : String) : EntitlementId :=
  ⟨kind, resource, .assumes⟩

/-- What stands between a resource and its scope. -/
def assignedMarker : List Char := ":assigned:".toList

/-- How an id of the second form ends. -/
def assumesSuffix : List Char := ":assumes".toList

/-- Writes what follows the kind and the resource, with its leading colon. -/
def formChars : EntitlementForm → List Char
  | .assigned scope => assignedMarker ++ scope.toChars
  | .assumes => assumesSuffix

/-- Writes an id. -/
def toChars (id : EntitlementId) : List Char :=
  id.kind.toList ++ ':' :: id.resource.toList ++ formChars id.form

instance : ToString EntitlementId where
  toString id := String.ofList id.toChars

/-- The last part of an id: `assumes`, or `assigned:` and the scope. -/
def slug (id : EntitlementId) : String :=
  String.ofList (formChars id.form).tail

/-- The ways a text fails to be an id. -/
inductive Defect where
  | noKind
  | emptyKind
  | emptyResource
  | noForm
  | emptyScope
  | badScope
  deriving DecidableEq, Repr

/-- The wording of a defect. -/
def Defect.message : Defect → String
  | .noKind => "missing resource type"
  | .emptyKind => "empty resource type"
  | .emptyResource => "empty resource id"
  | .noForm => "expected ':assigned:<scope>' or ':assumes' suffix"
  | .emptyScope => "empty scope"
  | .badScope => "scope must be 'cluster' or a namespace name"

/-- Reads what follows the kind. -/
def ofTail (kind : String) (tail : List Char) : Except Defect EntitlementId :=
  match dropTail assumesSuffix tail with
  | some resource =>
    if resource = [] then .error .emptyResource
    else .ok ⟨kind, String.ofList resource, .assumes⟩
  | none =>
    match splitLast assignedMarker tail with
    | none => .error .noForm
    | some (resource, rawScope) =>
      if resource = [] then .error .emptyResource
      else if rawScope = [] then .error .emptyScope
      else
        match Scope.ofChars? rawScope with
        | some scope => .ok ⟨kind, String.ofList resource, .assigned scope⟩
        | none => .error .badScope

/-- Reads an id, or says what is wrong with it. -/
def ofChars (raw : List Char) : Except Defect EntitlementId :=
  match splitOnce ':' raw with
  | none => .error .noKind
  | some (kind, tail) =>
    if kind = [] then .error .emptyKind else ofTail (String.ofList kind) tail

/-- Reads an id from a text. -/
def decode (raw : String) : Outcome EntitlementId :=
  match ofChars raw.toList with
  | .ok id => .ok id
  | .error defect => .error (.invalidEntitlement raw defect.message)

/-- The scope of an id that is a membership of this very resource. -/
def expectAssigned (id : EntitlementId) (kind resource : String) : Outcome Scope :=
  match id.form with
  | .assigned scope =>
    if id.kind = kind ∧ id.resource = resource then .ok scope
    else .error (.invalidEntitlement (toString id) s!"does not belong to {kind} {resource}")
  | .assumes => .error (.invalidEntitlement (toString id) "expected an assigned entitlement")

/-- The resource and scope of an id that is a membership of a resource of this kind. -/
def decodeAssigned (raw kind : String) : Outcome (String × Scope) := do
  let id ← decode raw
  if id.kind ≠ kind then
    .error (.invalidEntitlement raw s!"expected a {kind} entitlement")
  else
    let scope ← id.expectAssigned kind id.resource
    .ok (id.resource, scope)

end EntitlementId

end ClusterAccess
